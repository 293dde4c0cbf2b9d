import PineLang.Proofs.ParserComplete
import PineLang.Proofs.Relocation
import PineLang.Syntax.Printer

/-!
What the printer takes from the source. Apart from its tree, a printed file depends on one truth value
for every `else` and every struct: whether the source joins the `else` to an `if`, and whether it has
the fields in braces. Trees that agree up to spans and in these choices are printed the same
(`items_text`). Tokens make the same choices (`choices`): an `else` is joined to the `if` behind it,
and a struct has a brace or a colon behind its name.
-/
namespace PineLang
open Grammar Parser

/-! ## Choices in trees -/

namespace Printer

/-- The source joins an `else` with this body to the `if` in it. -/
def joins (source : Bytes) : Body → Bool
  | .block _ [s] => isElseIf source s
  | _ => false

theorem joins_eq_true {source : Bytes} {span : Span} {ss : List Stmt} :
    joins source (.block span ss) = true ↔ ∃ s, ss = [s] ∧ isElseIf source s = true := by
  match ss with
  | [] => simp [joins]
  | [s] => simp [joins]
  | s :: t :: ss => simp [joins]

/-- The fields of the struct go in braces. -/
def braces (source : Bytes) (d : StructDecl) : Bool := d.fields.isEmpty || braceAt source d.nameSpan.stop

end Printer

mutual

/-- The choices for a statement, in the order in which it is printed. -/
def Stmt.choices (source : Bytes) : Stmt → List Bool
  | .block _ ss => stmtsChoices source ss
  | .cond _ _ yes no => yes.choices source ++ elseChoices source no
  | .loop _ b => b.choices source
  | .expr _ _ | .ret _ _ | .brk _ | .bind _ _ _ _ _ | .empty _ | .absent _ | .hollow _ _ => []
termination_by structural s => s

/-- The choices for a body. -/
def Body.choices (source : Bytes) : Body → List Bool
  | .block _ ss => stmtsChoices source ss
  | .stray _ s => s.choices source
termination_by structural b => b

/-- The choices for an `else`, if there is one: its own first. -/
def elseChoices (source : Bytes) : Option Body → List Bool
  | none => []
  | some b => Printer.joins source b :: b.choices source
termination_by structural no => no

/-- The choices for statements one after the other. -/
def stmtsChoices (source : Bytes) : List Stmt → List Bool
  | [] => []
  | s :: ss => s.choices source ++ stmtsChoices source ss
termination_by structural ss => ss

end

/-- The choices for a declaration. -/
@[simp] def Item.choices (source : Bytes) : Item → List Bool
  | .fn d => d.body.choices source
  | .struct d => [Printer.braces source d]
  | .absent _ | .hollow _ _ => []

/-! ## Text without spans -/

mutual

theorem Expr.text_bare : ∀ e : Expr, e.bare.text = e.text
  | .ident _ _ => rfl
  | .lit _ _ => rfl
  | .assign _ a b => by simp only [Expr.bare, Expr.text, Expr.text_bare a, Expr.text_bare b]
  | .call _ f args => by simp only [Expr.bare, Expr.text, Expr.text_bare f, exprTexts_bare args]
  | .member _ t _ _ => by simp only [Expr.bare, Expr.text, Expr.text_bare t]
  | .unary _ _ x => by simp only [Expr.bare, Expr.text, Expr.text_bare x]
  | .binary _ _ a b => by simp only [Expr.bare, Expr.text, Expr.text_bare a, Expr.text_bare b]
  | .group _ x => by simp only [Expr.bare, Expr.text, Expr.text_bare x]
  | .structLit _ _ _ fs => by
    have none : (bareFields fs).isEmpty = fs.isEmpty := by cases fs <;> rfl
    simp only [Expr.bare, Expr.text, none, fieldTexts_bare fs]
  | .absent _ => rfl
  | .hollow _ _ => rfl

theorem exprTexts_bare : ∀ es : List Expr, exprTexts (bareExprs es) = exprTexts es
  | [] => rfl
  | e :: es => by simp only [bareExprs, exprTexts, Expr.text_bare e, moreExprTexts_bare es]

theorem moreExprTexts_bare : ∀ es : List Expr, moreExprTexts (bareExprs es) = moreExprTexts es
  | [] => rfl
  | e :: es => by simp only [bareExprs, moreExprTexts, Expr.text_bare e, moreExprTexts_bare es]

theorem FieldInit.text_bare : ∀ f : FieldInit, f.bare.text = f.text
  | .mk _ _ v => by simp only [FieldInit.bare, FieldInit.text, Expr.text_bare v]

theorem fieldTexts_bare : ∀ fs : List FieldInit, fieldTexts (bareFields fs) = fieldTexts fs
  | [] => rfl
  | f :: fs => by simp only [bareFields, fieldTexts, FieldInit.text_bare f, moreFieldTexts_bare fs]

theorem moreFieldTexts_bare : ∀ fs : List FieldInit, moreFieldTexts (bareFields fs) = moreFieldTexts fs
  | [] => rfl
  | f :: fs => by simp only [bareFields, moreFieldTexts, FieldInit.text_bare f, moreFieldTexts_bare fs]

end

theorem Expr.text_eq {e e' : Expr} (same : e'.bare = e.bare) : e'.text = e.text := by
  rw [← Expr.text_bare e', same, Expr.text_bare]

theorem map_param_eq {ps ps' : List Param} (same : ps'.map Param.bare = ps.map Param.bare) :
    ps'.map Printer.param = ps.map Printer.param := by
  have placeless : Printer.param ∘ Param.bare = Printer.param := rfl
  rw [← placeless, ← List.map_map, same, List.map_map]

/-! ## The same text -/

section SameText

variable {source source' : Bytes}

mutual

/-- Statements that agree up to spans and begin with the same choices are printed the same. -/
theorem Stmt.text_eq : ∀ {s s' : Stmt}, s'.bare = s.bare → ∀ {left left' : List Bool},
    s'.choices source' ++ left' = s.choices source ++ left →
      (∀ d, Printer.stmt source' d s' = Printer.stmt source d s ∧ Printer.branch source' d s' = Printer.branch source d s) ∧
        left' = left
  | .block _ ss, s', same, left, left', chosen => by
    cases s' <;> simp only [Stmt.bare, reduceCtorEq, Stmt.block.injEq, true_and] at same
    obtain ⟨text, rest⟩ := stmts_text_eq same chosen
    exact ⟨fun d => ⟨text d, rfl⟩, rest⟩
  | .expr _ x, s', same, left, left', chosen => by
    cases s' <;> simp only [Stmt.bare, reduceCtorEq, Stmt.expr.injEq, true_and] at same
    refine ⟨fun d => ⟨?_, rfl⟩, chosen⟩
    simp only [Printer.stmt, Expr.text_eq same]
  | .cond _ t yes no, s', same, left, left', chosen => by
    cases s' <;> simp only [Stmt.bare, reduceCtorEq, Stmt.cond.injEq, true_and] at same
    obtain ⟨test, first, second⟩ := same
    simp only [Stmt.choices, List.append_assoc] at chosen
    obtain ⟨body, others⟩ := Body.text_eq first chosen
    obtain ⟨otherwise, rest⟩ := otherwise_text_eq second others
    refine ⟨fun d => ⟨?_, ?_⟩, rest⟩
    · simp only [Printer.stmt, Expr.text_eq test, body d, otherwise d]
    · simp only [Printer.branch, Expr.text_eq test, body d, otherwise d]
  | .ret _ none, s', same, left, left', chosen => by
    cases s' <;> simp only [Stmt.bare, reduceCtorEq, Stmt.ret.injEq, true_and, Option.map_none, Option.map_eq_none_iff] at same
    subst same
    exact ⟨fun d => ⟨rfl, rfl⟩, chosen⟩
  | .ret _ (some x), s', same, left, left', chosen => by
    cases s' <;> simp only [Stmt.bare, reduceCtorEq, Stmt.ret.injEq, true_and, Option.map_some, Option.map_eq_some_iff] at same
    obtain ⟨x', rfl, value⟩ := same
    refine ⟨fun d => ⟨?_, rfl⟩, chosen⟩
    simp only [Printer.stmt, Expr.text_eq value]
  | .bind _ n _ ty v, s', same, left, left', chosen => by
    cases s' <;> simp only [Stmt.bare, reduceCtorEq, Stmt.bind.injEq, true_and, TypeRef.bare, TypeRef.mk.injEq, and_true] at same
    obtain ⟨rfl, type, value⟩ := same
    refine ⟨fun d => ⟨?_, rfl⟩, chosen⟩
    simp only [Printer.stmt, Expr.text_eq value, type]
  | .loop _ b, s', same, left, left', chosen => by
    cases s' <;> simp only [Stmt.bare, reduceCtorEq, Stmt.loop.injEq, true_and] at same
    obtain ⟨body, rest⟩ := Body.text_eq same chosen
    refine ⟨fun d => ⟨?_, rfl⟩, rest⟩
    simp only [Printer.stmt, body d]
  | .brk _, s', same, left, left', chosen | .empty _, s', same, left, left', chosen
  | .absent _, s', same, left, left', chosen | .hollow _ _, s', same, left, left', chosen => by
    cases s' <;> simp only [Stmt.bare, reduceCtorEq] at same
    exact ⟨fun d => ⟨rfl, rfl⟩, chosen⟩

theorem Body.text_eq : ∀ {b b' : Body}, b'.bare = b.bare → ∀ {left left' : List Bool},
    b'.choices source' ++ left' = b.choices source ++ left →
      (∀ d, Printer.body source' d b' = Printer.body source d b) ∧ left' = left
  | .block _ ss, b', same, left, left', chosen => by
    cases b' <;> simp only [Body.bare, reduceCtorEq, Body.block.injEq, true_and] at same
    obtain ⟨text, rest⟩ := stmts_text_eq same chosen
    refine ⟨fun d => ?_, rest⟩
    simp only [Printer.body, text (d + 1)]
  | .stray _ s, b', same, left, left', chosen => by
    cases b' <;> simp only [Body.bare, reduceCtorEq, Body.stray.injEq] at same
    obtain ⟨text, rest⟩ := Stmt.text_eq same.2 chosen
    refine ⟨fun d => ?_, rest⟩
    simp only [Printer.body, text (d + 1)]

theorem otherwise_text_eq : ∀ {no no' : Option Body}, bareElse no' = bareElse no → ∀ {left left' : List Bool},
    elseChoices source' no' ++ left' = elseChoices source no ++ left →
      (∀ d, Printer.otherwise source' d no' = Printer.otherwise source d no) ∧ left' = left
  | none, no', same, left, left', chosen => by
    cases no' <;> simp only [bareElse, reduceCtorEq] at same
    exact ⟨fun d => rfl, chosen⟩
  | some (.block span []), no', same, left, left', chosen => by
    obtain _ | ⟨_, ss'⟩ | _ := no' <;> simp only [bareElse, Body.bare, reduceCtorEq, Option.some.injEq, Body.block.injEq, true_and] at same
    cases ss' <;> simp only [bareStmts, reduceCtorEq] at same
    exact ⟨fun d => rfl, (List.cons.inj chosen).2⟩
  | some (.block _ [s]), no', same, left, left', chosen => by
    obtain _ | ⟨_, ss'⟩ | _ := no' <;> simp only [bareElse, Body.bare, reduceCtorEq, Option.some.injEq, Body.block.injEq, true_and] at same
    obtain _ | ⟨s', _ | _⟩ := ss' <;> simp only [bareStmts, reduceCtorEq, List.cons.injEq, and_true, and_false] at same
    obtain ⟨joined, others⟩ := List.cons.inj chosen
    simp only [Body.choices, stmtsChoices, List.append_nil] at others
    obtain ⟨text, rest⟩ := Stmt.text_eq same others
    simp only [Printer.joins] at joined
    refine ⟨fun d => ?_, rest⟩
    simp only [Printer.otherwise, joined, text]
  | some (.block _ (s :: t :: ss)), no', same, left, left', chosen => by
    obtain _ | ⟨_, ss'⟩ | _ := no' <;> simp only [bareElse, Body.bare, reduceCtorEq, Option.some.injEq, Body.block.injEq, true_and] at same
    obtain _ | ⟨s', _ | ⟨t', ss'⟩⟩ := ss' <;> simp only [bareStmts, reduceCtorEq, List.cons.injEq, and_false] at same
    obtain ⟨-, others⟩ := List.cons.inj chosen
    have statements : bareStmts (s' :: t' :: ss') = bareStmts (s :: t :: ss) := by simp only [bareStmts, same]
    obtain ⟨text, rest⟩ := stmts_text_eq statements others
    refine ⟨fun d => ?_, rest⟩
    simp only [Printer.otherwise, text]
  | some (.stray _ s), no', same, left, left', chosen => by
    obtain _ | _ | ⟨_, s'⟩ := no' <;> simp only [bareElse, Body.bare, reduceCtorEq, Option.some.injEq, Body.stray.injEq] at same
    obtain ⟨-, others⟩ := List.cons.inj chosen
    obtain ⟨text, rest⟩ := Stmt.text_eq same.2 others
    refine ⟨fun d => ?_, rest⟩
    simp only [Printer.otherwise, text]

theorem stmts_text_eq : ∀ {ss ss' : List Stmt}, bareStmts ss' = bareStmts ss → ∀ {left left' : List Bool},
    stmtsChoices source' ss' ++ left' = stmtsChoices source ss ++ left →
      (∀ d, Printer.stmts source' d ss' = Printer.stmts source d ss) ∧ left' = left
  | [], ss', same, left, left', chosen => by
    cases ss' <;> simp only [bareStmts, reduceCtorEq] at same
    exact ⟨fun d => rfl, chosen⟩
  | s :: ss, ss', same, left, left', chosen => by
    cases ss' <;> simp only [bareStmts, reduceCtorEq, List.cons.injEq] at same
    simp only [stmtsChoices, List.append_assoc] at chosen
    obtain ⟨first, others⟩ := Stmt.text_eq same.1 chosen
    obtain ⟨text, rest⟩ := stmts_text_eq same.2 others
    refine ⟨fun d => ?_, rest⟩
    simp only [Printer.stmts, first d, text d]

end

theorem Item.text_eq {i i' : Item} (same : i'.bare = i.bare) {left left' : List Bool}
    (chosen : i'.choices source' ++ left' = i.choices source ++ left) :
    Printer.item source' i' = Printer.item source i ∧ left' = left := by
  cases i with
  | fn d =>
    cases i' <;> simp only [Item.bare, reduceCtorEq, Item.fn.injEq, FnDecl.mk.injEq, true_and, and_true] at same
    obtain ⟨name, params, type, body⟩ := same
    obtain ⟨text, rest⟩ := Body.text_eq body chosen
    simp only [TypeRef.bare, TypeRef.mk.injEq, and_true] at type
    simp only [Printer.item, Printer.params, name, map_param_eq params, type, text, rest, and_self]
  | struct d =>
    cases i' with
    | struct d' =>
      simp only [Item.bare, Item.struct.injEq, StructDecl.mk.injEq, true_and, and_true] at same
      obtain ⟨name, fields⟩ := same
      obtain ⟨brace, rest⟩ := List.cons.inj chosen
      have none : d'.fields.isEmpty = d.fields.isEmpty := by
        rw [← List.isEmpty_map, fields, List.isEmpty_map]
      have params := map_param_eq fields
      have lines : (d'.fields.map fun p => Printer.pad 1 ++ Printer.param p ++ "\n") =
          d.fields.map fun p => Printer.pad 1 ++ Printer.param p ++ "\n" := by
        simpa only [List.map_map, Function.comp_def] using
          congrArg (List.map fun text => Printer.pad 1 ++ text ++ "\n") params
      refine ⟨?_, rest⟩
      cases empty : d.fields.isEmpty with
      | true => simp only [Printer.item, none, empty, name, if_true]
      | false =>
        simp only [Printer.braces, none, empty, Bool.false_or] at brace
        simp only [Printer.item, Printer.params, none, empty, name, brace, params, lines]
    | _ => simp only [Item.bare, reduceCtorEq] at same
  | absent | hollow =>
    cases i' <;> simp only [Item.bare, reduceCtorEq] at same
    exact ⟨rfl, chosen⟩

/-- The choices for declarations one after the other. -/
def itemsChoices (source : Bytes) (is : List Item) : List Bool := is.flatMap (Item.choices source)

/-- Declarations that agree up to spans and in their choices are printed the same. -/
theorem items_text : ∀ {is is' : List Item}, is'.map Item.bare = is.map Item.bare →
    itemsChoices source' is' = itemsChoices source is →
      is'.map (Printer.item source') = is.map (Printer.item source)
  | [], is', same, _ => by
    rw [List.map_nil, List.map_eq_nil_iff] at same
    rw [same]
    rfl
  | i :: is, is', same, chosen => by
    obtain ⟨i', is', rfl, first, others⟩ := List.map_eq_cons_iff.mp same
    obtain ⟨text, rest⟩ := Item.text_eq first chosen
    rw [List.map_cons, List.map_cons, text, items_text others rest]

end SameText

/-! ## Choices in tokens -/

/-- The choices in tokens: an `else` that is joined to an `if`, and a struct with a brace behind its name. -/
@[grind =] def choices : List Lexeme → List Bool
  | [] => []
  | l :: ls =>
    match l.kind with
    | .kwElse => (look ls == .kwIf) :: choices ls
    | .kwType => (look (ls.drop 1) == .lbrace) :: choices ls
    | _ => choices ls

/-- A kind of token that makes no choice. -/
def isQuiet (k : Kind) : Bool := k != .kwElse && k != .kwType

/-- None of the tokens makes a choice. -/
def Quiet (ts : List Lexeme) : Prop := ∀ l ∈ ts, isQuiet l.kind = true

@[simp] theorem quiet_nil : Quiet [] := List.forall_mem_nil _

@[simp] theorem quiet_cons {l : Lexeme} {ts : List Lexeme} : Quiet (l :: ts) ↔ isQuiet l.kind = true ∧ Quiet ts :=
  List.forall_mem_cons

@[simp] theorem quiet_append {ts us : List Lexeme} : Quiet (ts ++ us) ↔ Quiet ts ∧ Quiet us :=
  List.forall_mem_append

/-- The tokens make these choices, whatever follows them. -/
def Chooses (ts : List Lexeme) (cs : List Bool) : Prop := ∀ more, choices (ts ++ more) = cs ++ choices more

namespace Chooses

variable {ts us : List Lexeme} {cs ds : List Bool} {l name mark : Lexeme}

theorem nil : Chooses [] [] := fun _ => rfl

theorem append (first : Chooses ts cs) (second : Chooses us ds) : Chooses (ts ++ us) (cs ++ ds) := by
  intro more
  rw [List.append_assoc, first, second, List.append_assoc]

theorem cons (quiet : isQuiet l.kind = true) (others : Chooses ts cs) : Chooses (l :: ts) cs := by
  intro more
  have step : choices (l :: (ts ++ more)) = choices (ts ++ more) := by
    rw [choices]
    split
    · next isElse => simp [isQuiet, isElse] at quiet
    · next isType => simp [isQuiet, isType] at quiet
    · rfl
  rw [List.cons_append, step, others]

theorem quiet : ∀ {ts : List Lexeme}, Quiet ts → Chooses ts []
  | [], _ => nil
  | l :: ts, silent => by
    obtain ⟨first, others⟩ := quiet_cons.mp silent
    exact cons first (quiet others)

/-- An `else` before an `if`. -/
theorem chain (isElse : l.kind = .kwElse) (isIf : look ts = .kwIf) (others : Chooses ts cs) :
    Chooses (l :: ts) (true :: cs) := by
  intro more
  have next : look (ts ++ more) = .kwIf := by
    cases ts with
    | nil => cases isIf
    | cons => exact isIf
  rw [List.cons_append, choices]
  simp only [isElse, next, others more, List.cons_append, beq_self_eq_true]

/-- An `else` before a colon. -/
theorem block (isElse : l.kind = .kwElse) (isColon : mark.kind = .colon) (others : Chooses ts cs) :
    Chooses (l :: mark :: ts) (false :: cs) := by
  intro more
  have inner : choices (mark :: (ts ++ more)) = cs ++ choices more := cons (by rw [isColon]; rfl) others more
  have next : look (mark :: (ts ++ more)) = .colon := isColon
  rw [List.cons_append, List.cons_append, choices]
  simp only [isElse, inner, next, List.cons_append]
  rfl

/-- A struct with a mark behind its name. -/
theorem struct (isType : l.kind = .kwType) (isName : name.kind = .ident) (plain : isQuiet mark.kind = true)
    (others : Chooses ts []) : Chooses (l :: name :: mark :: ts) [mark.kind == .lbrace] := by
  intro more
  have inner : choices (name :: mark :: (ts ++ more)) = choices more := cons (by rw [isName]; rfl) (cons plain others) more
  have next : look ((name :: mark :: (ts ++ more)).drop 1) = mark.kind := rfl
  rw [List.cons_append, List.cons_append, List.cons_append, choices]
  simp only [isType, inner, next, List.cons_append, List.nil_append]

theorem choices_eq (whole : Chooses ts cs) : choices ts = cs := by
  have all := whole []
  rwa [List.append_nil, choices, List.append_nil] at all

end Chooses

/-- Choices depend on the kinds of the tokens. -/
theorem choices_of_bare : ∀ {ts us : List Lexeme}, us.map Lexeme.bare? = ts.map Lexeme.bare? → choices us = choices ts
  | [], us, same => by
    rw [List.map_nil, List.map_eq_nil_iff] at same
    rw [same]
  | l :: ts, us, same => by
    obtain ⟨m, us, rfl, first, others⟩ := List.map_eq_cons_iff.mp same
    have kinds {ts us : List Lexeme} (same : us.map Lexeme.bare? = ts.map Lexeme.bare?) : look us = look ts := by
      cases ts with
      | nil => rw [List.map_nil, List.map_eq_nil_iff] at same; rw [same]
      | cons l ts =>
        obtain ⟨m, us, rfl, first, -⟩ := List.map_eq_cons_iff.mp same
        exact kind_of_bare first
    have behind : (us.drop 1).map Lexeme.bare? = (ts.drop 1).map Lexeme.bare? := by
      rw [List.map_drop, others, List.map_drop]
    rw [choices, choices, kind_of_bare first, kinds others, kinds behind, choices_of_bare others]

/-! ## Expressions and fields make no choices -/

namespace Grammar

theorem quiet_type {l : Lexeme} {ref : TypeRef} (isType : annotation? l = some ref) : isQuiet l.kind = true := by
  cases kind : l.kind <;> first | rfl | simp [annotation?, kind, Kind.primitive?] at isType

theorem quiet_leaf {l : Lexeme} {e : Expr} (isLeaf : leaf? l = some e) : isQuiet l.kind = true := by
  unfold leaf? at isLeaf
  split at isLeaf <;> cases isLeaf <;> next kind => rw [kind]; rfl

theorem quiet_joiner {k : Kind} {op : Joiner} (isOp : k.joiner? = some op) : isQuiet k = true := by
  cases k <;> first | rfl | cases isOp

theorem quiet_unary {k : Kind} {op : UnaryOp} (isOp : k.unary? = some op) : isQuiet k = true := by
  cases k <;> first | rfl | cases isOp

/-- A kind that is not one of the two makes no choice. -/
theorem quiet_of_kind {l : Lexeme} {k : Kind} (isKind : l.kind = k) (plain : isQuiet k = true) : isQuiet l.kind = true := by
  rw [isKind, plain]

mutual

theorem Expression.quiet {least : Nat} {ts : List Lexeme} {e : Expr} : Expression least ts e → Quiet ts
  | .operand inner => inner.quiet
  | .binary lhs isOp _ rhs => by simp [lhs.quiet, quiet_joiner isOp, rhs.quiet]
  | .assign lhs _ isAssign _ rhs => by simp [lhs.quiet, quiet_of_kind isAssign rfl, rhs.quiet]

theorem Prefixed.quiet {ts : List Lexeme} {e : Expr} : Prefixed ts e → Quiet ts
  | .plain inner => inner.quiet
  | .sign isOp inner => by simp [quiet_unary isOp, inner.quiet]

theorem Postfixed.quiet {ts : List Lexeme} {e : Expr} : Postfixed ts e → Quiet ts
  | .plain inner => inner.quiet
  | .call callee opens inner closes => by
    simp [callee.quiet, quiet_of_kind opens rfl, inner.quiet, quiet_of_kind closes rfl]
  | .member target isPoint isName => by simp [target.quiet, quiet_of_kind isPoint rfl, quiet_of_kind isName rfl]

theorem Primary.quiet {ts : List Lexeme} {e : Expr} : Primary ts e → Quiet ts
  | .leaf isLeaf => by simp [quiet_leaf isLeaf]
  | .group opens inner closes => by simp [quiet_of_kind opens rfl, inner.quiet, quiet_of_kind closes rfl]
  | .literal isName opens inner closes => by
    simp [quiet_of_kind isName rfl, quiet_of_kind opens rfl, inner.quiet, quiet_of_kind closes rfl]

theorem Arguments.quiet {ts : List Lexeme} {es : List Expr} : Arguments ts es → Quiet ts
  | .none => by simp
  | .last arg => arg.quiet
  | .more arg isComma rest => by simp [arg.quiet, quiet_of_kind isComma rfl, rest.quiet]

theorem Inits.quiet {ts : List Lexeme} {fs : List FieldInit} : Inits ts fs → Quiet ts
  | .none => by simp
  | .last isName isColon value => by simp [quiet_of_kind isName rfl, quiet_of_kind isColon rfl, value.quiet]
  | .more isName isColon value isComma rest => by
    simp [quiet_of_kind isName rfl, quiet_of_kind isColon rfl, value.quiet, quiet_of_kind isComma rfl, rest.quiet]

end

theorem Separator.quiet {closed : Bool} {ts : List Lexeme} : Separator closed ts → Quiet ts
  | .closed => by simp
  | .line isBreak => by simp [quiet_of_kind isBreak rfl]

theorem LastSeparator.quiet {closed : Bool} {ts : List Lexeme} : LastSeparator closed ts → Quiet ts
  | .none => by simp
  | .line isBreak => by simp [quiet_of_kind isBreak rfl]

theorem Field.quiet {ts : List Lexeme} {p : Param} : Field ts p → Quiet ts
  | .mk isName isColon isType => by simp [quiet_of_kind isName rfl, quiet_of_kind isColon rfl, quiet_type isType]

theorem Params.quiet {ts : List Lexeme} {ps : List Param} : Params ts ps → Quiet ts
  | .last field => field.quiet
  | .more field isComma rest => by simp [field.quiet, quiet_of_kind isComma rfl, rest.quiet]

theorem ParamList.quiet {ts : List Lexeme} {ps : List Param} : ParamList ts ps → Quiet ts
  | .none => by simp
  | .some params => params.quiet

theorem BracedFields.quiet {ts : List Lexeme} {ps : List Param} : BracedFields ts ps → Quiet ts
  | .none => by simp
  | .last field => field.quiet
  | .more field isComma rest => by simp [field.quiet, quiet_of_kind isComma rfl, rest.quiet]

theorem FieldLines.quiet {ts : List Lexeme} {ps : List Param} : FieldLines ts ps → Quiet ts
  | .last field ends isDedent => by simp [field.quiet, ends.quiet, quiet_of_kind isDedent rfl]
  | .more field ends rest => by simp [field.quiet, ends.quiet, rest.quiet]

end Grammar
end PineLang
