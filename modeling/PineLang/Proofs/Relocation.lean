import PineLang.Proofs.Grammar
import PineLang.Proofs.Pieces

/-!
Trees up to spans. What a derivation says of its lexemes depends on their kinds, texts and values
alone: lexemes that differ in their places only are derived to trees that differ in their spans only
(`Declarations.relocate`).
-/
namespace PineLang

/-! ## Trees without spans -/

mutual

/-- An expression without its spans. -/
@[simp] def Expr.bare : Expr → Expr
  | .ident _ n => .ident {} n
  | .lit _ v => .lit {} v
  | .assign _ a b => .assign {} a.bare b.bare
  | .call _ f args => .call {} f.bare (bareExprs args)
  | .member _ t f _ => .member {} t.bare f {}
  | .unary _ op x => .unary {} op x.bare
  | .binary _ op a b => .binary {} op a.bare b.bare
  | .group _ x => .group {} x.bare
  | .structLit _ n _ fs => .structLit {} n {} (bareFields fs)
  | .absent id => .absent id
  | .hollow _ k => .hollow {} k

/-- Expressions without their spans. -/
def bareExprs : List Expr → List Expr
  | [] => []
  | x :: xs => x.bare :: bareExprs xs

/-- A field of a literal without its spans. -/
def FieldInit.bare : FieldInit → FieldInit
  | .mk n _ v => .mk n {} v.bare

/-- Fields of a literal without their spans. -/
def bareFields : List FieldInit → List FieldInit
  | [] => []
  | f :: fs => f.bare :: bareFields fs

end

/-- A type annotation without its span. -/
def TypeRef.bare (r : TypeRef) : TypeRef := ⟨r.ty, {}⟩

/-- A parameter or a field without its spans. -/
def Param.bare (p : Param) : Param := ⟨p.name, p.type.bare, {}⟩

mutual

/-- A statement without its spans. -/
@[simp] def Stmt.bare : Stmt → Stmt
  | .block _ ss => .block {} (bareStmts ss)
  | .expr _ x => .expr {} x.bare
  | .cond _ t yes no => .cond {} t.bare yes.bare (bareElse no)
  | .ret _ v => .ret {} (v.map Expr.bare)
  | .brk _ => .brk {}
  | .bind _ n _ ty v => .bind {} n {} ty.bare v.bare
  | .loop _ b => .loop {} b.bare
  | .empty _ => .empty {}
  | .absent id => .absent id
  | .hollow _ k => .hollow {} k

/-- A body without its spans. -/
def Body.bare : Body → Body
  | .block _ ss => .block {} (bareStmts ss)
  | .stray id s => .stray id s.bare

/-- An optional branch without its spans. -/
def bareElse : Option Body → Option Body
  | none => none
  | some b => some b.bare

/-- Statements without their spans. -/
def bareStmts : List Stmt → List Stmt
  | [] => []
  | s :: ss => s.bare :: bareStmts ss

end

/-- An item without its spans. -/
@[grind =] def Item.bare : Item → Item
  | .fn d => .fn ⟨d.name, {}, d.params.map Param.bare, d.ret.bare, d.body.bare, {}⟩
  | .struct d => .struct ⟨d.name, {}, d.fields.map Param.bare, {}⟩
  | .absent id => .absent id
  | .hollow _ k => .hollow {} k

/-- A file without its spans. -/
def File.bare (f : File) : File := ⟨{}, f.items.map Item.bare⟩

namespace Grammar

section Lexemes

variable {l m : Lexeme} {k : Kind}

theorem kind_of_bare (same : m.bare? = l.bare?) : m.kind = l.kind := by
  cases m with
  | token t =>
    cases l with
    | token u =>
      have tokens : t.bare = u.bare := Option.some.inj same
      have kinds : t.bare.kind = u.bare.kind := by rw [tokens]
      exact kinds
    | error => cases same
  | error =>
    cases l with
    | token => cases same
    | error => rfl

theorem kind_eq (same : m.bare? = l.bare?) (isKind : l.kind = k) : m.kind = k := (kind_of_bare same).trans isKind

theorem content_of_bare (same : m.bare? = l.bare?) (known : l.kind ≠ .invalid) :
    m.text = l.text ∧ m.toToken.payload = l.toToken.payload := by
  cases m with
  | token t =>
    cases l with
    | token u =>
      have tokens : t.bare = u.bare := Option.some.inj same
      have contents : t.bare.text = u.bare.text ∧ t.bare.payload = u.bare.payload := by rw [tokens]; exact ⟨rfl, rfl⟩
      exact contents
    | error => cases same
  | error =>
    cases l with
    | token => cases same
    | error => exact absurd rfl known

theorem text_eq (same : m.bare? = l.bare?) (isName : l.kind = .ident) : m.text = l.text :=
  (content_of_bare same (by rw [isName]; decide)).1

theorem annotation_relocate {ref : TypeRef} (same : m.bare? = l.bare?) (isType : annotation? l = some ref) :
    ∃ ref', annotation? m = some ref' ∧ ref'.bare = ref.bare := by
  unfold annotation? at isType ⊢
  rw [kind_of_bare same]
  split at isType <;> cases isType
  · exact ⟨_, rfl, rfl⟩
  · exact ⟨_, rfl, rfl⟩
  · next isName =>
    rw [text_eq same isName]
    exact ⟨_, rfl, rfl⟩

theorem leaf_relocate {e : Expr} (same : m.bare? = l.bare?) (isLeaf : leaf? l = some e) :
    ∃ e', leaf? m = some e' ∧ e'.bare = e.bare := by
  have content := content_of_bare same fun invalid => by simp [leaf?, invalid] at isLeaf
  unfold leaf? at isLeaf ⊢
  rw [kind_of_bare same, content.1, content.2]
  split at isLeaf <;> cases isLeaf <;> exact ⟨_, rfl, rfl⟩

end Lexemes

theorem Target.of_bare {e e' : Expr} (target : Target e) (same : e'.bare = e.bare) : Target e' := by
  cases target <;> cases e' <;> simp only [Expr.bare, reduceCtorEq] at same
  · exact .variable
  · exact .field

mutual

theorem Expression.relocate {least : Nat} {ts : List Lexeme} {e : Expr} : Expression least ts e →
    ∀ us, us.map Lexeme.bare? = ts.map Lexeme.bare? → ∃ e', Expression least us e' ∧ e'.bare = e.bare
  | .operand inner, us, same => by
    obtain ⟨e', derived, bare⟩ := inner.relocate us same
    exact ⟨e', .operand derived, bare⟩
  | .binary lhs isOp bound rhs, us, same => by
    simp only [List.map_append, List.map_cons, List.map_eq_append_iff, List.map_eq_cons_iff] at same
    obtain ⟨ls, _, rfl, left, sign, rs, rfl, middle, right⟩ := same
    obtain ⟨a, first, bare⟩ := lhs.relocate ls left
    obtain ⟨b, second, bare'⟩ := rhs.relocate rs right
    rw [← kind_of_bare middle] at isOp
    exact ⟨_, .binary first isOp bound second, by simp only [Expr.bare, bare, bare']⟩
  | .assign lhs isTarget isAssign bound rhs, us, same => by
    simp only [List.map_append, List.map_cons, List.map_eq_append_iff, List.map_eq_cons_iff] at same
    obtain ⟨ls, _, rfl, left, sign, rs, rfl, middle, right⟩ := same
    obtain ⟨a, first, bare⟩ := lhs.relocate ls left
    obtain ⟨b, second, bare'⟩ := rhs.relocate rs right
    exact ⟨_, .assign first (isTarget.of_bare bare) (kind_eq middle isAssign) bound second,
      by simp only [Expr.bare, bare, bare']⟩

theorem Prefixed.relocate {ts : List Lexeme} {e : Expr} : Prefixed ts e →
    ∀ us, us.map Lexeme.bare? = ts.map Lexeme.bare? → ∃ e', Prefixed us e' ∧ e'.bare = e.bare
  | .plain inner, us, same => by
    obtain ⟨e', derived, bare⟩ := inner.relocate us same
    exact ⟨e', .plain derived, bare⟩
  | .sign isOp inner, us, same => by
    simp only [List.map_cons, List.map_eq_cons_iff] at same
    obtain ⟨sign, rs, rfl, first, rest⟩ := same
    obtain ⟨e', derived, bare⟩ := inner.relocate rs rest
    rw [← kind_of_bare first] at isOp
    exact ⟨_, .sign isOp derived, by simp only [Expr.bare, bare]⟩

theorem Postfixed.relocate {ts : List Lexeme} {e : Expr} : Postfixed ts e →
    ∀ us, us.map Lexeme.bare? = ts.map Lexeme.bare? → ∃ e', Postfixed us e' ∧ e'.bare = e.bare
  | .plain inner, us, same => by
    obtain ⟨e', derived, bare⟩ := inner.relocate us same
    exact ⟨e', .plain derived, bare⟩
  | .call callee opens inner closes, us, same => by
    simp only [List.map_append, List.map_cons, List.map_nil, List.map_eq_append_iff, List.map_eq_cons_iff,
      List.map_eq_nil_iff] at same
    obtain ⟨fs, _, rfl, head, opening, _, rfl, first, as, _, rfl, middle, closing, _, rfl, last, rfl⟩ := same
    obtain ⟨f, derived, bare⟩ := callee.relocate fs head
    obtain ⟨args, derived', bare'⟩ := inner.relocate as middle
    exact ⟨_, .call derived (kind_eq first opens) derived' (kind_eq last closes), by simp only [Expr.bare, bare, bare']⟩
  | .member target isPoint isName, us, same => by
    simp only [List.map_append, List.map_cons, List.map_nil, List.map_eq_append_iff, List.map_eq_cons_iff,
      List.map_eq_nil_iff] at same
    obtain ⟨ts, _, rfl, head, point, _, rfl, first, field, _, rfl, second, rfl⟩ := same
    obtain ⟨e', derived, bare⟩ := target.relocate ts head
    exact ⟨_, .member derived (kind_eq first isPoint) (kind_eq second isName),
      by simp only [Expr.bare, bare, text_eq second isName]⟩

theorem Primary.relocate {ts : List Lexeme} {e : Expr} : Primary ts e →
    ∀ us, us.map Lexeme.bare? = ts.map Lexeme.bare? → ∃ e', Primary us e' ∧ e'.bare = e.bare
  | .leaf isLeaf, us, same => by
    simp only [List.map_cons, List.map_nil, List.map_eq_cons_iff, List.map_eq_nil_iff] at same
    obtain ⟨m, _, rfl, first, rfl⟩ := same
    obtain ⟨e', found, bare⟩ := leaf_relocate first isLeaf
    exact ⟨e', .leaf found, bare⟩
  | .group opens inner closes, us, same => by
    simp only [List.map_append, List.map_cons, List.map_nil, List.map_eq_append_iff, List.map_eq_cons_iff,
      List.map_eq_nil_iff] at same
    obtain ⟨opening, _, rfl, first, ts, _, rfl, middle, closing, _, rfl, last, rfl⟩ := same
    obtain ⟨e', derived, bare⟩ := inner.relocate ts middle
    exact ⟨_, .group (kind_eq first opens) derived (kind_eq last closes), by simp only [Expr.bare, bare]⟩
  | .literal isName opens inner closes, us, same => by
    simp only [List.map_append, List.map_cons, List.map_nil, List.map_eq_append_iff, List.map_eq_cons_iff,
      List.map_eq_nil_iff] at same
    obtain ⟨name, _, rfl, head, opening, _, rfl, first, ts, _, rfl, middle, closing, _, rfl, last, rfl⟩ := same
    obtain ⟨fields, derived, bare⟩ := inner.relocate ts middle
    exact ⟨_, .literal (kind_eq head isName) (kind_eq first opens) derived (kind_eq last closes),
      by simp only [Expr.bare, bare, text_eq head isName]⟩

theorem Arguments.relocate {ts : List Lexeme} {es : List Expr} : Arguments ts es →
    ∀ us, us.map Lexeme.bare? = ts.map Lexeme.bare? → ∃ es', Arguments us es' ∧ bareExprs es' = bareExprs es
  | .none, us, same => by
    rw [List.map_nil, List.map_eq_nil_iff] at same
    subst same
    exact ⟨[], .none, rfl⟩
  | .last arg, us, same => by
    obtain ⟨e', derived, bare⟩ := arg.relocate us same
    exact ⟨[e'], .last derived, by simp only [bareExprs, bare]⟩
  | .more arg isComma rest, us, same => by
    simp only [List.map_append, List.map_cons, List.map_eq_append_iff, List.map_eq_cons_iff] at same
    obtain ⟨ts, _, rfl, head, comma, vs, rfl, middle, tail⟩ := same
    obtain ⟨e', derived, bare⟩ := arg.relocate ts head
    obtain ⟨es', derived', bare'⟩ := rest.relocate vs tail
    exact ⟨e' :: es', .more derived (kind_eq middle isComma) derived', by simp only [bareExprs, bare, bare']⟩

theorem Inits.relocate {ts : List Lexeme} {fs : List FieldInit} : Inits ts fs →
    ∀ us, us.map Lexeme.bare? = ts.map Lexeme.bare? → ∃ fs', Inits us fs' ∧ bareFields fs' = bareFields fs
  | .none, us, same => by
    rw [List.map_nil, List.map_eq_nil_iff] at same
    subst same
    exact ⟨[], .none, rfl⟩
  | .last isName isColon value, us, same => by
    simp only [List.map_cons, List.map_eq_cons_iff] at same
    obtain ⟨name, _, rfl, head, colon, ts, rfl, second, rest⟩ := same
    obtain ⟨e', derived, bare⟩ := value.relocate ts rest
    exact ⟨_, .last (kind_eq head isName) (kind_eq second isColon) derived,
      by simp only [bareFields, FieldInit.bare, bare, text_eq head isName]⟩
  | .more isName isColon value isComma rest, us, same => by
    simp only [List.map_append, List.map_cons, List.map_eq_append_iff, List.map_eq_cons_iff] at same
    obtain ⟨name, _, rfl, head, colon, _, rfl, second, ts, _, rfl, middle, comma, vs, rfl, third, tail⟩ := same
    obtain ⟨e', derived, bare⟩ := value.relocate ts middle
    obtain ⟨fs', derived', bare'⟩ := rest.relocate vs tail
    exact ⟨_, .more (kind_eq head isName) (kind_eq second isColon) derived (kind_eq third isComma) derived',
      by simp only [bareFields, FieldInit.bare, bare, bare', text_eq head isName]⟩

end

/-! ## Statements -/

theorem Separator.relocate {closed : Bool} {sep : List Lexeme} : Separator closed sep →
    ∀ us, us.map Lexeme.bare? = sep.map Lexeme.bare? → Separator closed us
  | .closed, us, same => by
    rw [List.map_nil, List.map_eq_nil_iff] at same
    subst same
    exact .closed
  | .line isBreak, us, same => by
    simp only [List.map_cons, List.map_nil, List.map_eq_cons_iff, List.map_eq_nil_iff] at same
    obtain ⟨m, _, rfl, first, rfl⟩ := same
    exact .line (kind_eq first isBreak)

theorem LastSeparator.relocate {closed : Bool} {sep : List Lexeme} : LastSeparator closed sep →
    ∀ us, us.map Lexeme.bare? = sep.map Lexeme.bare? → LastSeparator closed us
  | .none, us, same => by
    rw [List.map_nil, List.map_eq_nil_iff] at same
    subst same
    exact .none
  | .line isBreak, us, same => by
    simp only [List.map_cons, List.map_nil, List.map_eq_cons_iff, List.map_eq_nil_iff] at same
    obtain ⟨m, _, rfl, first, rfl⟩ := same
    exact .line (kind_eq first isBreak)

theorem cond_of_bare {s : Stmt} {span : Span} {test : Expr} {yes : Body} {no : Option Body}
    (same : s.bare = (Stmt.cond span test yes no).bare) : ∃ span' test' yes' no', s = .cond span' test' yes' no' := by
  cases s <;> simp only [Stmt.bare, reduceCtorEq] at same
  exact ⟨_, _, _, _, rfl⟩

mutual

theorem Statement.relocate {nearest : Bool} {ts : List Lexeme} {s : Stmt} {closed opened : Bool} :
    Statement nearest ts s closed opened → ∀ us, us.map Lexeme.bare? = ts.map Lexeme.bare? →
      ∃ s', Statement nearest us s' closed opened ∧ s'.bare = s.bare
  | .only isIf cond isColon first, us, same => by
    simp only [List.map_append, List.map_cons, List.map_eq_append_iff, List.map_eq_cons_iff] at same
    obtain ⟨head, _, rfl, same₁, ts, _, rfl, same₂, colon, bs, rfl, same₃, same₄⟩ := same
    obtain ⟨test, derived, bare⟩ := cond.relocate ts same₂
    obtain ⟨yes, derived', bare'⟩ := first.relocate bs same₄
    exact ⟨_, .only (kind_eq same₁ isIf) derived (kind_eq same₃ isColon) derived',
      by simp only [Stmt.bare, bareElse, bare, bare']⟩
  | .both isIf cond isColon first free isElse isColon' second, us, same => by
    simp only [List.map_append, List.map_cons, List.map_eq_append_iff, List.map_eq_cons_iff] at same
    obtain ⟨head, _, rfl, same₁, ts, _, rfl, same₂, colon, _, rfl, same₃, bs, _, rfl, same₄, other, _, rfl, same₅, colon',
      cs, rfl, same₆, same₇⟩ := same
    obtain ⟨test, derived, bare⟩ := cond.relocate ts same₂
    obtain ⟨yes, derived', bare'⟩ := first.relocate bs same₄
    obtain ⟨no, derived'', bare''⟩ := second.relocate cs same₇
    exact ⟨_, .both (kind_eq same₁ isIf) derived (kind_eq same₃ isColon) derived' free (kind_eq same₅ isElse)
      (kind_eq same₆ isColon') derived'', by simp only [Stmt.bare, bareElse, bare, bare', bare'']⟩
  | .chain isIf cond isColon first free isElse second, us, same => by
    simp only [List.map_append, List.map_cons, List.map_eq_append_iff, List.map_eq_cons_iff] at same
    obtain ⟨head, _, rfl, same₁, ts, _, rfl, same₂, colon, _, rfl, same₃, bs, _, rfl, same₄, other, cs, rfl, same₅,
      same₆⟩ := same
    obtain ⟨test, derived, bare⟩ := cond.relocate ts same₂
    obtain ⟨yes, derived', bare'⟩ := first.relocate bs same₄
    obtain ⟨s', derived'', bare''⟩ := second.relocate cs same₆
    obtain ⟨_, _, _, _, rfl⟩ := cond_of_bare bare''
    exact ⟨_, .chain (kind_eq same₁ isIf) derived (kind_eq same₃ isColon) derived' free (kind_eq same₅ isElse) derived'',
      by rw [Stmt.bare, Stmt.bare, bareElse, bareElse, Body.bare, Body.bare, bareStmts, bareStmts, bare, bare', bare'']; rfl⟩
  | .bare isReturn, us, same => by
    simp only [List.map_cons, List.map_nil, List.map_eq_cons_iff, List.map_eq_nil_iff] at same
    obtain ⟨head, _, rfl, same₁, rfl⟩ := same
    exact ⟨_, .bare (kind_eq same₁ isReturn), rfl⟩
  | .value isReturn inner, us, same => by
    simp only [List.map_cons, List.map_eq_cons_iff] at same
    obtain ⟨head, ts, rfl, same₁, same₂⟩ := same
    obtain ⟨e', derived, bare⟩ := inner.relocate ts same₂
    exact ⟨_, .value (kind_eq same₁ isReturn) derived, by simp only [Stmt.bare, Option.map_some, bare]⟩
  | .leave isBreak, us, same => by
    simp only [List.map_cons, List.map_nil, List.map_eq_cons_iff, List.map_eq_nil_iff] at same
    obtain ⟨head, _, rfl, same₁, rfl⟩ := same
    exact ⟨_, .leave (kind_eq same₁ isBreak), rfl⟩
  | .loop isLoop isColon inner, us, same => by
    simp only [List.map_cons, List.map_eq_cons_iff] at same
    obtain ⟨head, _, rfl, same₁, colon, bs, rfl, same₂, same₃⟩ := same
    obtain ⟨body, derived, bare⟩ := inner.relocate bs same₃
    exact ⟨_, .loop (kind_eq same₁ isLoop) (kind_eq same₂ isColon) derived, by simp only [Stmt.bare, bare]⟩
  | .bind isLet isName isColon isType isAssign inner, us, same => by
    simp only [List.map_cons, List.map_eq_cons_iff] at same
    obtain ⟨head, _, rfl, same₁, name, _, rfl, same₂, colon, _, rfl, same₃, type, _, rfl, same₄, sign, ts, rfl, same₅,
      same₆⟩ := same
    obtain ⟨ref, found, bare⟩ := annotation_relocate same₄ isType
    obtain ⟨e', derived, bare'⟩ := inner.relocate ts same₆
    exact ⟨_, .bind (kind_eq same₁ isLet) (kind_eq same₂ isName) (kind_eq same₃ isColon) found (kind_eq same₅ isAssign)
      derived, by simp only [Stmt.bare, bare, bare', text_eq same₂ isName]⟩
  | .empty isUnderscore, us, same => by
    simp only [List.map_cons, List.map_nil, List.map_eq_cons_iff, List.map_eq_nil_iff] at same
    obtain ⟨head, _, rfl, same₁, rfl⟩ := same
    exact ⟨_, .empty (kind_eq same₁ isUnderscore), rfl⟩
  | .expr inner, us, same => by
    obtain ⟨e', derived, bare⟩ := inner.relocate us same
    exact ⟨_, .expr derived, by simp only [Stmt.bare, bare]⟩

theorem Block.relocate {nearest : Bool} {ts : List Lexeme} {b : Body} {closed opened : Bool} :
    Block nearest ts b closed opened → ∀ us, us.map Lexeme.bare? = ts.map Lexeme.bare? →
      ∃ b', Block nearest us b' closed opened ∧ b'.bare = b.bare
  | .line inner, us, same => by
    obtain ⟨s', derived, bare⟩ := inner.relocate us same
    exact ⟨_, .line derived, by simp only [Body.bare, bareStmts, bare]⟩
  | .indented isBreak isIndent inner, us, same => by
    simp only [List.map_cons, List.map_eq_cons_iff] at same
    obtain ⟨first, _, rfl, same₁, second, ts, rfl, same₂, same₃⟩ := same
    obtain ⟨ss', derived, bare⟩ := inner.relocate ts same₃
    exact ⟨_, .indented (kind_eq same₁ isBreak) (kind_eq same₂ isIndent) derived, by simp only [Body.bare, bare]⟩

theorem Lines.relocate {nearest : Bool} {ts : List Lexeme} {ss : List Stmt} : Lines nearest ts ss →
    ∀ us, us.map Lexeme.bare? = ts.map Lexeme.bare? → ∃ ss', Lines nearest us ss' ∧ bareStmts ss' = bareStmts ss
  | .last inner ends isDedent, us, same => by
    simp only [List.map_append, List.map_cons, List.map_nil, List.map_eq_append_iff, List.map_eq_cons_iff,
      List.map_eq_nil_iff] at same
    obtain ⟨ts, _, rfl, same₁, sep, _, rfl, same₂, stop, _, rfl, same₃, rfl⟩ := same
    obtain ⟨s', derived, bare⟩ := inner.relocate ts same₁
    exact ⟨_, .last derived (ends.relocate sep same₂) (kind_eq same₃ isDedent), by simp only [bareStmts, bare]⟩
  | .more inner ends rest, us, same => by
    simp only [List.map_append, List.map_eq_append_iff] at same
    obtain ⟨ts, _, rfl, same₁, sep, vs, rfl, same₂, same₃⟩ := same
    obtain ⟨s', derived, bare⟩ := inner.relocate ts same₁
    obtain ⟨ss', derived', bare'⟩ := rest.relocate vs same₃
    exact ⟨_, .more derived (ends.relocate sep same₂) derived', by simp only [bareStmts, bare, bare']⟩

end

/-! ## Declarations -/

theorem Field.relocate {ts : List Lexeme} {p : Param} (derived : Field ts p) {us : List Lexeme}
    (same : us.map Lexeme.bare? = ts.map Lexeme.bare?) : ∃ p', Field us p' ∧ p'.bare = p.bare := by
  obtain ⟨isName, isColon, isType⟩ := derived
  simp only [List.map_cons, List.map_nil, List.map_eq_cons_iff, List.map_eq_nil_iff] at same
  obtain ⟨name, _, rfl, same₁, colon, _, rfl, same₂, type, _, rfl, same₃, rfl⟩ := same
  obtain ⟨ref, found, bare⟩ := annotation_relocate same₃ isType
  exact ⟨_, .mk (kind_eq same₁ isName) (kind_eq same₂ isColon) found,
    by simp only [Param.bare, bare, text_eq same₁ isName]⟩

theorem Params.relocate {ts : List Lexeme} {ps : List Param} : Params ts ps →
    ∀ us, us.map Lexeme.bare? = ts.map Lexeme.bare? → ∃ ps', Params us ps' ∧ ps'.map Param.bare = ps.map Param.bare
  | .last field, us, same => by
    obtain ⟨p, derived, bare⟩ := field.relocate same
    exact ⟨[p], .last derived, by rw [List.map_singleton, List.map_singleton, bare]⟩
  | .more field isComma rest, us, same => by
    simp only [List.map_append, List.map_cons, List.map_eq_append_iff, List.map_eq_cons_iff] at same
    obtain ⟨ts, _, rfl, same₁, comma, vs, rfl, same₂, same₃⟩ := same
    obtain ⟨p, derived, bare⟩ := field.relocate same₁
    obtain ⟨ps, derived', bare'⟩ := rest.relocate vs same₃
    exact ⟨p :: ps, .more derived (kind_eq same₂ isComma) derived', by rw [List.map_cons, List.map_cons, bare, bare']⟩

theorem ParamList.relocate {ts : List Lexeme} {ps : List Param} : ParamList ts ps →
    ∀ us, us.map Lexeme.bare? = ts.map Lexeme.bare? → ∃ ps', ParamList us ps' ∧ ps'.map Param.bare = ps.map Param.bare
  | .none, us, same => by
    rw [List.map_nil, List.map_eq_nil_iff] at same
    subst same
    exact ⟨[], .none, rfl⟩
  | .some params, us, same => by
    obtain ⟨ps, derived, bare⟩ := params.relocate us same
    exact ⟨ps, .some derived, bare⟩

theorem BracedFields.relocate {ts : List Lexeme} {ps : List Param} : BracedFields ts ps →
    ∀ us, us.map Lexeme.bare? = ts.map Lexeme.bare? → ∃ ps', BracedFields us ps' ∧ ps'.map Param.bare = ps.map Param.bare
  | .none, us, same => by
    rw [List.map_nil, List.map_eq_nil_iff] at same
    subst same
    exact ⟨[], .none, rfl⟩
  | .last field, us, same => by
    obtain ⟨p, derived, bare⟩ := field.relocate same
    exact ⟨[p], .last derived, by rw [List.map_singleton, List.map_singleton, bare]⟩
  | .more field isComma rest, us, same => by
    simp only [List.map_append, List.map_cons, List.map_eq_append_iff, List.map_eq_cons_iff] at same
    obtain ⟨ts, _, rfl, same₁, comma, vs, rfl, same₂, same₃⟩ := same
    obtain ⟨p, derived, bare⟩ := field.relocate same₁
    obtain ⟨ps, derived', bare'⟩ := rest.relocate vs same₃
    exact ⟨p :: ps, .more derived (kind_eq same₂ isComma) derived', by rw [List.map_cons, List.map_cons, bare, bare']⟩

theorem FieldLines.relocate {ts : List Lexeme} {ps : List Param} : FieldLines ts ps →
    ∀ us, us.map Lexeme.bare? = ts.map Lexeme.bare? → ∃ ps', FieldLines us ps' ∧ ps'.map Param.bare = ps.map Param.bare
  | .last field ends isDedent, us, same => by
    simp only [List.map_append, List.map_cons, List.map_nil, List.map_eq_append_iff, List.map_eq_cons_iff,
      List.map_eq_nil_iff] at same
    obtain ⟨ts, _, rfl, same₁, sep, _, rfl, same₂, stop, _, rfl, same₃, rfl⟩ := same
    obtain ⟨p, derived, bare⟩ := field.relocate same₁
    exact ⟨[p], .last derived (ends.relocate sep same₂) (kind_eq same₃ isDedent),
      by rw [List.map_singleton, List.map_singleton, bare]⟩
  | .more field ends rest, us, same => by
    simp only [List.map_append, List.map_eq_append_iff] at same
    obtain ⟨ts, _, rfl, same₁, sep, vs, rfl, same₂, same₃⟩ := same
    obtain ⟨p, derived, bare⟩ := field.relocate same₁
    obtain ⟨ps, derived', bare'⟩ := rest.relocate vs same₃
    exact ⟨p :: ps, .more derived (ends.relocate sep same₂) derived', by rw [List.map_cons, List.map_cons, bare, bare']⟩

theorem Declaration.relocate {nearest : Bool} {ts : List Lexeme} {i : Item} {closed : Bool}
    (derived : Declaration nearest ts i closed) {us : List Lexeme} (same : us.map Lexeme.bare? = ts.map Lexeme.bare?) :
    ∃ i', Declaration nearest us i' closed ∧ i'.bare = i.bare := by
  cases derived with
  | fn isFun isName opens fields closes isArrow isType isColon inner =>
    simp only [List.map_append, List.map_cons, List.map_eq_append_iff, List.map_eq_cons_iff] at same
    obtain ⟨head, _, rfl, same₁, name, _, rfl, same₂, opening, _, rfl, same₃, ps, _, rfl, same₄, closing, _, rfl, same₅,
      arrow, _, rfl, same₆, type, _, rfl, same₇, colon, bs, rfl, same₈, same₉⟩ := same
    obtain ⟨params, derived, bare⟩ := fields.relocate ps same₄
    obtain ⟨ref, found, bare'⟩ := annotation_relocate same₇ isType
    obtain ⟨body, derived', bare''⟩ := inner.relocate bs same₉
    exact ⟨_, .fn (kind_eq same₁ isFun) (kind_eq same₂ isName) (kind_eq same₃ opens) derived (kind_eq same₅ closes)
      (kind_eq same₆ isArrow) found (kind_eq same₈ isColon) derived',
      by simp only [Item.bare, bare, bare', bare'', text_eq same₂ isName]⟩
  | indented isType isName isColon isBreak isIndent fields =>
    simp only [List.map_cons, List.map_eq_cons_iff] at same
    obtain ⟨head, _, rfl, same₁, name, _, rfl, same₂, colon, _, rfl, same₃, first, _, rfl, same₄, second, ts, rfl, same₅,
      same₆⟩ := same
    obtain ⟨params, derived, bare⟩ := fields.relocate ts same₆
    exact ⟨_, .indented (kind_eq same₁ isType) (kind_eq same₂ isName) (kind_eq same₃ isColon) (kind_eq same₄ isBreak)
      (kind_eq same₅ isIndent) derived, by simp only [Item.bare, bare, text_eq same₂ isName]⟩
  | braced isType isName opens fields closes =>
    simp only [List.map_append, List.map_cons, List.map_nil, List.map_eq_append_iff, List.map_eq_cons_iff,
      List.map_eq_nil_iff] at same
    obtain ⟨head, _, rfl, same₁, name, _, rfl, same₂, opening, _, rfl, same₃, ts, _, rfl, same₄, closing, _, rfl, same₅,
      rfl⟩ := same
    obtain ⟨params, derived, bare⟩ := fields.relocate ts same₄
    exact ⟨_, .braced (kind_eq same₁ isType) (kind_eq same₂ isName) (kind_eq same₃ opens) derived (kind_eq same₅ closes),
      by simp only [Item.bare, bare, text_eq same₂ isName]⟩

/-- Lexemes that differ in their places only stand for declarations that differ in their spans only. -/
theorem Declarations.relocate {nearest : Bool} {ts : List Lexeme} {is : List Item} : Declarations nearest ts is →
    ∀ us, us.map Lexeme.bare? = ts.map Lexeme.bare? →
      ∃ is', Declarations nearest us is' ∧ is'.map Item.bare = is.map Item.bare
  | .none, us, same => by
    rw [List.map_nil, List.map_eq_nil_iff] at same
    subst same
    exact ⟨[], .none, rfl⟩
  | .skip isBreak rest, us, same => by
    simp only [List.map_cons, List.map_eq_cons_iff] at same
    obtain ⟨l, ts, rfl, same₁, same₂⟩ := same
    obtain ⟨is, derived, bare⟩ := rest.relocate ts same₂
    exact ⟨is, .skip (kind_eq same₁ isBreak) derived, bare⟩
  | .more inner ends rest, us, same => by
    simp only [List.map_append, List.map_eq_append_iff] at same
    obtain ⟨ts, _, rfl, same₁, sep, vs, rfl, same₂, same₃⟩ := same
    obtain ⟨i, derived, bare⟩ := inner.relocate same₁
    obtain ⟨is, derived', bare'⟩ := rest.relocate vs same₃
    refine ⟨i :: is, .more derived ?_ derived', by rw [List.map_cons, List.map_cons, bare, bare']⟩
    obtain separator | ⟨rfl, rfl⟩ := ends
    · exact .inl (separator.relocate sep same₂)
    · exact .inr ⟨List.map_eq_nil_iff.mp same₂, List.map_eq_nil_iff.mp same₃⟩

end Grammar
end PineLang
