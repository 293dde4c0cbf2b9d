import PineLang.Proofs.Choices
import PineLang.Proofs.PrecedenceGrammar

/-!
The kinds of tokens. Apart from those that carry line structure, the kinds of the tokens of a file follow from its
tree and the choices that the tree does not record (`Declarations.tells`), if no comma trails. So two spellings of
one tree have the same kinds exactly if they make the same choices (`solid_eq_iff`).
-/
namespace PineLang
open Grammar Parser

/-! ## Kinds of lexemes -/

/-- The kinds of the lexemes, without those that carry line structure. -/
def solid (ls : List Lexeme) : List Kind := (ls.map Lexeme.kind).filter fun k => !k.isLayout

section
variable {l m : Lexeme} {ts us : List Lexeme}

@[simp] theorem solid_nil : solid [] = [] := rfl

@[simp] theorem solid_append (ts us : List Lexeme) : solid (ts ++ us) = solid ts ++ solid us := by
  simp [solid]

theorem solid_cons (isSolid : l.kind.isLayout = false) (ts : List Lexeme) : solid (l :: ts) = l.kind :: solid ts := by
  simp [solid, isSolid]

theorem solid_layout (isLayout : l.kind.isLayout = true) (ts : List Lexeme) : solid (l :: ts) = solid ts := by
  simp [solid, isLayout]

/-- No comma stands before a closing bracket. -/
def NoTrailingComma (ls : List Lexeme) : Prop :=
  ∀ l m, [l, m] <:+: ls → l.kind = .comma → m.kind ≠ .rparen ∧ m.kind ≠ .rbrace

/-- No name is the word `self`, and no comma trails. -/
structure Plain (ls : List Lexeme) : Prop where
  names : ∀ l ∈ ls, l.kind = .ident → l.text ≠ "self"
  commas : NoTrailingComma ls

namespace Plain

theorem of_infix (plain : Plain ts) (part : us <:+: ts) : Plain us :=
  ⟨fun l member => plain.names l (part.subset member), fun l m adjacent => plain.commas l m (adjacent.trans part)⟩

theorem left (plain : Plain (ts ++ us)) : Plain ts := plain.of_infix (List.prefix_append ts us).isInfix

theorem right (plain : Plain (ts ++ us)) : Plain us := plain.of_infix (List.suffix_append ts us).isInfix

theorem tail (plain : Plain (l :: ts)) : Plain ts := plain.of_infix (List.suffix_cons l ts).isInfix

theorem not_closed (plain : Plain (l :: m :: ts)) (isComma : l.kind = .comma) : m.kind ≠ .rparen ∧ m.kind ≠ .rbrace :=
  plain.commas l m (List.prefix_append [l, m] ts).isInfix isComma

end Plain

end

/-! ## Expressions -/

/-- The kind of a literal. -/
def Literal.kind : Literal → Kind
  | bool b => if b then .kwTrue else .kwFalse
  | nil => .kwNil
  | int _ _ => .intLit
  | float _ _ => .floatLit
  | string _ => .stringLit
  | other _ _ => .invalid

/-- The kind of the token that stands at a place of an expression. -/
@[simp] def Sign.kind : Sign → Kind
  | .fixed k => k
  | .name _ => .ident
  | .variable n => if n = "self" then .kwSelf else .ident
  | .literal v => v.kind
  | .close k => k

/-- The token carries no line structure, and if it closes a list it is a parenthesis or a brace. -/
def Sign.IsSolid (s : Sign) : Prop := s.kind.isLayout = false ∧ ∀ k, s = .close k → k = .rparen ∨ k = .rbrace

theorem BinaryOp.kind_solid (op : BinaryOp) : op.kind.isLayout = false := by cases op <;> rfl

theorem UnaryOp.kind_solid (op : UnaryOp) : op.kind.isLayout = false := by cases op <;> rfl

theorem Literal.kind_solid (v : Literal) : v.kind.isLayout = false := by
  cases v with
  | bool b => cases b <;> rfl
  | _ => rfl

namespace Sign.IsSolid

theorem fixed {k : Kind} (isSolid : k.isLayout = false) : (Sign.fixed k).IsSolid := ⟨isSolid, by simp⟩

theorem name (n : String) : (Sign.name n).IsSolid := ⟨rfl, by simp⟩

theorem reference (n : String) : (Sign.variable n).IsSolid := by
  refine ⟨?_, by simp⟩
  rw [Sign.kind]
  split <;> rfl

theorem literal (v : Literal) : (Sign.literal v).IsSolid := ⟨v.kind_solid, by simp⟩

theorem close {k : Kind} (closes : k = .rparen ∨ k = .rbrace) : (Sign.close k).IsSolid := by
  refine ⟨?_, ?_⟩
  · obtain rfl | rfl := closes <;> rfl
  · intro k' same
    cases same
    exact closes

end Sign.IsSolid

theorem listed_solid {closing : Kind} (closes : closing = .rparen ∨ closing = .rbrace) : ∀ {parts : List (List Sign)},
    (∀ part ∈ parts, ∀ s ∈ part, s.IsSolid) → ∀ s ∈ listed closing parts, s.IsSolid
  | [], _ => List.forall_mem_singleton.mpr (.fixed (by obtain rfl | rfl := closes <;> rfl))
  | [part], each =>
    List.forall_mem_append.mpr ⟨each part (List.mem_cons_self ..), List.forall_mem_singleton.mpr (.close closes)⟩
  | part :: other :: parts, each => by
    rw [List.forall_mem_cons] at each
    exact List.forall_mem_append.mpr ⟨each.1, List.forall_mem_cons.mpr ⟨.fixed rfl, listed_solid closes each.2⟩⟩

mutual

theorem Expr.yield_solid : ∀ e : Expr, ∀ s ∈ e.yield, s.IsSolid
  | .ident _ n => List.forall_mem_singleton.mpr (.reference n)
  | .lit _ v => List.forall_mem_singleton.mpr (.literal v)
  | .assign _ a b => List.forall_mem_append.mpr
    ⟨a.yield_solid, List.forall_mem_cons.mpr ⟨.fixed rfl, b.yield_solid⟩⟩
  | .call _ f args => List.forall_mem_append.mpr
    ⟨f.yield_solid, List.forall_mem_cons.mpr ⟨.fixed rfl, listed_solid (.inl rfl) (exprYields_solid args)⟩⟩
  | .member _ t f _ => List.forall_mem_append.mpr ⟨t.yield_solid,
    List.forall_mem_cons.mpr ⟨.fixed rfl, List.forall_mem_singleton.mpr (.name f)⟩⟩
  | .unary _ op x => List.forall_mem_cons.mpr ⟨.fixed op.kind_solid, x.yield_solid⟩
  | .binary _ op a b => List.forall_mem_append.mpr
    ⟨a.yield_solid, List.forall_mem_cons.mpr ⟨.fixed op.kind_solid, b.yield_solid⟩⟩
  | .group _ x => List.forall_mem_cons.mpr ⟨.fixed rfl,
    List.forall_mem_append.mpr ⟨x.yield_solid, List.forall_mem_singleton.mpr (.fixed rfl)⟩⟩
  | .structLit _ n _ fs => List.forall_mem_cons.mpr ⟨.name n,
    List.forall_mem_cons.mpr ⟨.fixed rfl, listed_solid (.inr rfl) (fieldYields_solid fs)⟩⟩
  | .absent _ | .hollow _ _ => List.forall_mem_nil _

theorem exprYields_solid : ∀ es : List Expr, ∀ part ∈ exprYields es, ∀ s ∈ part, s.IsSolid
  | [] => List.forall_mem_nil _
  | e :: es => List.forall_mem_cons.mpr ⟨e.yield_solid, exprYields_solid es⟩

theorem FieldInit.yield_solid : ∀ f : FieldInit, ∀ s ∈ f.yield, s.IsSolid
  | .mk n _ v => List.forall_mem_cons.mpr
    ⟨.name n, List.forall_mem_cons.mpr ⟨.fixed rfl, v.yield_solid⟩⟩

theorem fieldYields_solid : ∀ fs : List FieldInit, ∀ part ∈ fieldYields fs, ∀ s ∈ part, s.IsSolid
  | [] => List.forall_mem_nil _
  | f :: fs => List.forall_mem_cons.mpr ⟨f.yield_solid, fieldYields_solid fs⟩

end

theorem Sign.IsAt.kind_eq {s : Sign} {l : Lexeme} (here : s.IsAt l) (named : l.kind = .ident → l.text ≠ "self") :
    l.kind = s.kind := by
  cases s with
  | fixed k => exact here
  | name n => exact here.1
  | «variable» n =>
    obtain ⟨isName, rfl⟩ | ⟨isSelf, rfl⟩ := here
    · rw [isName, Sign.kind, if_neg (named isName)]
    · rw [isSelf, Sign.kind, if_pos rfl]
  | literal v =>
    cases v with
    | bool b => exact here
    | nil => exact here
    | int => exact here.1
    | float => exact here.1
    | string => exact here.1
    | other => exact here.elim
  | close k => exact here

/-- Plain lexemes have the kinds of what they spell. -/
theorem Spelled.solid_eq {ss : List Sign} {ts : List Lexeme} (spelled : Spelled ss ts)
    (known : ∀ s ∈ ss, s.IsSolid) (plain : Plain ts) : solid ts = ss.map Sign.kind := by
  induction spelled with
  | nil => rfl
  | @sign s l ss ls here _ ih =>
    rw [List.forall_mem_cons] at known
    have same := here.kind_eq (plain.names l (List.mem_cons_self ..))
    rw [solid_cons (same ▸ known.1.1), same, ih known.2 plain.tail, List.map_cons]
  | @trailing k comma l ss ls isComma here _ ih =>
    have open' := plain.not_closed isComma
    rw [here] at open'
    obtain rfl | rfl := (known _ (List.mem_cons_self ..)).2 k rfl
    · exact absurd rfl open'.1
    · exact absurd rfl open'.2

/-- The kinds of the tokens of an expression. -/
def Expr.kinds (e : Expr) : List Kind := e.yield.map Sign.kind

theorem Grammar.Expression.solid_eq {least : Nat} {ts : List Lexeme} {e : Expr} (derived : Expression least ts e)
    (plain : Plain ts) : solid ts = e.kinds :=
  derived.grouped.1.solid_eq e.yield_solid plain

mutual

theorem Expr.yield_bare : ∀ e : Expr, e.bare.yield = e.yield
  | .ident _ _ | .lit _ _ | .absent _ | .hollow _ _ => rfl
  | .assign _ a b => by simp only [Expr.bare, Expr.yield, a.yield_bare, b.yield_bare]
  | .call _ f args => by simp only [Expr.bare, Expr.yield, f.yield_bare, exprYields_bare args]
  | .member _ t _ _ => by simp only [Expr.bare, Expr.yield, t.yield_bare]
  | .unary _ _ x => by simp only [Expr.bare, Expr.yield, x.yield_bare]
  | .binary _ _ a b => by simp only [Expr.bare, Expr.yield, a.yield_bare, b.yield_bare]
  | .group _ x => by simp only [Expr.bare, Expr.yield, x.yield_bare]
  | .structLit _ _ _ fs => by simp only [Expr.bare, Expr.yield, fieldYields_bare fs]

theorem exprYields_bare : ∀ es : List Expr, exprYields (bareExprs es) = exprYields es
  | [] => rfl
  | e :: es => by simp only [bareExprs, exprYields, e.yield_bare, exprYields_bare es]

theorem FieldInit.yield_bare : ∀ f : FieldInit, f.bare.yield = f.yield
  | .mk _ _ v => by simp only [FieldInit.bare, FieldInit.yield, v.yield_bare]

theorem fieldYields_bare : ∀ fs : List FieldInit, fieldYields (bareFields fs) = fieldYields fs
  | [] => rfl
  | f :: fs => by simp only [bareFields, fieldYields, f.yield_bare, fieldYields_bare fs]

end

theorem Expr.kinds_bare (e : Expr) : e.bare.kinds = e.kinds := by rw [Expr.kinds, e.yield_bare, Expr.kinds]

/-! ## Types and fields -/

/-- The kind of the token that names a type. -/
def Ty.kind : Ty → Kind
  | unit => .underscore
  | bool => .kwBool
  | i8 => .kwI8
  | i32 => .kwI32
  | i64 => .kwI64
  | u8 => .kwU8
  | u32 => .kwU32
  | u64 => .kwU64
  | f32 => .kwF32
  | f64 => .kwF64
  | str => .kwStr
  | struct _ => .ident
  | other _ => .invalid

theorem Ty.kind_solid (t : Ty) : t.kind.isLayout = false := by cases t <;> rfl

theorem Grammar.kind_of_annotation {l : Lexeme} {ref : TypeRef} (isType : annotation? l = some ref) :
    l.kind = ref.ty.kind := by
  unfold annotation? at isType
  split at isType
  · next ty primitive =>
    cases isType
    generalize l.kind = k at primitive
    cases k <;> cases primitive <;> rfl
  · next isUnit =>
    cases isType
    exact isUnit
  · next isName =>
    cases isType
    exact isName
  · cases isType

/-- The kinds of the tokens of a parameter or a field. -/
def Param.kinds (p : Param) : List Kind := [.ident, .colon, p.type.ty.kind]

/-- The kinds of the tokens of parameters with commas between them. -/
def listKinds : List Param → List Kind
  | [] => []
  | [p] => p.kinds
  | p :: ps => p.kinds ++ .comma :: listKinds ps

namespace Grammar
variable {ts : List Lexeme} {ps : List Param}

theorem Field.solid_eq {p : Param} (derived : Field ts p) : solid ts = p.kinds := by
  cases derived with
  | mk isName isColon isType =>
    have same := kind_of_annotation isType
    rw [solid_cons (by rw [isName]; rfl), solid_cons (by rw [isColon]; rfl), solid_cons (same ▸ Ty.kind_solid _),
      isName, isColon, same]
    rfl

theorem Params.nonempty (derived : Params ts ps) : ps ≠ [] := by
  cases derived <;> exact List.cons_ne_nil _ _

theorem listKinds_cons (p : Param) (some : ps ≠ []) : listKinds (p :: ps) = p.kinds ++ .comma :: listKinds ps := by
  cases ps with
  | nil => exact absurd rfl some
  | cons => rfl

theorem Params.solid_eq (derived : Params ts ps) : solid ts = listKinds ps := by
  induction derived with
  | last field => exact field.solid_eq
  | more field isComma rest ih =>
    rw [solid_append, field.solid_eq, solid_cons (by rw [isComma]; rfl), isComma, ih, listKinds_cons _ rest.nonempty]

theorem ParamList.solid_eq (derived : ParamList ts ps) : solid ts = listKinds ps := by
  cases derived with
  | none => rfl
  | some params => exact params.solid_eq

theorem Separator.solid_eq {closed : Bool} (derived : Separator closed ts) : solid ts = [] := by
  cases derived with
  | closed => rfl
  | line isBreak => exact solid_layout (by rw [isBreak]; rfl) []

theorem LastSeparator.solid_eq {closed : Bool} (derived : LastSeparator closed ts) : solid ts = [] := by
  cases derived with
  | none => rfl
  | line isBreak => exact solid_layout (by rw [isBreak]; rfl) []

theorem FieldLines.solid_eq (derived : FieldLines ts ps) : solid ts = ps.flatMap Param.kinds := by
  induction derived with
  | last field ends isDedent =>
    rw [solid_append, solid_append, field.solid_eq, ends.solid_eq, solid_layout (by rw [isDedent]; rfl)]
    simp
  | more field ends rest ih =>
    rw [solid_append, solid_append, field.solid_eq, ends.solid_eq, ih]
    rfl

/-- Fields in braces, before the closing brace. -/
theorem BracedFields.solid_eq {closing : Lexeme} (derived : BracedFields ts ps) (closes : closing.kind = .rbrace)
    (plain : Plain (ts ++ [closing])) : solid ts = listKinds ps := by
  induction derived with
  | none => rfl
  | last field => exact field.solid_eq
  | @more ts us p ps comma field isComma rest ih =>
    rw [List.append_assoc, List.cons_append] at plain
    have some : ps ≠ [] := by
      rintro rfl
      cases rest
      exact (plain.right.not_closed isComma).2 closes
    rw [solid_append, field.solid_eq, solid_cons (by rw [isComma]; rfl), isComma, ih plain.right.tail,
      listKinds_cons _ some]

end Grammar

theorem listKinds_bare : ∀ ps : List Param, listKinds (ps.map Param.bare) = listKinds ps
  | [] => rfl
  | [_] => rfl
  | p :: q :: ps => congrArg (p.kinds ++ .comma :: ·) (listKinds_bare (q :: ps))

/-! ## Spellings -/

/-- How something is spelled: its kinds, and the choices that are left behind it. -/
abbrev Spelling := List Bool → List Kind × List Bool

namespace Spelling

/-- The same kinds whatever the choices. -/
def plain (ks : List Kind) : Spelling := fun cs => (ks, cs)

/-- One after the other. -/
def andThen (f g : Spelling) : Spelling := fun cs => ((f cs).1 ++ (g (f cs).2).1, (g (f cs).2).2)

/-- One or the other, by the first choice. -/
def choose (f g : Spelling) : Spelling := fun cs => if cs.headD false then f cs.tail else g cs.tail

end Spelling

mutual

/-- The spelling of a statement. -/
def Stmt.spelling : Stmt → Spelling
  | .block _ ss => stmtsSpelling ss
  | .expr _ x => .plain x.kinds
  | .cond _ t yes no => .andThen (.plain (.kwIf :: (t.kinds ++ [.colon]))) (.andThen yes.spelling (elseSpelling no))
  | .ret _ none => .plain [.kwReturn]
  | .ret _ (some x) => .plain (.kwReturn :: x.kinds)
  | .brk _ => .plain [.kwBreak]
  | .bind _ _ _ t v => .plain (.kwLet :: .ident :: .colon :: t.ty.kind :: .assign :: v.kinds)
  | .loop _ b => .andThen (.plain [.kwLoop, .colon]) b.spelling
  | .empty _ => .plain [.underscore]
  | .absent _ | .hollow _ _ => .plain []
termination_by structural s => s

/-- The spelling of a body. -/
def Body.spelling : Body → Spelling
  | .block _ ss => stmtsSpelling ss
  | .stray _ s => s.spelling
termination_by structural b => b

/-- The spelling of an `else`, if there is one, which may be joined to an `if`. -/
def elseSpelling : Option Body → Spelling
  | none => .plain []
  | some b => .choose (.andThen (.plain [.kwElse]) b.spelling) (.andThen (.plain [.kwElse, .colon]) b.spelling)
termination_by structural no => no

/-- The spelling of statements one after the other. -/
def stmtsSpelling : List Stmt → Spelling
  | [] => .plain []
  | s :: ss => .andThen s.spelling (stmtsSpelling ss)
termination_by structural ss => ss

end

/-- The spelling of a declaration. The fields of a struct stand in braces or one to a line. -/
def Item.spelling : Item → Spelling
  | .fn d => .andThen (.plain (.kwFun :: .ident :: .lparen ::
      (listKinds d.params ++ [.rparen, .arrow, d.ret.ty.kind, .colon]))) d.body.spelling
  | .struct d => .choose (.plain (.kwType :: .ident :: .lbrace :: (listKinds d.fields ++ [.rbrace])))
      (.plain (.kwType :: .ident :: .colon :: d.fields.flatMap Param.kinds))
  | .absent _ | .hollow _ _ => .plain []

/-- The spelling of declarations one after the other. -/
def itemsSpelling : List Item → Spelling
  | [] => .plain []
  | i :: is => .andThen i.spelling (itemsSpelling is)

mutual

theorem Stmt.spelling_bare : ∀ s : Stmt, s.bare.spelling = s.spelling
  | .block _ ss => stmtsSpelling_bare ss
  | .expr _ x => by simp only [Stmt.bare, Stmt.spelling, x.kinds_bare]
  | .cond _ t yes no => by
    simp only [Stmt.bare, Stmt.spelling, t.kinds_bare, yes.spelling_bare, elseSpelling_bare no]
  | .ret _ none => rfl
  | .ret _ (some x) => by simp only [Stmt.bare, Option.map_some, Stmt.spelling, x.kinds_bare]
  | .bind _ _ _ t v => by simp only [Stmt.bare, Stmt.spelling, v.kinds_bare, TypeRef.bare]
  | .loop _ b => by simp only [Stmt.bare, Stmt.spelling, b.spelling_bare]
  | .brk _ | .empty _ | .absent _ | .hollow _ _ => rfl

theorem Body.spelling_bare : ∀ b : Body, b.bare.spelling = b.spelling
  | .block _ ss => stmtsSpelling_bare ss
  | .stray _ s => s.spelling_bare

theorem elseSpelling_bare : ∀ no : Option Body, elseSpelling (bareElse no) = elseSpelling no
  | none => rfl
  | some b => by simp only [bareElse, elseSpelling, b.spelling_bare]

theorem stmtsSpelling_bare : ∀ ss : List Stmt, stmtsSpelling (bareStmts ss) = stmtsSpelling ss
  | [] => rfl
  | s :: ss => by simp only [bareStmts, stmtsSpelling, s.spelling_bare, stmtsSpelling_bare ss]

end

theorem Item.spelling_bare (i : Item) : i.bare.spelling = i.spelling := by
  cases i with
  | fn d => simp only [Item.bare, Item.spelling, listKinds_bare, TypeRef.bare, d.body.spelling_bare]
  | struct d =>
    have lines : (d.fields.map Param.bare).flatMap Param.kinds = d.fields.flatMap Param.kinds := List.flatMap_map ..
    simp only [Item.bare, Item.spelling, listKinds_bare, lines]
  | absent _ | hollow _ _ => rfl

theorem itemsSpelling_bare : ∀ is : List Item, itemsSpelling (is.map Item.bare) = itemsSpelling is
  | [] => rfl
  | i :: is => by simp only [List.map_cons, itemsSpelling, i.spelling_bare, itemsSpelling_bare is]

/-! ## What tokens tell -/

/-- The choices in kinds: an `else` before an `if`, and a struct with a brace behind its name. -/
def choicesOf : List Kind → List Bool
  | [] => []
  | k :: ks =>
    match k with
    | .kwElse => (ks.headD .eof == .kwIf) :: choicesOf ks
    | .kwType => ((ks.drop 1).headD .eof == .lbrace) :: choicesOf ks
    | _ => choicesOf ks

theorem choicesOf_quiet {k : Kind} (quiet : isQuiet k = true) (ks : List Kind) : choicesOf (k :: ks) = choicesOf ks := by
  cases k <;> first | rfl | cases quiet

/-- The tokens make the choices, and with these they are spelled so. Their kinds alone tell the choices. -/
structure Tells (ts : List Lexeme) (cs : List Bool) (f : Spelling) : Prop where
  chooses : Chooses ts cs
  spelled : ∀ left, f (cs ++ left) = (solid ts, left)
  told : ∀ more, choicesOf (solid ts ++ more) = cs ++ choicesOf more

namespace Tells
variable {ts us : List Lexeme} {cs ds : List Bool} {f g : Spelling} {l m n : Lexeme}

theorem append (first : Tells ts cs f) (second : Tells us ds g) : Tells (ts ++ us) (cs ++ ds) (.andThen f g) where
  chooses := first.chooses.append second.chooses
  spelled left := by rw [Spelling.andThen, List.append_assoc, first.spelled, second.spelled, solid_append]
  told more := by rw [solid_append, List.append_assoc, first.told, second.told, List.append_assoc]

theorem quiet {ks : List Kind} (silent : Quiet ts) (kinds : solid ts = ks) : Tells ts [] (.plain ks) := by
  refine ⟨.quiet silent, fun left => by rw [kinds]; rfl, fun more => ?_⟩
  have each : ∀ k ∈ solid ts, isQuiet k = true := by
    intro k member
    obtain ⟨l, inside, rfl⟩ := List.mem_map.mp (List.mem_filter.mp member).1
    exact silent l inside
  clear kinds
  generalize solid ts = ks at each
  induction ks with
  | nil => rfl
  | cons k ks ih =>
    rw [List.forall_mem_cons] at each
    rw [List.cons_append, choicesOf_quiet each.1, ih each.2]

/-- A token that makes no choice. -/
theorem token {k : Kind} (isKind : l.kind = k) (silent : isQuiet k = true) (isSolid : k.isLayout = false) :
    Tells [l] [] (.plain [k]) := by
  refine .quiet (by simp [quiet_of_kind isKind silent]) ?_
  rw [solid_cons (by rw [isKind, isSolid]), isKind, solid_nil]

/-- Tokens of line structure tell nothing. -/
theorem layout (tells : Tells ts cs f) (silent : Quiet us) (none : solid us = []) : Tells (ts ++ us) cs f := by
  refine ⟨?_, fun left => ?_, fun more => ?_⟩
  · have := tells.chooses.append (.quiet silent)
    rwa [List.append_nil] at this
  · rw [tells.spelled, solid_append, none, List.append_nil]
  · rw [solid_append, none, List.append_nil, tells.told]

theorem start (tells : Tells ts cs f) (silent : isQuiet l.kind = true) (none : l.kind.isLayout = true) :
    Tells (l :: ts) cs f := by
  refine ⟨.cons silent tells.chooses, fun left => ?_, fun more => ?_⟩
  · rw [tells.spelled, solid_layout none]
  · rw [solid_layout none, tells.told]

/-- An `else` before an `if`. -/
theorem chain (isElse : l.kind = .kwElse) (isIf : look ts = .kwIf) (tells : Tells ts cs f) :
    Tells (l :: ts) (true :: cs) (.choose (.andThen (.plain [.kwElse]) f) g) := by
  have isSolid : l.kind.isLayout = false := by rw [isElse]; rfl
  refine ⟨.chain isElse isIf tells.chooses, fun left => ?_, fun more => ?_⟩
  · have inner := tells.spelled left
    rw [solid_cons isSolid, isElse, List.cons_append]
    simp only [Spelling.choose, List.headD_cons, if_true, List.tail_cons, Spelling.andThen, Spelling.plain, inner]
    rfl
  · obtain ⟨m, us, rfl, isKind⟩ := cons_of_look isIf (by decide)
    have behind : solid (m :: us) = .kwIf :: solid us := by rw [solid_cons (by rw [isKind]; rfl), isKind]
    have others := tells.told more
    rw [behind] at others
    rw [solid_cons isSolid, isElse, behind]
    exact congrArg (true :: ·) others

/-- An `else` before a colon. -/
theorem block (isElse : l.kind = .kwElse) (isColon : m.kind = .colon) (tells : Tells ts cs f) :
    Tells (l :: m :: ts) (false :: cs) (.choose g (.andThen (.plain [.kwElse, .colon]) f)) := by
  have kinds : solid (l :: m :: ts) = .kwElse :: .colon :: solid ts := by
    rw [solid_cons (by rw [isElse]; rfl), solid_cons (by rw [isColon]; rfl), isElse, isColon]
  refine ⟨.block isElse isColon tells.chooses, fun left => ?_, fun more => ?_⟩
  · have inner := tells.spelled left
    rw [kinds, List.cons_append]
    simp only [Spelling.choose, List.headD_cons, Bool.false_eq_true, if_false, List.tail_cons, Spelling.andThen,
      Spelling.plain, inner]
    rfl
  · rw [kinds]
    exact congrArg (false :: ·) (tells.told more)

/-- A struct: a mark behind its name, and then nothing that makes a choice. -/
theorem struct {ks : List Kind} {b : Bool} (isType : l.kind = .kwType) (isName : n.kind = .ident)
    (isMark : m.kind = if b then .lbrace else .colon) (silent : Quiet ts)
    (kinds : solid ts = ks) (spelled : ∀ left, f (b :: left) = (.kwType :: .ident :: m.kind :: ks, left)) :
    Tells (l :: n :: m :: ts) [b] f := by
  have plain : isQuiet m.kind = true := by rw [isMark]; cases b <;> rfl
  have known : (m.kind == .lbrace) = b := by rw [isMark]; cases b <;> rfl
  have whole : solid (l :: n :: m :: ts) = .kwType :: .ident :: m.kind :: ks := by
    rw [solid_cons (by rw [isType]; rfl), solid_cons (by rw [isName]; rfl), solid_cons (by rw [isMark]; cases b <;> rfl),
      isType, isName, kinds]
  refine ⟨?_, fun left => by rw [whole, List.singleton_append, spelled], fun more => ?_⟩
  · rw [← known]
    exact .struct isType isName plain (.quiet silent)
  · have rest := (quiet silent kinds).told more
    rw [kinds, List.nil_append] at rest
    rw [whole]
    have inner : choicesOf (.ident :: m.kind :: (ks ++ more)) = choicesOf more := by
      rw [choicesOf_quiet rfl, choicesOf_quiet plain, rest]
    change (m.kind == .lbrace) :: choicesOf (.ident :: m.kind :: (ks ++ more)) = [b] ++ choicesOf more
    rw [inner, known]
    rfl

/-- The head of an `if`. -/
theorem condition {head colon : Lexeme} {test : Expr} (isIf : head.kind = .kwIf)
    (cond : Expression 0 ts test) (isColon : colon.kind = .colon) (plain : Plain ts) (others : Tells us cs f) :
    Tells (head :: (ts ++ colon :: us)) cs (.andThen (.plain (.kwIf :: (test.kinds ++ [.colon]))) f) := by
  have header : Tells (head :: (ts ++ [colon])) [] (.plain (.kwIf :: (test.kinds ++ [Kind.colon]))) := by
    refine .quiet (by simp [quiet_of_kind isIf rfl, cond.quiet, quiet_of_kind isColon rfl]) ?_
    rw [solid_cons (by rw [isIf]; rfl), solid_append, cond.solid_eq plain, solid_cons (by rw [isColon]; rfl), isIf, isColon,
      solid_nil]
  have whole := header.append others
  rwa [List.cons_append, List.append_assoc, List.singleton_append, List.nil_append] at whole

/-- The head of a function. -/
theorem signature {head name opening closing arrow type colon : Lexeme} {ps : List Param} {ref : TypeRef}
    (isFun : head.kind = .kwFun) (isName : name.kind = .ident) (opens : opening.kind = .lparen) (list : ParamList ts ps)
    (closes : closing.kind = .rparen) (isArrow : arrow.kind = .arrow) (isType : annotation? type = some ref)
    (isColon : colon.kind = .colon) (others : Tells us cs f) :
    Tells (head :: name :: opening :: (ts ++ closing :: arrow :: type :: colon :: us)) cs
      (.andThen (.plain (.kwFun :: .ident :: .lparen :: (listKinds ps ++ [.rparen, .arrow, ref.ty.kind, .colon]))) f) := by
  have same := kind_of_annotation isType
  have header : Tells (head :: name :: opening :: (ts ++ [closing, arrow, type, colon])) []
      (.plain (.kwFun :: .ident :: .lparen :: (listKinds ps ++ [.rparen, .arrow, ref.ty.kind, .colon]))) := by
    refine .quiet (by simp [quiet_of_kind isFun rfl, quiet_of_kind isName rfl, quiet_of_kind opens rfl, list.quiet,
      quiet_of_kind closes rfl, quiet_of_kind isArrow rfl, quiet_type isType, quiet_of_kind isColon rfl]) ?_
    rw [solid_cons (by rw [isFun]; rfl), solid_cons (by rw [isName]; rfl), solid_cons (by rw [opens]; rfl), solid_append,
      list.solid_eq, solid_cons (by rw [closes]; rfl), solid_cons (by rw [isArrow]; rfl),
      solid_cons (same ▸ Ty.kind_solid _), solid_cons (by rw [isColon]; rfl), isFun, isName, opens, closes, isArrow, same,
      isColon, solid_nil]
  simpa only [List.cons_append, List.append_assoc, List.nil_append] using header.append others

/-- The head of a loop. -/
theorem loop (isLoop : l.kind = .kwLoop) (isColon : m.kind = .colon) (others : Tells ts cs f) :
    Tells (l :: m :: ts) cs (.andThen (.plain [.kwLoop, .colon]) f) := by
  have kinds : solid [l, m] = [.kwLoop, .colon] := by
    rw [solid_cons (by rw [isLoop]; rfl), solid_cons (by rw [isColon]; rfl), isLoop, isColon, solid_nil]
  exact (quiet (by simp [quiet_of_kind isLoop rfl, quiet_of_kind isColon rfl]) kinds).append others

end Tells

/-! ## Derived tokens -/

namespace Grammar
variable {nearest closed : Bool} {ts us : List Lexeme}

mutual

/-- The tokens of a statement tell how it is spelled. -/
theorem Statement.tells {closed opened : Bool} {ts : List Lexeme} {s : Stmt} :
    Statement nearest ts s closed opened → Plain ts → ∃ cs, Tells ts cs s.spelling
  | .only isIf cond isColon first, plain => by
    obtain ⟨cs, yes⟩ := first.tells plain.tail.right.tail
    have bodies := yes.append (.quiet quiet_nil solid_nil)
    rw [List.append_nil] at bodies
    exact ⟨_, .condition isIf cond isColon plain.tail.left bodies⟩
  | .both isIf cond isColon first _ isElse isColon' second, plain => by
    have bodies := plain.tail.right.tail
    obtain ⟨cs, yes⟩ := first.tells bodies.left
    obtain ⟨ds, no⟩ := second.tells bodies.right.tail.tail
    exact ⟨_, .condition isIf cond isColon plain.tail.left (yes.append (.block isElse isColon' no))⟩
  | .chain isIf cond isColon first _ isElse second, plain => by
    have bodies := plain.tail.right.tail
    obtain ⟨cs, yes⟩ := first.tells bodies.left
    obtain ⟨ds, no⟩ := second.tells bodies.right.tail
    have single := no.append (.quiet quiet_nil solid_nil)
    rw [List.append_nil] at single
    have isIf' := second.look_cond []
    rw [List.append_nil] at isIf'
    exact ⟨_, .condition isIf cond isColon plain.tail.left (yes.append (.chain isElse isIf' single))⟩
  | .bare isReturn, _ => ⟨[], .token isReturn rfl rfl⟩
  | .value isReturn inner, plain => by
    refine ⟨[], .quiet (by simp [quiet_of_kind isReturn rfl, inner.quiet]) ?_⟩
    rw [solid_cons (by rw [isReturn]; rfl), isReturn, inner.solid_eq plain.tail]
  | .leave isBreak, _ => ⟨[], .token isBreak rfl rfl⟩
  | .loop isLoop isColon inner, plain => by
    obtain ⟨cs, body⟩ := inner.tells plain.tail.tail
    exact ⟨cs, .loop isLoop isColon body⟩
  | .bind isLet isName isColon isType isAssign inner, plain => by
    have same := kind_of_annotation isType
    refine ⟨[], .quiet (by simp [quiet_of_kind isLet rfl, quiet_of_kind isName rfl, quiet_of_kind isColon rfl,
      quiet_type isType, quiet_of_kind isAssign rfl, inner.quiet]) ?_⟩
    rw [solid_cons (by rw [isLet]; rfl), solid_cons (by rw [isName]; rfl), solid_cons (by rw [isColon]; rfl),
      solid_cons (same ▸ Ty.kind_solid _), solid_cons (by rw [isAssign]; rfl), isLet, isName, isColon, same, isAssign,
      inner.solid_eq plain.tail.tail.tail.tail.tail]
  | .empty isUnderscore, _ => ⟨[], .token isUnderscore rfl rfl⟩
  | .expr inner, plain => ⟨[], .quiet inner.quiet (inner.solid_eq plain)⟩

theorem Block.tells {closed opened : Bool} {ts : List Lexeme} {b : Body} :
    Block nearest ts b closed opened → Plain ts → ∃ cs, Tells ts cs b.spelling
  | .line inner, plain => by
    obtain ⟨cs, tells⟩ := inner.tells plain
    have single := tells.append (.quiet quiet_nil solid_nil)
    rw [List.append_nil] at single
    exact ⟨_, single⟩
  | .indented isBreak isIndent inner, plain => by
    obtain ⟨cs, tells⟩ := inner.tells plain.tail.tail
    exact ⟨cs, (tells.start (quiet_of_kind isIndent rfl) (by rw [isIndent]; rfl)).start
      (quiet_of_kind isBreak rfl) (by rw [isBreak]; rfl)⟩

theorem Lines.tells {ts : List Lexeme} {ss : List Stmt} :
    Lines nearest ts ss → Plain ts → ∃ cs, Tells ts cs (stmtsSpelling ss)
  | .last inner ends isDedent, plain => by
    obtain ⟨cs, tells⟩ := inner.tells plain.left
    refine ⟨_, tells.append (.quiet (by simp [ends.quiet, quiet_of_kind isDedent rfl]) ?_)⟩
    rw [solid_append, ends.solid_eq, solid_layout (by rw [isDedent]; rfl), List.nil_append, solid_nil]
  | .more inner ends rest, plain => by
    obtain ⟨cs, first⟩ := inner.tells plain.left
    obtain ⟨ds, others⟩ := rest.tells plain.right.right
    have layout := first.layout ends.quiet ends.solid_eq
    rw [← List.append_assoc]
    exact ⟨_, layout.append others⟩

end

theorem Declaration.tells {i : Item} (derived : Declaration nearest ts i closed) (plain : Plain ts) :
    ∃ cs, Tells ts cs i.spelling := by
  cases derived with
  | @fn _ _ opening closing _ _ _ ps _ params ref _ _ _ isFun isName opens fields closes isArrow isType isColon inner =>
    obtain ⟨cs, body⟩ := inner.tells plain.tail.tail.tail.right.tail.tail.tail.tail
    exact ⟨cs, .signature isFun isName opens fields closes isArrow isType isColon body⟩
  | @indented _ _ _ first second us params isType isName isColon isBreak isIndent fields =>
    have silent : Quiet (first :: second :: us) := by
      simp [quiet_of_kind isBreak rfl, quiet_of_kind isIndent rfl, fields.quiet]
    have kinds : solid (first :: second :: us) = params.flatMap Param.kinds := by
      rw [solid_layout (by rw [isBreak]; rfl), solid_layout (by rw [isIndent]; rfl), fields.solid_eq]
    exact ⟨[false], .struct isType isName isColon silent kinds fun left => by rw [isColon]; rfl⟩
  | @braced _ _ _ closing us params isType isName opens fields closes =>
    have silent : Quiet (us ++ [closing]) := by simp [fields.quiet, quiet_of_kind closes rfl]
    have kinds : solid (us ++ [closing]) = listKinds params ++ [Kind.rbrace] := by
      rw [solid_append, fields.solid_eq closes plain.tail.tail.tail, solid_cons (by rw [closes]; rfl), closes, solid_nil]
    exact ⟨[true], .struct isType isName opens silent kinds fun left => by rw [opens]; rfl⟩

theorem Declarations.tells {is : List Item} (derived : Declarations nearest ts is) :
    Plain ts → ∃ cs, Tells ts cs (itemsSpelling is) := by
  induction derived with
  | none => exact fun _ => ⟨[], .quiet quiet_nil solid_nil⟩
  | skip isBreak _ ih =>
    intro plain
    obtain ⟨cs, tells⟩ := ih plain.tail
    exact ⟨cs, tells.start (quiet_of_kind isBreak rfl) (by rw [isBreak]; rfl)⟩
  | @more _ sep _ _ _ _ inner ends _ ih =>
    intro plain
    obtain ⟨cs, first⟩ := inner.tells plain.left
    obtain ⟨ds, others⟩ := ih plain.right.right
    have silent : Quiet sep ∧ solid sep = [] := by
      obtain separator | ⟨rfl, -⟩ := ends
      · exact ⟨separator.quiet, separator.solid_eq⟩
      · exact ⟨quiet_nil, solid_nil⟩
    have layout := first.layout silent.1 silent.2
    rw [← List.append_assoc]
    exact ⟨_, layout.append others⟩

/-- Two spellings of the same declarations, up to spans, have the same kinds exactly if they make the same choices. -/
theorem solid_eq_iff {is js : List Item} (first : Declarations nearest ts is) (second : Declarations nearest us js)
    (same : js.map Item.bare = is.map Item.bare) (plain : Plain ts) (plain' : Plain us) :
    solid us = solid ts ↔ choices us = choices ts := by
  obtain ⟨cs, tells⟩ := first.tells plain
  obtain ⟨ds, tells'⟩ := second.tells plain'
  have spelling : itemsSpelling js = itemsSpelling is := by
    rw [← itemsSpelling_bare js, same, itemsSpelling_bare]
  rw [spelling] at tells'
  rw [tells.chooses.choices_eq, tells'.chooses.choices_eq]
  refine ⟨fun kinds => ?_, fun chosen => ?_⟩
  · have told := tells'.told []
    rw [kinds, tells.told []] at told
    exact (List.append_cancel_right told).symm
  · have spelled := tells'.spelled []
    rw [chosen, tells.spelled []] at spelled
    exact (Prod.mk.inj spelled).1.symm

end Grammar
end PineLang
