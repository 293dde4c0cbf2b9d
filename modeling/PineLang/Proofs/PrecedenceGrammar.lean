import PineLang.Proofs.Complete
import PineLang.Proofs.ParserComplete
import PineLang.Proofs.Relocation

/-!
Expressions and precedence. The tokens of a tree are written down in order (`Expr.yield`), and a tree is grouped if its
operators need no parentheses but those it has (`Expr.Grouped`). An expression is read exactly as a grouped tree of the
tokens taken, but for a comma that may trail before a closing bracket; and every grouped tree is read back from its
tokens, if an expression can end behind them (`parse_precedence`).
-/
namespace PineLang
open Grammar

/-! ## Tokens of a tree -/

/-- What stands at a place of an expression. -/
inductive Sign where
  /-- A token of the kind. -/
  | fixed (k : Kind)
  /-- A name. -/
  | name (n : String)
  /-- A variable: a name, or `self`. -/
  | variable (n : String)
  | literal (v : Literal)
  /-- A closing bracket, before which one comma may trail. -/
  | close (k : Kind)

/-- The lexeme is the literal. -/
def Literal.IsAt : Literal → Lexeme → Prop
  | bool b, l => l.kind = if b then .kwTrue else .kwFalse
  | nil, l => l.kind = .kwNil
  | int v t, l => l.kind = .intLit ∧ l.toToken.payload.toInt = v ∧ l.text = t
  | float v t, l => l.kind = .floatLit ∧ l.toToken.payload.toFloat = v ∧ l.text = t
  | string t, l => l.kind = .stringLit ∧ l.text = t
  | other _ _, _ => False

/-- The lexeme is what stands at the place. -/
def Sign.IsAt : Sign → Lexeme → Prop
  | .fixed k, l => l.kind = k
  | .name n, l => l.kind = .ident ∧ l.text = n
  | .variable n, l => l.kind = .ident ∧ l.text = n ∨ l.kind = .kwSelf ∧ n = "self"
  | .literal v, l => v.IsAt l
  | .close k, l => l.kind = k

/-- Lexemes are what stands at the places one by one, but for commas that trail. -/
inductive Spelled : List Sign → List Lexeme → Prop
  | nil : Spelled [] []
  | sign {s : Sign} {l : Lexeme} {ss : List Sign} {ls : List Lexeme} (here : s.IsAt l) (others : Spelled ss ls) :
      Spelled (s :: ss) (l :: ls)
  | trailing {k : Kind} {comma l : Lexeme} {ss : List Sign} {ls : List Lexeme} (isComma : comma.kind = .comma)
      (here : l.kind = k) (others : Spelled ss ls) : Spelled (.close k :: ss) (comma :: l :: ls)

/-- The token of a binary operator. -/
def BinaryOp.kind : BinaryOp → Kind
  | add => .plus
  | sub => .minus
  | mul => .star
  | div => .slash
  | mod => .percent
  | lt => .lt
  | le => .ltEq
  | gt => .gt
  | ge => .gtEq
  | eq => .eqEq
  | ne => .bangEq
  | and => .kwAnd
  | or => .kwOr
  | other _ => .invalid

/-- The token of a prefix operator. -/
def UnaryOp.kind : UnaryOp → Kind
  | neg => .minus
  | not => .bang
  | other _ => .invalid

/-- Parts with commas between them, up to a closing bracket. -/
def listed (closing : Kind) : List (List Sign) → List Sign
  | [] => [.fixed closing]
  | [part] => part ++ [.close closing]
  | part :: parts => part ++ .fixed .comma :: listed closing parts

mutual

/-- The tokens of an expression in order. -/
def Expr.yield : Expr → List Sign
  | .ident _ n => [.variable n]
  | .lit _ v => [.literal v]
  | .assign _ a b => a.yield ++ .fixed .assign :: b.yield
  | .call _ f args => f.yield ++ .fixed .lparen :: listed .rparen (exprYields args)
  | .member _ t f _ => t.yield ++ [.fixed .dot, .name f]
  | .unary _ op x => .fixed op.kind :: x.yield
  | .binary _ op a b => a.yield ++ .fixed op.kind :: b.yield
  | .group _ x => .fixed .lparen :: (x.yield ++ [.fixed .rparen])
  | .structLit _ n _ fs => .name n :: .fixed .lbrace :: listed .rbrace (fieldYields fs)
  | .absent _ => []
  | .hollow _ _ => []

/-- The tokens of some expressions. -/
def exprYields : List Expr → List (List Sign)
  | [] => []
  | x :: xs => x.yield :: exprYields xs

/-- The tokens of a field of a literal. -/
def FieldInit.yield : FieldInit → List Sign
  | .mk n _ v => .name n :: .fixed .colon :: v.yield

/-- The tokens of some fields. -/
def fieldYields : List FieldInit → List (List Sign)
  | [] => []
  | f :: fs => f.yield :: fieldYields fs

end

/-! ## Precedence -/

/-- How tight an expression holds together that has no parentheses around it: assignment is the loosest, then come `or`,
    `and`, equality, order, sums, products and prefix operators, and all else is the tightest. -/
def Expr.level : Expr → Nat
  | .assign .. => 1
  | .binary _ op _ _ =>
    match op with
    | .or => 2
    | .and => 3
    | .eq | .ne => 4
    | .lt | .le | .gt | .ge => 5
    | .add | .sub => 6
    | .mul | .div | .mod => 7
    | .other _ => 0
  | .unary .. => 8
  | _ => 9

mutual

/-- An expression of the language in which no operand is looser than its place allows. The left operand of a binary
    operator may be as tight as the operator itself, the right one is tighter. -/
def Expr.Grouped : Expr → Prop
  | .ident _ _ => True
  | .lit _ v => v.Known
  | .assign _ a b => Target a ∧ a.Grouped ∧ b.Grouped
  | .call _ f args => 9 ≤ f.level ∧ f.Grouped ∧ exprsGrouped args
  | .member _ t _ _ => 9 ≤ t.level ∧ t.Grouped
  | .unary _ op x => op.kind ≠ .invalid ∧ 8 ≤ x.level ∧ x.Grouped
  | .binary s op a b => op.Known ∧ (Expr.binary s op a b).level ≤ a.level ∧ (Expr.binary s op a b).level < b.level ∧
      a.Grouped ∧ b.Grouped
  | .group _ x => x.Grouped
  | .structLit _ _ _ fs => fieldsGrouped fs
  | .absent _ => False
  | .hollow _ _ => False

/-- Expressions each of which is grouped. -/
def exprsGrouped : List Expr → Prop
  | [] => True
  | x :: xs => x.Grouped ∧ exprsGrouped xs

/-- A field whose value is grouped. -/
def FieldInit.Grouped : FieldInit → Prop
  | .mk _ _ v => v.Grouped

/-- Fields whose values are grouped. -/
def fieldsGrouped : List FieldInit → Prop
  | [] => True
  | f :: fs => f.Grouped ∧ fieldsGrouped fs

end

/-- The kinds behind which no expression goes on. -/
def endsExpr : Kind → Bool
  | .newLine | .dedent | .eof | .colon | .rparen | .comma | .rbrace | .kwElse => true
  | _ => false

namespace Spelled

variable {ss ss' : List Sign} {ts us : List Lexeme} {s : Sign} {l : Lexeme}

theorem append (first : Spelled ss ts) (second : Spelled ss' us) : Spelled (ss ++ ss') (ts ++ us) := by
  induction first with
  | nil => exact second
  | sign here _ ih => exact .sign here ih
  | trailing isComma here _ ih => exact .trailing isComma here ih

theorem single (here : s.IsAt l) : Spelled [s] [l] := .sign here .nil

/-- What spells two parts is in two parts. -/
theorem parts : ∀ {ss : List Sign} {ts : List Lexeme}, Spelled (ss ++ ss') ts →
    ∃ us vs, ts = us ++ vs ∧ Spelled ss us ∧ Spelled ss' vs
  | [], ts, whole => ⟨[], ts, rfl, .nil, whole⟩
  | s :: ss, _, .sign here others => by
    obtain ⟨us, vs, rfl, first, second⟩ := others.parts
    exact ⟨_ :: us, vs, rfl, .sign here first, second⟩
  | .close k :: ss, _, .trailing isComma here others => by
    obtain ⟨us, vs, rfl, first, second⟩ := others.parts
    exact ⟨_ :: _ :: us, vs, rfl, .trailing isComma here first, second⟩

/-- A place that is no closing bracket has one lexeme. -/
theorem fixed_cons {k : Kind} (whole : Spelled (.fixed k :: ss) ts) : ∃ l us, ts = l :: us ∧ l.kind = k ∧ Spelled ss us := by
  cases whole with
  | sign here others => exact ⟨_, _, rfl, here, others⟩

theorem name_cons {n : String} (whole : Spelled (.name n :: ss) ts) :
    ∃ l us, ts = l :: us ∧ l.kind = .ident ∧ l.text = n ∧ Spelled ss us := by
  cases whole with
  | sign here others => exact ⟨_, _, rfl, here.1, here.2, others⟩

theorem field {name colon : Lexeme} {span : Span} {value : Expr} (isName : name.kind = .ident) (isColon : colon.kind = .colon)
    (spelled : Spelled value.yield ts) : Spelled (FieldInit.mk name.text span value).yield (name :: colon :: ts) :=
  .sign (s := .name name.text) ⟨isName, rfl⟩ (.sign isColon spelled)

theorem nil_eq (whole : Spelled [] ts) : ts = [] := by
  cases whole
  rfl

end Spelled

/-! ## Operators and literals -/

theorem level_binary (span : Span) (op : BinaryOp) (a b : Expr) : (Expr.binary span op a b).level = op.precedence := by
  cases op <;> rfl

theorem precedence_le (op : BinaryOp) : op.precedence ≤ 7 := by
  cases op <;> exact Nat.le_of_ble_eq_true rfl

theorem Expr.Grouped.level_pos {e : Expr} (grouped : e.Grouped) : 1 ≤ e.level := by
  cases e with
  | binary span op a b => cases op <;> first | exact Nat.le_of_ble_eq_true rfl | exact grouped.1.elim
  | _ => exact Nat.le_of_ble_eq_true rfl

theorem Target.level {e : Expr} (target : Target e) : e.level = 9 := by
  cases target <;> rfl

theorem joiner_kind {op : BinaryOp} (known : op.Known) : op.kind.joiner? = some (.op op) := by
  cases op <;> first | rfl | exact known.elim

theorem kind_of_joiner {k : Kind} {op : BinaryOp} (isOp : k.joiner? = some (.op op)) : k = op.kind := by
  cases k <;> cases isOp <;> rfl

theorem unary_kind {op : UnaryOp} (known : op.kind ≠ .invalid) : op.kind.unary? = some op := by
  cases op <;> first | rfl | exact absurd rfl known

theorem kind_of_unary {k : Kind} {op : UnaryOp} (isOp : k.unary? = some op) : k = op.kind ∧ op.kind ≠ .invalid := by
  cases k <;> cases isOp <;> exact ⟨rfl, by decide⟩

theorem leaf_spelled {l : Lexeme} {e : Expr} (isLeaf : leaf? l = some e) :
    Spelled e.yield [l] ∧ e.Grouped ∧ 9 ≤ e.level := by
  unfold leaf? at isLeaf
  split at isLeaf <;> cases isLeaf
  case h_1 isName => exact ⟨.single (.inl ⟨isName, rfl⟩), trivial, Nat.le_refl 9⟩
  case h_2 isSelf => exact ⟨.single (.inr ⟨isSelf, rfl⟩), trivial, Nat.le_refl 9⟩
  case h_3 isInt => exact ⟨.single ⟨isInt, rfl, rfl⟩, trivial, Nat.le_refl 9⟩
  case h_4 isFloat => exact ⟨.single ⟨isFloat, rfl, rfl⟩, trivial, Nat.le_refl 9⟩
  case h_5 isString => exact ⟨.single ⟨isString, rfl⟩, trivial, Nat.le_refl 9⟩
  case h_6 isTrue => exact ⟨.single isTrue, trivial, Nat.le_refl 9⟩
  case h_7 isFalse => exact ⟨.single isFalse, trivial, Nat.le_refl 9⟩
  case h_8 isNil => exact ⟨.single isNil, trivial, Nat.le_refl 9⟩

theorem leaf_of_variable {n : String} {l : Lexeme} (here : (Sign.variable n).IsAt l) : leaf? l = some (.ident l.span n) := by
  obtain ⟨isName, rfl⟩ | ⟨isSelf, rfl⟩ := here
  · simp only [leaf?, isName]
  · simp only [leaf?, isSelf]

theorem leaf_of_literal {v : Literal} {l : Lexeme} (here : v.IsAt l) : leaf? l = some (.lit l.span v) := by
  cases v with
  | bool b => cases b <;> simp [Literal.IsAt] at here <;> simp only [leaf?, here]
  | nil => simp only [leaf?, show l.kind = .kwNil from here]
  | int v t =>
    obtain ⟨isInt, rfl, rfl⟩ := here
    simp only [leaf?, isInt]
  | float v t =>
    obtain ⟨isFloat, rfl, rfl⟩ := here
    simp only [leaf?, isFloat]
  | string t =>
    obtain ⟨isString, rfl⟩ := here
    simp only [leaf?, isString]
  | other => exact here.elim

/-! ## Parts with commas between them -/

section Lists

variable {closing comma : Lexeme} {k : Kind} {part : List Sign} {parts : List (List Sign)} {ts us : List Lexeme}

theorem Spelled.listed_last (inner : Spelled part ts) (closes : closing.kind = k) :
    Spelled (listed k [part]) (ts ++ [closing]) := inner.append (.single closes)

theorem Spelled.listed_more (inner : Spelled part ts) (isComma : comma.kind = .comma)
    (others : Spelled (listed k parts) us) : Spelled (listed k (part :: parts)) (ts ++ comma :: us) := by
  cases parts with
  | nil =>
    obtain ⟨closing, _, rfl, closes, none⟩ := others.fixed_cons
    rw [none.nil_eq]
    exact inner.append (.trailing isComma closes .nil)
  | cons => exact inner.append (.sign isComma others)

/-- What spells a list is spelled by the first part, and then ends or goes on behind a comma. -/
theorem Spelled.listed_cons (whole : Spelled (listed k (part :: parts)) ts) : ∃ us vs, Spelled part us ∧ ts = us ++ vs ∧
    ((parts = [] ∧ ∃ closing, vs = [closing] ∧ closing.kind = k) ∨
      ∃ comma ws, vs = comma :: ws ∧ comma.kind = .comma ∧ Spelled (listed k parts) ws) := by
  cases parts with
  | nil =>
    obtain ⟨us, vs, rfl, first, rest⟩ := whole.parts
    refine ⟨us, vs, first, rfl, ?_⟩
    cases rest with
    | sign here others =>
      rw [others.nil_eq]
      exact .inl ⟨rfl, _, rfl, here⟩
    | trailing isComma here others =>
      rw [others.nil_eq]
      exact .inr ⟨_, _, rfl, isComma, .single here⟩
  | cons =>
    obtain ⟨us, vs, rfl, first, rest⟩ := whole.parts
    obtain ⟨comma, ws, rfl, isComma, others⟩ := rest.fixed_cons
    exact ⟨us, _, first, rfl, .inr ⟨comma, ws, rfl, isComma, others⟩⟩

end Lists

/-! ## What is derived is grouped -/

namespace Grammar

mutual

theorem Expression.grouped {least : Nat} {ts : List Lexeme} {e : Expr} : Expression least ts e →
    Spelled e.yield ts ∧ e.Grouped ∧ (least ≤ 8 → least ≤ e.level)
  | .operand inner => by
    obtain ⟨spelled, grouped, level⟩ := inner.grouped
    exact ⟨spelled, grouped, fun small => Nat.le_trans small level⟩
  | @Expression.binary _ _ _ _ _ sign op lhs isOp bound rhs => by
    obtain ⟨left, grouped, level⟩ := lhs.grouped
    obtain ⟨right, grouped', level'⟩ := rhs.grouped
    have small := precedence_le op
    refine ⟨left.append (.sign (kind_of_joiner isOp) right), ⟨joiner_known isOp, ?_, ?_, grouped, grouped'⟩, fun _ => ?_⟩
    · rw [level_binary]
      exact level (Nat.le_succ_of_le small)
    · rw [level_binary]
      exact level' (Nat.succ_le_succ small)
    · rw [level_binary]
      exact bound
  | .assign lhs isTarget isAssign bound rhs => by
    obtain ⟨left, grouped, -⟩ := lhs.grouped
    obtain ⟨right, grouped', -⟩ := rhs.grouped
    exact ⟨left.append (.sign isAssign right), ⟨isTarget, grouped, grouped'⟩, fun _ => bound⟩

theorem Prefixed.grouped {ts : List Lexeme} {e : Expr} : Prefixed ts e → Spelled e.yield ts ∧ e.Grouped ∧ 8 ≤ e.level
  | .plain inner => by
    obtain ⟨spelled, grouped, level⟩ := inner.grouped
    exact ⟨spelled, grouped, Nat.le_of_succ_le level⟩
  | .sign isOp inner => by
    obtain ⟨spelled, grouped, level⟩ := inner.grouped
    obtain ⟨isKind, known⟩ := kind_of_unary isOp
    exact ⟨.sign isKind spelled, ⟨known, level, grouped⟩, Nat.le_refl 8⟩

theorem Postfixed.grouped {ts : List Lexeme} {e : Expr} : Postfixed ts e → Spelled e.yield ts ∧ e.Grouped ∧ 9 ≤ e.level
  | .plain inner => inner.grouped
  | .call callee opens inner closes => by
    obtain ⟨spelled, grouped, level⟩ := callee.grouped
    obtain ⟨listed, grouped'⟩ := inner.grouped closes
    exact ⟨spelled.append (.sign opens listed), ⟨level, grouped, grouped'⟩, Nat.le_refl 9⟩
  | .member target isPoint isName => by
    obtain ⟨spelled, grouped, level⟩ := target.grouped
    exact ⟨spelled.append (.sign isPoint (.single ⟨isName, rfl⟩)), ⟨level, grouped⟩, Nat.le_refl 9⟩

theorem Primary.grouped {ts : List Lexeme} {e : Expr} : Primary ts e → Spelled e.yield ts ∧ e.Grouped ∧ 9 ≤ e.level
  | .leaf isLeaf => leaf_spelled isLeaf
  | .group opens inner closes => by
    obtain ⟨spelled, grouped, -⟩ := inner.grouped
    exact ⟨.sign opens (spelled.append (.single closes)), grouped, Nat.le_refl 9⟩
  | .literal isName opens inner closes => by
    obtain ⟨listed, grouped⟩ := inner.grouped closes
    exact ⟨.sign ⟨isName, rfl⟩ (.sign opens listed), grouped, Nat.le_refl 9⟩

theorem Arguments.grouped {ts : List Lexeme} {es : List Expr} {closing : Lexeme} {k : Kind} : Arguments ts es →
    closing.kind = k → Spelled (listed k (exprYields es)) (ts ++ [closing]) ∧ exprsGrouped es
  | .none, closes => ⟨.single closes, trivial⟩
  | .last arg, closes => by
    obtain ⟨spelled, grouped, -⟩ := arg.grouped
    exact ⟨spelled.listed_last closes, grouped, trivial⟩
  | .more arg isComma rest, closes => by
    obtain ⟨spelled, grouped, -⟩ := arg.grouped
    obtain ⟨others, grouped'⟩ := rest.grouped closes
    rw [List.append_assoc]
    exact ⟨spelled.listed_more isComma others, grouped, grouped'⟩

theorem Inits.grouped {ts : List Lexeme} {fs : List FieldInit} {closing : Lexeme} {k : Kind} : Inits ts fs →
    closing.kind = k → Spelled (listed k (fieldYields fs)) (ts ++ [closing]) ∧ fieldsGrouped fs
  | .none, closes => ⟨.single closes, trivial⟩
  | .last isName isColon value, closes => by
    obtain ⟨spelled, grouped, -⟩ := value.grouped
    exact ⟨(Spelled.field isName isColon spelled).listed_last closes, grouped, trivial⟩
  | .more isName isColon value isComma rest, closes => by
    obtain ⟨spelled, grouped, -⟩ := value.grouped
    obtain ⟨others, grouped'⟩ := rest.grouped closes
    refine ⟨?_, grouped, grouped'⟩
    simpa only [List.cons_append, List.append_assoc, fieldYields] using
      (Spelled.field isName isColon spelled).listed_more isComma others

end

end Grammar

/-! ## What is grouped is derived -/

/-- An expression of a level is derived wherever its level is allowed. -/
structure Derives (level : Nat) (ts : List Lexeme) (e : Expr) : Prop where
  expression : ∀ least ≤ level, Expression least ts e
  prefixed : 8 ≤ level → Prefixed ts e
  postfixed : 9 ≤ level → Postfixed ts e

namespace Derives

variable {ts : List Lexeme} {e : Expr}

theorem of_postfixed (derived : Postfixed ts e) : Derives 9 ts e :=
  ⟨fun _ _ => .operand (.plain derived), fun _ => .plain derived, fun _ => derived⟩

theorem of_prefixed (derived : Prefixed ts e) : Derives 8 ts e :=
  ⟨fun _ _ => .operand derived, fun _ => derived, fun tight => absurd tight (by decide)⟩

theorem of_expression {level : Nat} (loose : level < 8) (derived : ∀ least ≤ level, Expression least ts e) :
    Derives level ts e :=
  ⟨derived, fun tight => absurd tight (by omega), fun tight => absurd tight (by omega)⟩

end Derives

mutual

/-- A grouped expression is derived from its tokens, up to spans. -/
theorem Expr.Grouped.derives : ∀ {e : Expr}, e.Grouped → ∀ {ts : List Lexeme}, Spelled e.yield ts →
    ∃ e', Derives e.level ts e' ∧ e'.bare = e.bare
  | .ident _ n, _, ts, spelled => by
    cases spelled with
    | sign here others =>
      rw [others.nil_eq]
      exact ⟨_, .of_postfixed (.plain (.leaf (leaf_of_variable here))), rfl⟩
  | .lit _ v, _, ts, spelled => by
    cases spelled with
    | sign here others =>
      rw [others.nil_eq]
      exact ⟨_, .of_postfixed (.plain (.leaf (leaf_of_literal here))), rfl⟩
  | .assign _ a b, ⟨target, grouped, grouped'⟩, ts, spelled => by
    obtain ⟨us, vs, rfl, left, rest⟩ := spelled.parts
    obtain ⟨sign, ws, rfl, isAssign, right⟩ := rest.fixed_cons
    obtain ⟨a', first, bare⟩ := grouped.derives left
    obtain ⟨b', second, bare'⟩ := grouped'.derives right
    have tight : 8 ≤ a.level := by rw [Target.level target]; decide
    have target' : Target a' := target.of_bare bare
    refine ⟨_, .of_expression (show 1 < 8 by decide) fun least bound =>
      .assign (first.prefixed tight) target' isAssign bound (second.expression 1 grouped'.level_pos), ?_⟩
    simp only [Expr.bare, bare, bare']
  | .call _ f args, ⟨tight, grouped, grouped'⟩, ts, spelled => by
    obtain ⟨us, vs, rfl, left, rest⟩ := spelled.parts
    obtain ⟨opening, ws, rfl, opens, inside⟩ := rest.fixed_cons
    obtain ⟨f', first, bare⟩ := grouped.derives left
    obtain ⟨args', as, closing, rfl, derived, closes, bare'⟩ := exprsGrouped_derives grouped' inside
    refine ⟨_, .of_postfixed (.call (first.postfixed tight) opens derived closes), ?_⟩
    simp only [Expr.bare, bare, bare']
  | .member _ t n _, ⟨tight, grouped⟩, ts, spelled => by
    obtain ⟨us, vs, rfl, left, rest⟩ := spelled.parts
    obtain ⟨point, ws, rfl, isPoint, last⟩ := rest.fixed_cons
    obtain ⟨field, none, rfl, isName, rfl, others⟩ := last.name_cons
    rw [others.nil_eq]
    obtain ⟨t', first, bare⟩ := grouped.derives left
    refine ⟨_, .of_postfixed (.member (first.postfixed tight) isPoint isName), ?_⟩
    simp only [Expr.bare, bare]
  | .unary _ op x, ⟨known, tight, grouped⟩, ts, spelled => by
    obtain ⟨sign, us, rfl, isKind, rest⟩ := spelled.fixed_cons
    obtain ⟨x', inner, bare⟩ := grouped.derives rest
    have isOp : sign.kind.unary? = some op := by rw [isKind, unary_kind known]
    refine ⟨_, .of_prefixed (.sign isOp (inner.prefixed tight)), ?_⟩
    simp only [Expr.bare, bare]
  | .binary span op a b, ⟨known, loose, tight, grouped, grouped'⟩, ts, spelled => by
    obtain ⟨us, vs, rfl, left, rest⟩ := spelled.parts
    obtain ⟨sign, ws, rfl, isKind, right⟩ := rest.fixed_cons
    obtain ⟨a', first, bare⟩ := grouped.derives left
    obtain ⟨b', second, bare'⟩ := grouped'.derives right
    have isOp : sign.kind.joiner? = some (.op op) := by rw [isKind, joiner_kind known]
    have small := precedence_le op
    rw [level_binary] at loose tight ⊢
    refine ⟨_, .of_expression (Nat.lt_succ_of_le small) fun least bound =>
      .binary (first.expression _ loose) isOp bound (second.expression _ tight), ?_⟩
    simp only [Expr.bare, bare, bare']
  | .group _ x, grouped, ts, spelled => by
    obtain ⟨opening, us, rfl, opens, rest⟩ := spelled.fixed_cons
    obtain ⟨vs, ws, rfl, inside, last⟩ := rest.parts
    obtain ⟨closing, none, rfl, closes, others⟩ := last.fixed_cons
    rw [others.nil_eq]
    obtain ⟨x', inner, bare⟩ := Expr.Grouped.derives (e := x) grouped inside
    refine ⟨_, .of_postfixed (.plain (.group opens (inner.expression 0 (Nat.zero_le _)) closes)), ?_⟩
    simp only [Expr.bare, bare]
  | .structLit _ n _ fs, grouped, ts, spelled => by
    obtain ⟨name, us, rfl, isName, rfl, rest⟩ := spelled.name_cons
    obtain ⟨opening, vs, rfl, opens, inside⟩ := rest.fixed_cons
    obtain ⟨fs', as, closing, rfl, derived, closes, bare⟩ := fieldsGrouped_derives grouped inside
    refine ⟨_, .of_postfixed (.plain (.literal isName opens derived closes)), ?_⟩
    simp only [Expr.bare, bare]

theorem exprsGrouped_derives {k : Kind} : ∀ {es : List Expr}, exprsGrouped es → ∀ {ts : List Lexeme},
    Spelled (listed k (exprYields es)) ts → ∃ es' as closing, ts = as ++ [closing] ∧ Arguments as es' ∧
      closing.kind = k ∧ bareExprs es' = bareExprs es
  | [], _, ts, spelled => by
    obtain ⟨closing, none, rfl, closes, others⟩ := spelled.fixed_cons
    rw [others.nil_eq]
    exact ⟨[], [], closing, rfl, .none, closes, rfl⟩
  | e :: es, ⟨grouped, grouped'⟩, ts, spelled => by
    obtain ⟨us, vs, first, rfl, rest⟩ := spelled.listed_cons
    obtain ⟨e', inner, bare⟩ := grouped.derives first
    have arg := inner.expression 0 (Nat.zero_le _)
    obtain ⟨none, closing, rfl, closes⟩ | ⟨comma, ws, rfl, isComma, others⟩ := rest
    · cases es with
      | nil => exact ⟨[e'], us, closing, rfl, .last arg, closes, by simp only [bareExprs, bare]⟩
      | cons => cases none
    · obtain ⟨es', as, closing, rfl, derived, closes, bare'⟩ := exprsGrouped_derives grouped' others
      exact ⟨e' :: es', us ++ comma :: as, closing, by simp, .more arg isComma derived, closes,
        by simp only [bareExprs, bare, bare']⟩

theorem fieldsGrouped_derives {k : Kind} : ∀ {fs : List FieldInit}, fieldsGrouped fs → ∀ {ts : List Lexeme},
    Spelled (listed k (fieldYields fs)) ts → ∃ fs' as closing, ts = as ++ [closing] ∧ Inits as fs' ∧
      closing.kind = k ∧ bareFields fs' = bareFields fs
  | [], _, ts, spelled => by
    obtain ⟨closing, none, rfl, closes, others⟩ := spelled.fixed_cons
    rw [others.nil_eq]
    exact ⟨[], [], closing, rfl, .none, closes, rfl⟩
  | .mk n _ v :: fs, ⟨grouped, grouped'⟩, ts, spelled => by
    obtain ⟨us, vs, first, rfl, rest⟩ := spelled.listed_cons
    obtain ⟨name, us, rfl, isName, rfl, behind⟩ := first.name_cons
    obtain ⟨colon, us, rfl, isColon, inside⟩ := behind.fixed_cons
    obtain ⟨v', inner, bare⟩ := Expr.Grouped.derives (e := v) grouped inside
    have value := inner.expression 0 (Nat.zero_le _)
    obtain ⟨none, closing, rfl, closes⟩ | ⟨comma, ws, rfl, isComma, others⟩ := rest
    · cases fs with
      | nil =>
        exact ⟨_, name :: colon :: us, closing, rfl, .last isName isColon value, closes,
          by simp only [bareFields, FieldInit.bare, bare]⟩
      | cons => cases none
    · obtain ⟨fs', as, closing, rfl, derived, closes, bare'⟩ := fieldsGrouped_derives grouped' others
      exact ⟨_, name :: colon :: (us ++ comma :: as), closing, by simp, .more isName isColon value isComma derived, closes,
        by simp only [bareFields, FieldInit.bare, bare, bare']⟩

end

/-! ## Every grouped expression has tokens -/

/-- A token of a kind, wherever it stands. -/
def Kind.anywhere (k : Kind) (text : String := "") (payload : Payload := .none) : Lexeme := .token ⟨k, {}, text, payload⟩

theorem Literal.Known.spelled {v : Literal} (known : v.Known) : ∃ l, v.IsAt l := by
  cases v with
  | bool b => exact ⟨(if b then Kind.kwTrue else .kwFalse).anywhere, rfl⟩
  | nil => exact ⟨Kind.kwNil.anywhere, rfl⟩
  | int v t => exact ⟨Kind.intLit.anywhere t (.int v), rfl, rfl, rfl⟩
  | float v t => exact ⟨Kind.floatLit.anywhere t (.float v), rfl, rfl, rfl⟩
  | string t => exact ⟨Kind.stringLit.anywhere t, rfl, rfl⟩
  | other => exact known.elim

mutual

theorem Expr.Grouped.spelled : ∀ {e : Expr}, e.Grouped → ∃ ts, Spelled e.yield ts
  | .ident _ n, _ => ⟨[Kind.ident.anywhere n], .single (.inl ⟨rfl, rfl⟩)⟩
  | .lit _ v, known => by
    obtain ⟨l, here⟩ := Literal.Known.spelled (v := v) known
    exact ⟨[l], .single here⟩
  | .assign _ a b, ⟨_, grouped, grouped'⟩ => by
    obtain ⟨ts, left⟩ := grouped.spelled
    obtain ⟨us, right⟩ := grouped'.spelled
    exact ⟨_, left.append (.sign (l := Kind.assign.anywhere) rfl right)⟩
  | .call _ f args, ⟨_, grouped, grouped'⟩ => by
    obtain ⟨ts, left⟩ := grouped.spelled
    obtain ⟨us, inside⟩ := exprsGrouped_spelled .rparen grouped'
    exact ⟨_, left.append (.sign (l := Kind.lparen.anywhere) rfl inside)⟩
  | .member _ t n _, ⟨_, grouped⟩ => by
    obtain ⟨ts, left⟩ := grouped.spelled
    exact ⟨_, left.append (.sign (l := Kind.dot.anywhere) rfl (.single (l := Kind.ident.anywhere n) ⟨rfl, rfl⟩))⟩
  | .unary _ op x, ⟨_, _, grouped⟩ => by
    obtain ⟨ts, inner⟩ := grouped.spelled
    exact ⟨_, .sign (l := op.kind.anywhere) rfl inner⟩
  | .binary _ op a b, ⟨_, _, _, grouped, grouped'⟩ => by
    obtain ⟨ts, left⟩ := grouped.spelled
    obtain ⟨us, right⟩ := grouped'.spelled
    exact ⟨_, left.append (.sign (l := op.kind.anywhere) rfl right)⟩
  | .group _ x, grouped => by
    obtain ⟨ts, inner⟩ := Expr.Grouped.spelled (e := x) grouped
    exact ⟨_, .sign (l := Kind.lparen.anywhere) rfl (inner.append (.single (l := Kind.rparen.anywhere) rfl))⟩
  | .structLit _ n _ fs, grouped => by
    obtain ⟨ts, inside⟩ := fieldsGrouped_spelled .rbrace grouped
    exact ⟨_, .sign (l := Kind.ident.anywhere n) ⟨rfl, rfl⟩ (.sign (l := Kind.lbrace.anywhere) rfl inside)⟩

theorem exprsGrouped_spelled (k : Kind) : ∀ {es : List Expr}, exprsGrouped es → ∃ ts, Spelled (listed k (exprYields es)) ts
  | [], _ => ⟨[k.anywhere], .single rfl⟩
  | e :: es, ⟨grouped, grouped'⟩ => by
    obtain ⟨ts, first⟩ := grouped.spelled
    obtain ⟨us, others⟩ := exprsGrouped_spelled k grouped'
    exact ⟨_, first.listed_more (show Kind.comma.anywhere.kind = .comma from rfl) others⟩

theorem fieldsGrouped_spelled (k : Kind) : ∀ {fs : List FieldInit}, fieldsGrouped fs →
    ∃ ts, Spelled (listed k (fieldYields fs)) ts
  | [], _ => ⟨[k.anywhere], .single rfl⟩
  | .mk n span v :: fs, ⟨grouped, grouped'⟩ => by
    obtain ⟨ts, inner⟩ := Expr.Grouped.spelled (e := v) grouped
    obtain ⟨us, others⟩ := fieldsGrouped_spelled k grouped'
    have first : Spelled (FieldInit.mk n span v).yield (Kind.ident.anywhere n :: Kind.colon.anywhere :: ts) :=
      .sign (s := .name n) (l := Kind.ident.anywhere n) ⟨rfl, rfl⟩ (.sign (l := Kind.colon.anywhere) rfl inner)
    exact ⟨_, first.listed_more (show Kind.comma.anywhere.kind = .comma from rfl) others⟩

end

/-! ## Reading by precedence -/

/-- An expression is read as a grouped tree of exactly the tokens taken, but for commas that trail. Conversely every
    grouped tree has tokens, and is read from them if an expression ends behind them. -/
theorem parse_precedence :
    (∀ (n : Nat) (ls rest : List Lexeme) (e : Expr), Parser.expr n 0 ls = .ok (e, rest) →
      ∃ ts, ls = ts ++ rest ∧ Spelled e.yield ts ∧ e.Grouped) ∧
    ∀ e : Expr, e.Grouped → (∃ ts, Spelled e.yield ts) ∧
      ∀ (ts rest : List Lexeme) (stop : Lexeme) (n : Nat), Spelled e.yield ts → endsExpr stop.kind = true →
        Parser.depthBound ts.length ≤ n →
          ∃ e', Parser.expr n 0 (ts ++ stop :: rest) = .ok (e', stop :: rest) ∧ e'.bare = e.bare := by
  constructor
  · intro n ls rest e read
    obtain ⟨ts, taken, derived, -⟩ := (Parser.exprSound n).expr read
    obtain ⟨spelled, grouped, -⟩ := derived.grouped
    exact ⟨ts, taken, spelled, grouped⟩
  · intro e grouped
    refine ⟨grouped.spelled, fun ts rest stop n spelled ends bound => ?_⟩
    obtain ⟨e', derives, bare⟩ := grouped.derives spelled
    have ended : EndedAt 0 (stop :: rest) := by
      refine .of_kind rfl ?_ 0
      rw [Parser.look_cons]
      generalize stop.kind = k at ends
      cases k <;> simp_all [endsExpr, Parser.endsReturn]
    have room : 16 * ts.length ≤ n + 6 := by
      unfold Parser.depthBound at bound
      omega
    exact ⟨e', (derives.expression 0 (Nat.zero_le _)).reads n _ room ended, bare⟩

/-- Tighter operators and a trailing comma: `-a + b * f(c,)`. -/
theorem parse_precedence_mixed : ∃ ts e', ts = [Kind.minus.anywhere, Kind.ident.anywhere "a", Kind.plus.anywhere,
      Kind.ident.anywhere "b", Kind.star.anywhere, Kind.ident.anywhere "f", Kind.lparen.anywhere, Kind.ident.anywhere "c",
      Kind.comma.anywhere, Kind.rparen.anywhere] ∧
    Parser.expr 200 0 (ts ++ [Kind.kwElse.anywhere]) = .ok (e', [Kind.kwElse.anywhere]) ∧
      e'.bare = .binary {} .add (.unary {} .neg (.ident {} "a"))
        (.binary {} .mul (.ident {} "b") (.call {} (.ident {} "f") [.ident {} "c"])) := by
  have grouped : (Expr.binary {} .add (.unary {} .neg (.ident {} "a"))
      (.binary {} .mul (.ident {} "b") (.call {} (.ident {} "f") [.ident {} "c"]))).Grouped := by
    simp [Expr.Grouped, exprsGrouped, Expr.level, BinaryOp.Known, UnaryOp.kind]
  have name (n : String) : (Sign.variable n).IsAt (Kind.ident.anywhere n) := .inl ⟨rfl, rfl⟩
  have spelled : Spelled _ _ := .sign (s := .fixed .minus) (l := Kind.minus.anywhere) rfl <| .sign (name "a") <|
    .sign (s := .fixed .plus) (l := Kind.plus.anywhere) rfl <| .sign (name "b") <|
    .sign (s := .fixed .star) (l := Kind.star.anywhere) rfl <| .sign (name "f") <|
    .sign (s := .fixed .lparen) (l := Kind.lparen.anywhere) rfl <| .sign (name "c") <|
    .trailing (show Kind.comma.anywhere.kind = .comma from rfl) (show Kind.rparen.anywhere.kind = .rparen from rfl) .nil
  obtain ⟨e', read, bare⟩ := (parse_precedence.2 _ grouped).2 _ [] Kind.kwElse.anywhere 200 spelled rfl (by decide)
  exact ⟨_, e', rfl, read, bare⟩

end PineLang
