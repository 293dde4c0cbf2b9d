import PineLang.Proofs.ParserSound
import PineLang.Proofs.UsedNames
import PineLang.Proofs.WordNames

/-!
What the parser makes sure of in every tree it returns, apart from the spans: the names are words of C, as
those of the source are, and only variables and fields are assigned to. The grammar says so of each
derivation, whatever the lexemes are (`Grammar.Expression.wellNamed`, `Grammar.Statement.wellNamed`).
-/
namespace PineLang

/-- The names that the expression uses itself are words, and if it assigns, then to a variable or a field. -/
structure Expr.WellNamed (e : Expr) : Prop where
  names : ∀ n ∈ e.own, C.isWord n = true
  target : ∀ s a b, e = .assign s a b → Grammar.Target a

/-- The name that the statement binds is a word, and its expressions use words. -/
structure Stmt.WellNamed (s : Stmt) : Prop where
  binding : ∀ x t v, s.binding? = some (x, t, v) → C.isWord x = true
  parts : ∀ e ∈ s.exprs, ∀ p ∈ e.parts, p.WellNamed

/-- The names that the item declares and uses are words. -/
def Item.WellNamed : Item → Prop
  | .fn d => C.isWord d.name = true ∧ (∀ p ∈ d.params, C.isWord p.name = true) ∧ ∀ site ∈ d.sites, site.stmt.WellNamed
  | .struct d => C.isWord d.name = true ∧ ∀ p ∈ d.fields, C.isWord p.name = true
  | _ => True

namespace Grammar

/-- The names among the lexemes are words. -/
def Named (ts : List Lexeme) : Prop := ∀ l ∈ ts, l.kind = .ident → C.isWord l.text = true

@[simp] theorem named_cons {l : Lexeme} {ts : List Lexeme} :
    Named (l :: ts) ↔ (l.kind = .ident → C.isWord l.text = true) ∧ Named ts := List.forall_mem_cons

@[simp] theorem named_append {ts us : List Lexeme} : Named (ts ++ us) ↔ Named ts ∧ Named us := List.forall_mem_append

/-! ## Expressions -/

/-- An expression that neither names anything itself nor assigns. -/
theorem wellNamed_of_own {e : Expr} (none : e.own = []) (other : ∀ s a b, e ≠ .assign s a b) : e.WellNamed where
  names := by simp [none]
  target s a b same := absurd same (other s a b)

theorem leaf_wellNamed {l : Lexeme} {e : Expr} (isLeaf : leaf? l = some e) (named : Named [l]) : ∀ p ∈ e.parts, p.WellNamed := by
  have name {n : String} (word : C.isWord n = true) : ∀ p ∈ (Expr.ident l.span n).parts, p.WellNamed := by
    refine List.forall_mem_singleton.mpr ⟨?_, by simp⟩
    rw [Expr.own, List.forall_mem_singleton]
    exact word
  unfold leaf? at isLeaf
  split at isLeaf
  · next isName =>
    cases isLeaf
    exact name ((named_cons.mp named).1 isName)
  · cases isLeaf
    exact name (by decide)
  all_goals
    cases isLeaf
  all_goals
    exact List.forall_mem_singleton.mpr (wellNamed_of_own rfl (by simp))

mutual

theorem Expression.wellNamed {least : Nat} {ts : List Lexeme} {e : Expr} :
    Expression least ts e → Named ts → ∀ p ∈ e.parts, p.WellNamed
  | .operand inner, named => inner.wellNamed named
  | .binary lhs isOp _ rhs, named => by
    rw [named_append, named_cons] at named
    rw [Expr.parts, List.forall_mem_cons, List.forall_mem_append]
    exact ⟨wellNamed_of_own rfl nofun, lhs.wellNamed named.1, rhs.wellNamed named.2.2⟩
  | .assign lhs isTarget isAssign _ rhs, named => by
    rw [named_append, named_cons] at named
    rw [Expr.parts, List.forall_mem_cons, List.forall_mem_append]
    refine ⟨⟨nofun, ?_⟩, lhs.wellNamed named.1, rhs.wellNamed named.2.2⟩
    rintro s a b ⟨⟩
    exact isTarget

theorem Prefixed.wellNamed {ts : List Lexeme} {e : Expr} : Prefixed ts e → Named ts → ∀ p ∈ e.parts, p.WellNamed
  | .plain inner, named => inner.wellNamed named
  | .sign isOp inner, named => by
    rw [named_cons] at named
    rw [Expr.parts, List.forall_mem_cons]
    exact ⟨wellNamed_of_own rfl nofun, inner.wellNamed named.2⟩

theorem Postfixed.wellNamed {ts : List Lexeme} {e : Expr} : Postfixed ts e → Named ts → ∀ p ∈ e.parts, p.WellNamed
  | .plain inner, named => inner.wellNamed named
  | .call callee opens inner closes, named => by
    rw [named_append, named_cons, named_append] at named
    rw [Expr.parts, List.forall_mem_cons, List.forall_mem_append]
    exact ⟨wellNamed_of_own rfl nofun, callee.wellNamed named.1, inner.wellNamed named.2.2.1⟩
  | .member target isPoint isName, named => by
    rw [named_append, named_cons, named_cons] at named
    rw [Expr.parts, List.forall_mem_cons]
    refine ⟨⟨?_, nofun⟩, target.wellNamed named.1⟩
    rw [Expr.own, List.forall_mem_singleton]
    exact named.2.2.1 isName

theorem Primary.wellNamed {ts : List Lexeme} {e : Expr} : Primary ts e → Named ts → ∀ p ∈ e.parts, p.WellNamed
  | .leaf isLeaf, named => leaf_wellNamed isLeaf named
  | .group opens inner closes, named => by
    rw [named_cons, named_append] at named
    rw [Expr.parts, List.forall_mem_cons]
    exact ⟨wellNamed_of_own rfl nofun, inner.wellNamed named.2.1⟩
  | .literal isName opens inner closes, named => by
    rw [named_cons, named_cons, named_append] at named
    rw [Expr.parts, List.forall_mem_cons]
    exact ⟨wellNamed_of_own rfl nofun, inner.wellNamed named.2.2.1⟩

theorem Arguments.wellNamed {ts : List Lexeme} {es : List Expr} :
    Arguments ts es → Named ts → ∀ p ∈ exprsParts es, p.WellNamed
  | .none, _ => List.forall_mem_nil _
  | .last arg, named => by
    rw [exprsParts, exprsParts, List.append_nil]
    exact arg.wellNamed named
  | .more arg isComma rest, named => by
    rw [named_append, named_cons] at named
    rw [exprsParts, List.forall_mem_append]
    exact ⟨arg.wellNamed named.1, rest.wellNamed named.2.2⟩

theorem Inits.wellNamed {ts : List Lexeme} {fs : List FieldInit} :
    Inits ts fs → Named ts → ∀ p ∈ fieldsParts fs, p.WellNamed
  | .none, _ => List.forall_mem_nil _
  | .last isName isColon value, named => by
    rw [named_cons, named_cons] at named
    rw [fieldsParts, fieldsParts, List.append_nil]
    exact value.wellNamed named.2.2
  | .more isName isColon value isComma rest, named => by
    rw [named_cons, named_cons, named_append, named_cons] at named
    rw [fieldsParts, List.forall_mem_append]
    exact ⟨value.wellNamed named.2.2.1, rest.wellNamed named.2.2.2.2⟩

end

/-! ## Statements -/

/-- A statement that binds nothing, with a single expression of its own. -/
theorem wellNamed_of_expr {s : Stmt} {e : Expr} (unbound : s.binding? = none) (only : s.exprs = [e])
    (parts : ∀ p ∈ e.parts, p.WellNamed) : s.WellNamed where
  binding x t v bound := by
    rw [unbound] at bound
    cases bound
  parts := by
    rw [only]
    exact List.forall_mem_singleton.mpr parts

/-- A statement that binds nothing and has no expression of its own. -/
theorem wellNamed_of_bare {s : Stmt} (unbound : s.binding? = none) (none : s.exprs = []) : s.WellNamed where
  binding x t v bound := by
    rw [unbound] at bound
    cases bound
  parts := by simp [none]

mutual

theorem Statement.wellNamed {nearest closed opened : Bool} {ts : List Lexeme} {s : Stmt} :
    Statement nearest ts s closed opened → Named ts → s.WellNamed ∧ ∀ scope, ∀ site ∈ s.sites scope, site.stmt.WellNamed
  | .only isIf cond isColon first, named => by
    rw [named_cons, named_append, named_cons] at named
    refine ⟨wellNamed_of_expr rfl rfl (cond.wellNamed named.2.1), fun scope => ?_⟩
    rw [Stmt.sites, elseSites, List.append_nil]
    exact first.wellNamed named.2.2.2 scope
  | .both isIf cond isColon first _ isElse isColon' second, named => by
    rw [named_cons, named_append, named_cons, named_append, named_cons, named_cons] at named
    refine ⟨wellNamed_of_expr rfl rfl (cond.wellNamed named.2.1), fun scope => ?_⟩
    rw [Stmt.sites, elseSites, List.forall_mem_append]
    exact ⟨first.wellNamed named.2.2.2.1 scope, second.wellNamed named.2.2.2.2.2.2 scope⟩
  | .chain isIf cond isColon first _ isElse second, named => by
    rw [named_cons, named_append, named_cons, named_append, named_cons] at named
    obtain ⟨own, inner⟩ := second.wellNamed named.2.2.2.2.2
    refine ⟨wellNamed_of_expr rfl rfl (cond.wellNamed named.2.1), fun scope => ?_⟩
    rw [Stmt.sites, elseSites, Body.sites, stmtSites, stmtSites, List.append_nil, List.forall_mem_append, List.forall_mem_cons]
    exact ⟨first.wellNamed named.2.2.2.1 scope, own, inner scope⟩
  | .bare isReturn, _ => ⟨wellNamed_of_bare rfl rfl, fun _ => nofun⟩
  | .value isReturn inner, named => by
    rw [named_cons] at named
    exact ⟨wellNamed_of_expr rfl rfl (inner.wellNamed named.2), fun _ => nofun⟩
  | .leave isBreak, _ => ⟨wellNamed_of_bare rfl rfl, fun _ => nofun⟩
  | .loop isLoop isColon inner, named => by
    rw [named_cons, named_cons] at named
    refine ⟨wellNamed_of_bare rfl rfl, fun scope => ?_⟩
    rw [Stmt.sites]
    exact inner.wellNamed named.2.2 scope
  | .bind isLet isName isColon isType isAssign inner, named => by
    rw [named_cons, named_cons, named_cons, named_cons, named_cons] at named
    refine ⟨⟨?_, List.forall_mem_singleton.mpr (inner.wellNamed named.2.2.2.2.2)⟩, fun _ => nofun⟩
    rintro x t v ⟨⟩
    exact named.2.1 isName
  | .empty isUnderscore, _ => ⟨wellNamed_of_bare rfl rfl, fun _ => nofun⟩
  | .expr inner, named => ⟨wellNamed_of_expr rfl rfl (inner.wellNamed named), fun _ => nofun⟩

theorem Block.wellNamed {nearest closed opened : Bool} {ts : List Lexeme} {b : Body} :
    Block nearest ts b closed opened → Named ts → ∀ scope, ∀ site ∈ b.sites scope, site.stmt.WellNamed
  | .line inner, named => by
    obtain ⟨own, sites⟩ := inner.wellNamed named
    intro scope
    rw [Body.sites, stmtSites, stmtSites, List.append_nil, List.forall_mem_cons]
    exact ⟨own, sites scope⟩
  | .indented isBreak isIndent inner, named => by
    rw [named_cons, named_cons] at named
    exact inner.wellNamed named.2.2

theorem Lines.wellNamed {nearest : Bool} {ts : List Lexeme} {ss : List Stmt} :
    Lines nearest ts ss → Named ts → ∀ scope, ∀ site ∈ stmtSites scope ss, site.stmt.WellNamed
  | .last inner ends isDedent, named => by
    rw [named_append] at named
    obtain ⟨own, sites⟩ := inner.wellNamed named.1
    intro scope
    rw [stmtSites, stmtSites, List.append_nil, List.forall_mem_cons]
    exact ⟨own, sites scope⟩
  | .more inner ends rest, named => by
    rw [named_append, named_append] at named
    obtain ⟨own, sites⟩ := inner.wellNamed named.1
    intro scope
    rw [stmtSites, List.forall_mem_cons, List.forall_mem_append]
    exact ⟨own, sites scope, rest.wellNamed named.2.2 _⟩

end

/-! ## Declarations -/

theorem Field.wellNamed {ts : List Lexeme} {p : Param} : Field ts p → Named ts → C.isWord p.name = true
  | .mk isName _ _, named => (named_cons.mp named).1 isName

theorem Params.wellNamed {ts : List Lexeme} {ps : List Param} : Params ts ps → Named ts → ∀ p ∈ ps, C.isWord p.name = true
  | .last field, named => List.forall_mem_singleton.mpr (field.wellNamed named)
  | .more field isComma rest, named => by
    rw [named_append, named_cons] at named
    exact List.forall_mem_cons.mpr ⟨field.wellNamed named.1, rest.wellNamed named.2.2⟩

theorem FieldLines.wellNamed {ts : List Lexeme} {ps : List Param} :
    FieldLines ts ps → Named ts → ∀ p ∈ ps, C.isWord p.name = true
  | .last field ends isDedent, named => by
    rw [named_append] at named
    exact List.forall_mem_singleton.mpr (field.wellNamed named.1)
  | .more field ends rest, named => by
    rw [named_append, named_append] at named
    exact List.forall_mem_cons.mpr ⟨field.wellNamed named.1, rest.wellNamed named.2.2⟩

theorem BracedFields.wellNamed {ts : List Lexeme} {ps : List Param} :
    BracedFields ts ps → Named ts → ∀ p ∈ ps, C.isWord p.name = true
  | .none, _ => List.forall_mem_nil _
  | .last field, named => List.forall_mem_singleton.mpr (field.wellNamed named)
  | .more field isComma rest, named => by
    rw [named_append, named_cons] at named
    exact List.forall_mem_cons.mpr ⟨field.wellNamed named.1, rest.wellNamed named.2.2⟩

theorem ParamList.wellNamed {ts : List Lexeme} {ps : List Param} :
    ParamList ts ps → Named ts → ∀ p ∈ ps, C.isWord p.name = true
  | .none, _ => List.forall_mem_nil _
  | .some params, named => params.wellNamed named

theorem Declaration.wellNamed {nearest closed : Bool} {ts : List Lexeme} {i : Item} :
    Declaration nearest ts i closed → Named ts → i.WellNamed
  | .fn isFun isName opens fields closes isArrow isType isColon inner, named => by
    rw [named_cons, named_cons, named_cons, named_append, named_cons, named_cons, named_cons, named_cons] at named
    obtain ⟨-, name, -, params, -, -, -, -, body⟩ := named
    exact ⟨name isName, fields.wellNamed params, inner.wellNamed body _⟩
  | .indented isType isName isColon isBreak isIndent fields, named => by
    rw [named_cons, named_cons, named_cons, named_cons, named_cons] at named
    exact ⟨named.2.1 isName, fields.wellNamed named.2.2.2.2.2⟩
  | .braced isType isName opens fields closes, named => by
    rw [named_cons, named_cons, named_cons, named_append] at named
    exact ⟨named.2.1 isName, fields.wellNamed named.2.2.2.1⟩

theorem Declarations.wellNamed {nearest : Bool} {ts : List Lexeme} {is : List Item} :
    Declarations nearest ts is → Named ts → ∀ i ∈ is, i.WellNamed
  | .none, _ => List.forall_mem_nil _
  | .skip isBreak rest, named => rest.wellNamed (named_cons.mp named).2
  | .more inner ends rest, named => by
    rw [named_append, named_append] at named
    exact List.forall_mem_cons.mpr ⟨inner.wellNamed named.1, rest.wellNamed named.2.2⟩

end Grammar

/-- Names that are declared and used in a parsed file are words of C, and only variables and fields are
    assigned to. -/
theorem parsed_wellNamed {file : Nat} {content : Bytes} {tree : File} (parsed : parse (lexemes file content) = .ok tree) :
    ∀ i ∈ tree.items, i.WellNamed := by
  have named : Grammar.Named (lexemes file content) := name_word
  unfold parse at parsed
  split at parsed
  · cases parsed
  · next items rest read =>
    obtain ⟨-, ts, taken, derived⟩ := Parser.items_sound read
    cases parsed
    rw [taken, Grammar.named_append] at named
    exact derived.wellNamed named.1

end PineLang
