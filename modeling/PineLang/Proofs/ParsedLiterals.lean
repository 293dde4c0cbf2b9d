import PineLang.Proofs.ParserSound
import PineLang.Proofs.Sites
import PineLang.Proofs.Spelling

/-!
# Literals of a tree

Every literal of a parsed tree is a literal of its source: there is a lexeme of which the literal has the value and the span
(`parsed_literals`). The grammar says so of each derivation, since it makes literals of single lexemes only.
-/
namespace PineLang

/-- The expression is a literal of a number, a text or a constant of the language. -/
def Expr.isLit : Expr → Bool
  | .lit _ _ => true
  | _ => false

namespace Grammar

variable {R : Expr → Prop}

/-- What the lexemes are by themselves has the property. -/
def Yields (R : Expr → Prop) (ts : List Lexeme) : Prop := ∀ l ∈ ts, ∀ e, leaf? l = some e → R e

@[simp] theorem yields_cons {l : Lexeme} {ts : List Lexeme} :
    Yields R (l :: ts) ↔ (∀ e, leaf? l = some e → R e) ∧ Yields R ts := List.forall_mem_cons

@[simp] theorem yields_append {ts us : List Lexeme} : Yields R (ts ++ us) ↔ Yields R ts ∧ Yields R us := List.forall_mem_append

/-- The literals among the expressions have the property. -/
def Literals (R : Expr → Prop) (parts : List Expr) : Prop := ∀ p ∈ parts, p.isLit = true → R p

theorem literals_nil : Literals R [] := List.forall_mem_nil _

/-- The parts of an expression that is no literal are no literals but in what it consists of. -/
theorem literals_cons {e : Expr} {parts : List Expr} (other : e.isLit = false) (inner : Literals R parts) : Literals R (e :: parts) := by
  refine List.forall_mem_cons.mpr ⟨fun isLit => ?_, inner⟩
  rw [other] at isLit
  cases isLit

theorem literals_append {parts more : List Expr} (first : Literals R parts) (second : Literals R more) :
    Literals R (parts ++ more) := List.forall_mem_append.mpr ⟨first, second⟩

/-! ## Expressions -/

theorem leaf_literals {l : Lexeme} {e : Expr} (isLeaf : leaf? l = some e) (yields : Yields R [l]) : Literals R e.parts := by
  have itself : R e := (yields_cons.mp yields).1 e isLeaf
  unfold leaf? at isLeaf
  split at isLeaf
  all_goals cases isLeaf
  all_goals exact List.forall_mem_singleton.mpr fun _ => itself

mutual

theorem Expression.literals {least : Nat} {ts : List Lexeme} {e : Expr} :
    Expression least ts e → Yields R ts → Literals R e.parts
  | .operand inner, yields => inner.literals yields
  | .binary lhs isOp _ rhs, yields => by
    rw [yields_append, yields_cons] at yields
    exact literals_cons rfl (literals_append (lhs.literals yields.1) (rhs.literals yields.2.2))
  | .assign lhs isTarget isAssign _ rhs, yields => by
    rw [yields_append, yields_cons] at yields
    exact literals_cons rfl (literals_append (lhs.literals yields.1) (rhs.literals yields.2.2))

theorem Prefixed.literals {ts : List Lexeme} {e : Expr} : Prefixed ts e → Yields R ts → Literals R e.parts
  | .plain inner, yields => inner.literals yields
  | .sign isOp inner, yields => by
    rw [yields_cons] at yields
    exact literals_cons rfl (inner.literals yields.2)

theorem Postfixed.literals {ts : List Lexeme} {e : Expr} : Postfixed ts e → Yields R ts → Literals R e.parts
  | .plain inner, yields => inner.literals yields
  | .call callee opens inner closes, yields => by
    rw [yields_append, yields_cons, yields_append] at yields
    exact literals_cons rfl (literals_append (callee.literals yields.1) (inner.literals yields.2.2.1))
  | .member target isPoint isName, yields => by
    rw [yields_append] at yields
    exact literals_cons rfl (target.literals yields.1)

theorem Primary.literals {ts : List Lexeme} {e : Expr} : Primary ts e → Yields R ts → Literals R e.parts
  | .leaf isLeaf, yields => leaf_literals isLeaf yields
  | .group opens inner closes, yields => by
    rw [yields_cons, yields_append] at yields
    exact literals_cons rfl (inner.literals yields.2.1)
  | .literal isName opens inner closes, yields => by
    rw [yields_cons, yields_cons, yields_append] at yields
    exact literals_cons rfl (inner.literals yields.2.2.1)

theorem Arguments.literals {ts : List Lexeme} {es : List Expr} : Arguments ts es → Yields R ts → Literals R (exprsParts es)
  | .none, _ => literals_nil
  | .last arg, yields => literals_append (arg.literals yields) literals_nil
  | .more arg isComma rest, yields => by
    rw [yields_append, yields_cons] at yields
    exact literals_append (arg.literals yields.1) (rest.literals yields.2.2)

theorem Inits.literals {ts : List Lexeme} {fs : List FieldInit} : Inits ts fs → Yields R ts → Literals R (fieldsParts fs)
  | .none, _ => literals_nil
  | .last isName isColon value, yields => by
    rw [yields_cons, yields_cons] at yields
    exact literals_append (value.literals yields.2.2) literals_nil
  | .more isName isColon value isComma rest, yields => by
    rw [yields_cons, yields_cons, yields_append, yields_cons] at yields
    exact literals_append (value.literals yields.2.2.1) (rest.literals yields.2.2.2.2)

end

/-! ## Statements -/

/-- The literals of the expressions of a statement have the property. -/
def StmtLiterals (R : Expr → Prop) (s : Stmt) : Prop := ∀ e ∈ s.exprs, Literals R e.parts

/-- So have those of the statements at the sites. -/
def SiteLiterals (R : Expr → Prop) (sites : List Site) : Prop := ∀ site ∈ sites, StmtLiterals R site.stmt

mutual

theorem Statement.literals {nearest closed opened : Bool} {ts : List Lexeme} {s : Stmt} :
    Statement nearest ts s closed opened → Yields R ts → StmtLiterals R s ∧ ∀ scope, SiteLiterals R (s.sites scope)
  | .only isIf cond isColon first, yields => by
    rw [yields_cons, yields_append, yields_cons] at yields
    refine ⟨List.forall_mem_singleton.mpr (cond.literals yields.2.1), fun scope => ?_⟩
    rw [Stmt.sites, elseSites, List.append_nil]
    exact first.literals yields.2.2.2 scope
  | .both isIf cond isColon first _ isElse isColon' second, yields => by
    rw [yields_cons, yields_append, yields_cons, yields_append, yields_cons, yields_cons] at yields
    refine ⟨List.forall_mem_singleton.mpr (cond.literals yields.2.1), fun scope => ?_⟩
    rw [Stmt.sites, elseSites]
    exact List.forall_mem_append.mpr ⟨first.literals yields.2.2.2.1 scope, second.literals yields.2.2.2.2.2.2 scope⟩
  | .chain isIf cond isColon first _ isElse second, yields => by
    rw [yields_cons, yields_append, yields_cons, yields_append, yields_cons] at yields
    obtain ⟨own, inner⟩ := second.literals yields.2.2.2.2.2
    refine ⟨List.forall_mem_singleton.mpr (cond.literals yields.2.1), fun scope => ?_⟩
    rw [Stmt.sites, elseSites, Body.sites, stmtSites, stmtSites, List.append_nil]
    exact List.forall_mem_append.mpr ⟨first.literals yields.2.2.2.1 scope, List.forall_mem_cons.mpr ⟨own, inner scope⟩⟩
  | .bare isReturn, _ => ⟨List.forall_mem_nil _, fun _ => nofun⟩
  | .value isReturn inner, yields => by
    rw [yields_cons] at yields
    exact ⟨List.forall_mem_singleton.mpr (inner.literals yields.2), fun _ => nofun⟩
  | .leave isBreak, _ => ⟨List.forall_mem_nil _, fun _ => nofun⟩
  | .loop isLoop isColon inner, yields => by
    rw [yields_cons, yields_cons] at yields
    refine ⟨List.forall_mem_nil _, fun scope => ?_⟩
    rw [Stmt.sites]
    exact inner.literals yields.2.2 scope
  | .bind isLet isName isColon isType isAssign inner, yields => by
    rw [yields_cons, yields_cons, yields_cons, yields_cons, yields_cons] at yields
    exact ⟨List.forall_mem_singleton.mpr (inner.literals yields.2.2.2.2.2), fun _ => nofun⟩
  | .empty isUnderscore, _ => ⟨List.forall_mem_nil _, fun _ => nofun⟩
  | .expr inner, yields => ⟨List.forall_mem_singleton.mpr (inner.literals yields), fun _ => nofun⟩

theorem Block.literals {nearest closed opened : Bool} {ts : List Lexeme} {b : Body} :
    Block nearest ts b closed opened → Yields R ts → ∀ scope, SiteLiterals R (b.sites scope)
  | .line inner, yields => by
    obtain ⟨own, sites⟩ := inner.literals yields
    intro scope
    rw [Body.sites, stmtSites, stmtSites, List.append_nil]
    exact List.forall_mem_cons.mpr ⟨own, sites scope⟩
  | .indented isBreak isIndent inner, yields => by
    rw [yields_cons, yields_cons] at yields
    exact inner.literals yields.2.2

theorem Lines.literals {nearest : Bool} {ts : List Lexeme} {ss : List Stmt} :
    Lines nearest ts ss → Yields R ts → ∀ scope, SiteLiterals R (stmtSites scope ss)
  | .last inner ends isDedent, yields => by
    rw [yields_append] at yields
    obtain ⟨own, sites⟩ := inner.literals yields.1
    intro scope
    rw [stmtSites, stmtSites, List.append_nil]
    exact List.forall_mem_cons.mpr ⟨own, sites scope⟩
  | .more inner ends rest, yields => by
    rw [yields_append, yields_append] at yields
    obtain ⟨own, sites⟩ := inner.literals yields.1
    intro scope
    rw [stmtSites]
    exact List.forall_mem_cons.mpr ⟨own, List.forall_mem_append.mpr ⟨sites scope, rest.literals yields.2.2 _⟩⟩

end

/-! ## Declarations -/

theorem Declaration.literals {nearest closed : Bool} {ts : List Lexeme} {i : Item} :
    Declaration nearest ts i closed → Yields R ts → SiteLiterals R i.sites
  | .fn isFun isName opens fields closes isArrow isType isColon inner, yields => by
    rw [yields_cons, yields_cons, yields_cons, yields_append, yields_cons, yields_cons, yields_cons, yields_cons] at yields
    obtain ⟨-, -, -, -, -, -, -, -, body⟩ := yields
    exact inner.literals body _
  | .indented _ _ _ _ _ _, _ => List.forall_mem_nil _
  | .braced _ _ _ _ _, _ => List.forall_mem_nil _

theorem Declarations.literals {nearest : Bool} {ts : List Lexeme} {is : List Item} :
    Declarations nearest ts is → Yields R ts → SiteLiterals R (is.flatMap Item.sites)
  | .none, _ => List.forall_mem_nil _
  | .skip isBreak rest, yields => rest.literals (yields_cons.mp yields).2
  | .more inner ends rest, yields => by
    rw [yields_append, yields_append] at yields
    rw [List.flatMap_cons]
    exact List.forall_mem_append.mpr ⟨inner.literals yields.1, rest.literals yields.2.2⟩

end Grammar

/-- A literal of a parsed file is a lexeme of its source. -/
theorem parsed_literals {file : Nat} {content : Bytes} {tree : File} (parsed : parse (lexemes file content) = .ok tree)
    {site : Site} (member : site ∈ tree.sites) {e : Expr} (inside : e ∈ site.stmt.exprs) {span : Span} {v : Literal}
    (isPart : .lit span v ∈ e.parts) : ∃ l ∈ lexemes file content, Grammar.leaf? l = some (.lit span v) := by
  unfold parse at parsed
  split at parsed
  · cases parsed
  · next items rest read =>
    obtain ⟨-, ts, taken, derived⟩ := Parser.items_sound read
    cases parsed
    have yields : Grammar.Yields (fun e => ∃ l ∈ lexemes file content, Grammar.leaf? l = some e) ts := by
      intro l isLexeme e isLeaf
      exact ⟨l, by rw [taken]; exact List.mem_append_left _ isLexeme, isLeaf⟩
    exact derived.literals yields site member e inside _ isPart rfl

/-- A string of a parsed file is a string token of its source, with the same text and span. -/
theorem parsed_string {file : Nat} {content : Bytes} {tree : File} (parsed : parse (lexemes file content) = .ok tree)
    {site : Site} (member : site ∈ tree.sites) {e : Expr} (inside : e ∈ site.stmt.exprs) {span : Span} {s : String}
    (isPart : .lit span (.string s) ∈ e.parts) :
    ∃ t, .token t ∈ lexemes file content ∧ t.kind = .stringLit ∧ t.span = span ∧ t.text = s := by
  obtain ⟨l, isLexeme, isLeaf⟩ := parsed_literals parsed member inside isPart
  unfold Grammar.leaf? at isLeaf
  split at isLeaf
  case h_5 isString =>
    cases isLeaf
    cases l with
    | token t => exact ⟨t, isLexeme, isString, rfl, rfl⟩
    | error e earlier => cases isString
  all_goals cases isLeaf

end PineLang
