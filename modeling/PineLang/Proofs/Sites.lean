import PineLang.Check.Rules

/-!
What stands where in a file. The parts of an expression are the expressions inside it, itself
included; its identifiers are among them. The sites of a file are its statements, nested ones
included, each with the locals that are visible before it. The rules on a body are the rules on each
of its sites (`bodyRules_nil_iff`), and those on an expression only look for literals among its parts
(`exprRules_nil_iff`).
-/
namespace PineLang

/-! ## Parts of expressions -/

mutual

/-- The expression and the expressions inside it, in the order of the source. -/
@[simp] def Expr.parts : Expr → List Expr
  | .ident s n => [.ident s n]
  | .lit s v => [.lit s v]
  | .assign s a b => .assign s a b :: (a.parts ++ b.parts)
  | .call s f args => .call s f args :: (f.parts ++ exprsParts args)
  | .member s t f fs => .member s t f fs :: t.parts
  | .unary s op x => .unary s op x :: x.parts
  | .binary s op a b => .binary s op a b :: (a.parts ++ b.parts)
  | .group s x => .group s x :: x.parts
  | .structLit s n ns fs => .structLit s n ns fs :: fieldsParts fs
  | .absent id => [.absent id]
  | .hollow s k => [.hollow s k]

/-- The parts of expressions. -/
def exprsParts : List Expr → List Expr
  | [] => []
  | x :: xs => x.parts ++ exprsParts xs

/-- The parts of the value of one field of a literal. -/
def FieldInit.parts : FieldInit → List Expr
  | .mk _ _ v => v.parts

/-- The parts of the values of the fields of a literal. -/
def fieldsParts : List FieldInit → List Expr
  | [] => []
  | f :: fs => f.parts ++ fieldsParts fs

end

/-- The name of an identifier. -/
def Expr.ident? : Expr → Option String
  | .ident _ n => some n
  | _ => none

/-- The names that the identifiers among some expressions have. -/
def identsAmong (parts : List Expr) : List String := parts.filterMap Expr.ident?

/-- The identifiers of an expression, in the order of the source. -/
def Expr.idents (e : Expr) : List String := identsAmong e.parts

@[simp] theorem identsAmong_nil : identsAmong [] = [] := rfl

@[simp] theorem identsAmong_append (xs ys : List Expr) :
    identsAmong (xs ++ ys) = identsAmong xs ++ identsAmong ys := List.filterMap_append ..

/-- An expression is one of its parts. -/
theorem self_mem_parts (e : Expr) : e ∈ e.parts := by cases e <;> simp [Expr.parts]

/-! ## The checker's identifiers -/

namespace Check

mutual

/-- The checker's walk for identifiers comes upon the identifiers among the parts. -/
theorem identsIn_names : ∀ (e : Expr), (identsIn e).map (·.1) = identsAmong e.parts
  | .ident _ _ => rfl
  | .lit _ _ => rfl
  | .assign _ a b => by
    simp only [identsIn, List.map_append, identsIn_names a, identsIn_names b, Expr.parts]
    rw [← identsAmong_append]; rfl
  | .call _ f args => by
    simp only [identsIn, List.map_append, identsIn_names f, identsInAll_names args, Expr.parts]
    rw [← identsAmong_append]; rfl
  | .member _ t _ _ => identsIn_names t
  | .unary _ _ x => identsIn_names x
  | .binary _ _ a b => by
    simp only [identsIn, List.map_append, identsIn_names a, identsIn_names b, Expr.parts]
    rw [← identsAmong_append]; rfl
  | .group _ x => identsIn_names x
  | .structLit _ _ _ fs => identsInFields_names fs
  | .absent _ => rfl
  | .hollow _ _ => rfl

theorem identsInAll_names : ∀ (es : List Expr), (identsInAll es).map (·.1) = identsAmong (exprsParts es)
  | [] => rfl
  | x :: xs => by
    simp only [identsInAll, List.map_append, identsIn_names x, identsInAll_names xs, exprsParts, identsAmong_append]

theorem identsInField_names : ∀ (f : FieldInit), (identsInField f).map (·.1) = identsAmong f.parts
  | .mk _ _ v => identsIn_names v

theorem identsInFields_names : ∀ (fs : List FieldInit), (identsInFields fs).map (·.1) = identsAmong (fieldsParts fs)
  | [] => rfl
  | f :: fs => by
    simp only [identsInFields, List.map_append, identsInField_names f, identsInFields_names fs, fieldsParts,
      identsAmong_append]

end

/-! ## Literals -/

/-- No struct literal is among the expressions. -/
def NoLiteral (parts : List Expr) : Prop := ∀ s n ns fs, Expr.structLit s n ns fs ∉ parts

theorem noLiteral_append {xs ys : List Expr} : NoLiteral (xs ++ ys) ↔ NoLiteral xs ∧ NoLiteral ys := by
  simp only [NoLiteral, List.mem_append, not_or]
  constructor
  · intro none
    exact ⟨fun s n ns fs => (none s n ns fs).1, fun s n ns fs => (none s n ns fs).2⟩
  · rintro ⟨left, right⟩ s n ns fs
    exact ⟨left s n ns fs, right s n ns fs⟩

/-- A part that is no literal itself can be left out. -/
theorem noLiteral_cons {x : Expr} {xs : List Expr} (other : ∀ s n ns fs, x ≠ .structLit s n ns fs) :
    NoLiteral (x :: xs) ↔ NoLiteral xs := by
  simp only [NoLiteral, List.mem_cons, not_or]
  constructor
  · intro none s n ns fs
    exact (none s n ns fs).2
  · intro none s n ns fs
    exact ⟨fun same => other s n ns fs same.symm, none s n ns fs⟩

mutual

/-- The rules on an expression that is not the value of a binding: it has no literal. -/
theorem exprRules_nil_iff (scope : Scope) : ∀ (e : Expr), exprRules scope e = [] ↔ NoLiteral e.parts
  | .ident _ _ => by simp [exprRules, NoLiteral, Expr.parts]
  | .lit _ _ => by simp [exprRules, NoLiteral, Expr.parts]
  | .assign _ a b => by
    rw [exprRules, List.append_eq_nil_iff, exprRules_nil_iff scope a, exprRules_nil_iff scope b, Expr.parts,
      noLiteral_cons (by simp), noLiteral_append]
  | .call _ f args => by
    rw [exprRules, List.append_eq_nil_iff, exprRules_nil_iff scope f, exprsRules_nil_iff scope args, Expr.parts,
      noLiteral_cons (by simp), noLiteral_append]
  | .member _ t _ _ => by
    rw [exprRules, exprRules_nil_iff scope t, Expr.parts, noLiteral_cons (by simp)]
  | .unary _ _ x => by
    rw [exprRules, exprRules_nil_iff scope x, Expr.parts, noLiteral_cons (by simp)]
  | .binary _ _ a b => by
    rw [exprRules, List.append_eq_nil_iff, exprRules_nil_iff scope a, exprRules_nil_iff scope b, Expr.parts,
      noLiteral_cons (by simp), noLiteral_append]
  | .group _ x => by
    rw [exprRules, exprRules_nil_iff scope x, Expr.parts, noLiteral_cons (by simp)]
  | .structLit s n ns fs => by
    simp only [exprRules, List.cons_append, reduceCtorEq, false_iff]
    intro none
    exact none s n ns fs (self_mem_parts _)
  | .absent _ => by simp [exprRules, NoLiteral, Expr.parts]
  | .hollow _ _ => by simp [exprRules, NoLiteral, Expr.parts]

theorem exprsRules_nil_iff (scope : Scope) : ∀ (es : List Expr),
    exprsRules scope es = [] ↔ NoLiteral (exprsParts es)
  | [] => by simp [exprsRules, NoLiteral, exprsParts]
  | x :: xs => by
    rw [exprsRules, List.append_eq_nil_iff, exprRules_nil_iff scope x, exprsRules_nil_iff scope xs, exprsParts,
      noLiteral_append]

theorem valueRules_nil_iff (scope : Scope) : ∀ (f : FieldInit), valueRules scope f = [] ↔ NoLiteral f.parts
  | .mk _ _ v => by rw [valueRules, exprRules_nil_iff scope v, FieldInit.parts]

theorem valuesRules_nil_iff (scope : Scope) : ∀ (fs : List FieldInit),
    valuesRules scope fs = [] ↔ NoLiteral (fieldsParts fs)
  | [] => by simp [valuesRules, NoLiteral, fieldsParts]
  | f :: fs => by
    rw [valuesRules, List.append_eq_nil_iff, valueRules_nil_iff scope f, valuesRules_nil_iff scope fs, fieldsParts,
      noLiteral_append]

end

end Check

/-! ## Sites -/

/-- A statement, and the locals that are visible before it, innermost first. -/
structure Site where
  scope : List String
  stmt : Stmt

/-- The locals that a statement adds for those after it. -/
def Stmt.declared : Stmt → List String
  | .bind _ n _ _ _ => [n]
  | _ => []

/-- The expressions that stand in a statement itself, not in the statements inside it. -/
@[grind =] def Stmt.exprs : Stmt → List Expr
  | .expr _ x => [x]
  | .cond _ t _ _ => [t]
  | .ret _ (some x) => [x]
  | .bind _ _ _ _ v => [v]
  | _ => []

mutual

/-- The sites inside a statement. -/
def Stmt.sites (scope : List String) : Stmt → List Site
  | .block _ ss => stmtSites scope ss
  | .cond _ _ yes no => yes.sites scope ++ elseSites scope no
  | .loop _ b => b.sites scope
  | _ => []

/-- The sites of a body. -/
def Body.sites (scope : List String) : Body → List Site
  | .block _ ss => stmtSites scope ss
  | .stray _ s => ⟨scope, s⟩ :: s.sites scope

/-- The sites of an optional branch. -/
def elseSites (scope : List String) : Option Body → List Site
  | none => []
  | some b => b.sites scope

/-- The sites of statements. What one declares, those after it see. -/
def stmtSites (scope : List String) : List Stmt → List Site
  | [] => []
  | s :: ss => ⟨scope, s⟩ :: (s.sites scope ++ stmtSites (s.declared ++ scope) ss)

end

/-- The locals that the parameters of a function make, the last one innermost. -/
def paramScope (names : List String) : List String := names.reverse

/-- The sites of a function. -/
def FnDecl.sites (d : FnDecl) : List Site := d.body.sites (paramScope (d.params.map (·.name)))

/-- The sites of an item. -/
def Item.sites : Item → List Site
  | .fn d => d.sites
  | _ => []

/-- The sites of a file. -/
def File.sites (f : File) : List Site := f.items.flatMap Item.sites

theorem mem_fileSites {f : File} {site : Site} : site ∈ f.sites ↔ ∃ d, Item.fn d ∈ f.items ∧ site ∈ d.sites := by
  unfold File.sites
  rw [List.mem_flatMap]
  constructor
  · rintro ⟨i, member, inside⟩
    cases i with
    | fn d => exact ⟨d, member, inside⟩
    | _ => cases inside
  · rintro ⟨d, member, inside⟩
    exact ⟨_, member, inside⟩

/-! ## The locals of a site -/

/-- Each local is one of those given or is declared at some site. -/
def ScopeFrom (scope : List String) (sites : List Site) : Prop :=
  ∀ site ∈ sites, ∀ n ∈ site.scope, n ∈ scope ∨ ∃ other ∈ sites, n ∈ other.stmt.declared

theorem ScopeFrom.append {scope : List String} {xs ys : List Site} (left : ScopeFrom scope xs)
    (right : ScopeFrom scope ys) : ScopeFrom scope (xs ++ ys) := by
  intro site member n visible
  rcases List.mem_append.mp member with inLeft | inRight
  · rcases left site inLeft n visible with given | ⟨other, inside, declared⟩
    · exact .inl given
    · exact .inr ⟨other, List.mem_append_left _ inside, declared⟩
  · rcases right site inRight n visible with given | ⟨other, inside, declared⟩
    · exact .inl given
    · exact .inr ⟨other, List.mem_append_right _ inside, declared⟩

/-- Sites that come after a first one may see what it declares. -/
theorem ScopeFrom.cons {scope : List String} {s : Stmt} {sites : List Site}
    (rest : ScopeFrom (s.declared ++ scope) sites) : ScopeFrom scope (⟨scope, s⟩ :: sites) := by
  intro site member n visible
  rcases List.mem_cons.mp member with rfl | inside
  · exact .inl visible
  · rcases rest site inside n visible with given | ⟨other, inside', declared⟩
    · rcases List.mem_append.mp given with here | outside
      · exact .inr ⟨_, List.mem_cons_self .., here⟩
      · exact .inl outside
    · exact .inr ⟨other, List.mem_cons_of_mem _ inside', declared⟩

theorem ScopeFrom.weaken {scope more : List String} {sites : List Site} (from' : ScopeFrom scope sites) :
    ScopeFrom (more ++ scope) sites := by
  intro site member n visible
  exact (from' site member n visible).imp_left (List.mem_append_right more)

mutual

theorem Stmt.scopeFrom (scope : List String) : ∀ (s : Stmt), ScopeFrom scope (s.sites scope)
  | .block _ ss => stmts_scopeFrom scope ss
  | .cond _ _ yes no => (yes.scopeFrom scope).append (else_scopeFrom scope no)
  | .loop _ b => b.scopeFrom scope
  | .expr _ _ | .ret _ _ | .brk _ | .bind _ _ _ _ _ | .empty _ | .absent _ | .hollow _ _ => by
    simp [Stmt.sites, ScopeFrom]

theorem Body.scopeFrom (scope : List String) : ∀ (b : Body), ScopeFrom scope (b.sites scope)
  | .block _ ss => stmts_scopeFrom scope ss
  | .stray _ s => (s.scopeFrom scope).weaken.cons

theorem else_scopeFrom (scope : List String) : ∀ (no : Option Body), ScopeFrom scope (elseSites scope no)
  | none => by simp [elseSites, ScopeFrom]
  | some b => b.scopeFrom scope

theorem stmts_scopeFrom (scope : List String) : ∀ (ss : List Stmt), ScopeFrom scope (stmtSites scope ss)
  | [] => by simp [stmtSites, ScopeFrom]
  | s :: ss => ((s.scopeFrom scope).weaken.append (stmts_scopeFrom (s.declared ++ scope) ss)).cons

end

/-! ## Rules at sites -/

namespace Check

/-- The rules on a statement without those on the statements inside it. -/
def ownRules (scope : Scope) : Stmt → List Diagnostic
  | .expr _ x => exprRules scope x
  | .cond _ t _ _ => exprRules scope t
  | .ret _ (some x) => exprRules scope x
  | .bind _ n ns t v => nameRule n ns .binding ++ typeRule scope t ++ initRules scope n ns t v
  | _ => []

/-- None of the sites has a violation of its own. -/
def CleanAt (scope : Scope) (sites : List Site) : Prop := ∀ site ∈ sites, ownRules scope site.stmt = []

theorem cleanAt_append {scope : Scope} {xs ys : List Site} :
    CleanAt scope (xs ++ ys) ↔ CleanAt scope xs ∧ CleanAt scope ys := List.forall_mem_append

theorem cleanAt_cons {scope : Scope} {site : Site} {sites : List Site} :
    CleanAt scope (site :: sites) ↔ ownRules scope site.stmt = [] ∧ CleanAt scope sites := List.forall_mem_cons

mutual

theorem stmtRules_nil_iff (scope : Scope) (locals : List String) : ∀ (s : Stmt),
    stmtRules scope s = [] ↔ ownRules scope s = [] ∧ CleanAt scope (s.sites locals)
  | .block _ ss => by
    rw [stmtRules, stmtsRules_nil_iff scope locals ss, Stmt.sites]
    simp [ownRules]
  | .expr _ x => by simp [stmtRules, ownRules, Stmt.sites, CleanAt]
  | .cond _ t yes no => by
    rw [stmtRules, List.append_eq_nil_iff, List.append_eq_nil_iff, bodyRules_nil_iff scope locals yes,
      elseRules_nil_iff scope locals no, Stmt.sites, cleanAt_append, ownRules, and_assoc]
  | .ret _ none => by simp [stmtRules, ownRules, Stmt.sites, CleanAt]
  | .ret _ (some x) => by simp [stmtRules, ownRules, Stmt.sites, CleanAt]
  | .brk _ => by simp [stmtRules, ownRules, Stmt.sites, CleanAt]
  | .bind _ _ _ _ _ => by simp [stmtRules, ownRules, Stmt.sites, CleanAt]
  | .loop _ b => by
    rw [stmtRules, bodyRules_nil_iff scope locals b, Stmt.sites]
    simp [ownRules]
  | .empty _ => by simp [stmtRules, ownRules, Stmt.sites, CleanAt]
  | .absent _ => by simp [stmtRules, ownRules, Stmt.sites, CleanAt]
  | .hollow _ _ => by simp [stmtRules, ownRules, Stmt.sites, CleanAt]

theorem bodyRules_nil_iff (scope : Scope) (locals : List String) : ∀ (b : Body),
    bodyRules scope b = [] ↔ CleanAt scope (b.sites locals)
  | .block _ ss => by rw [bodyRules, stmtsRules_nil_iff scope locals ss, Body.sites]
  | .stray _ s => by rw [bodyRules, stmtRules_nil_iff scope locals s, Body.sites, cleanAt_cons]

theorem elseRules_nil_iff (scope : Scope) (locals : List String) : ∀ (no : Option Body),
    elseRules scope no = [] ↔ CleanAt scope (elseSites locals no)
  | none => by simp [elseRules, elseSites, CleanAt]
  | some b => by rw [elseRules, bodyRules_nil_iff scope locals b, elseSites]

theorem stmtsRules_nil_iff (scope : Scope) (locals : List String) : ∀ (ss : List Stmt),
    stmtsRules scope ss = [] ↔ CleanAt scope (stmtSites locals ss)
  | [] => by simp [stmtsRules, stmtSites, CleanAt]
  | s :: ss => by
    rw [stmtsRules, List.append_eq_nil_iff, stmtRules_nil_iff scope locals s,
      stmtsRules_nil_iff scope (s.declared ++ locals) ss, stmtSites, cleanAt_cons, cleanAt_append, and_assoc]

end

end Check
end PineLang
