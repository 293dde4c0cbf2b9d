import PineLang.Proofs.LiteralLowering

/-!
What the names in expressions refer to, before and after lowering. A name refers to the innermost local
that has it, or else to the function that has it. Locals keep their levels and functions their positions,
so references can be compared. Two things can go wrong: the code of a binding evaluates the value where the
new variable is visible already (`Lower.binding_places`), and the one function that is renamed, `main`, is
not renamed where it is mentioned (`Lower.findIdx_main`).
-/
namespace PineLang

/-! ## What a name refers to -/

/-- What a name refers to: a local, known by how many locals were declared before it, or a function,
    known by its position among the declarations. -/
inductive Referent where
  | localVar (level : Nat)
  | function (index : Nat)
  deriving DecidableEq

/-- The level of the innermost local with a name. -/
def level? (n : String) : List String → Option Nat
  | [] => none
  | m :: outer => if m = n then some outer.length else level? n outer

/-- The item is a function of this name. -/
@[grind =] def Item.isFn (n : String) : Item → Bool
  | .fn d => d.name == n
  | _ => false

/-- What a name refers to in a file where these locals are visible. -/
def File.referent? (f : File) (scope : List String) (n : String) : Option Referent :=
  match level? n scope with
  | some l => some (.localVar l)
  | none => (f.items.findIdx? (·.isFn n)).map .function

/-- The declaration is a function of this name. -/
def C.Decl.isFn (n : String) : C.Decl → Bool
  | .fn m _ _ _ => m == n
  | _ => false

/-- What a name refers to in a unit where these locals are visible. -/
def C.CUnit.referent? (u : C.CUnit) (scope : List String) (n : String) : Option Referent :=
  match level? n scope with
  | some l => some (.localVar l)
  | none => (u.decls.findIdx? (·.isFn n)).map .function

theorem level_over {n : String} {scope : List String} : ∀ {inner : List String}, n ∉ inner →
    level? n (inner ++ scope) = level? n scope
  | [], _ => rfl
  | m :: inner, other => by
    rw [List.mem_cons, not_or] at other
    rw [List.cons_append, level?, if_neg (Ne.symm other.1), level_over other.2]

theorem level_lt {n : String} {l : Nat} : ∀ {scope : List String}, level? n scope = some l → l < scope.length
  | [], found => by cases found
  | m :: outer, found => by
    rw [level?] at found
    split at found
    · cases found
      exact Nat.lt_succ_self _
    · exact Nat.lt_succ_of_lt (level_lt found)

theorem level_eq_none {n : String} {scope : List String} (absent : n ∉ scope) : level? n scope = none := by
  rw [← List.append_nil scope, level_over absent]
  rfl

/-! ## Places of operands -/

/-- The expressions that a binding evaluates: the values of the fields of a literal, or its value. -/
def Expr.initializers (v : Expr) : List Expr :=
  match v.literal? with
  | some (_, fields) => fields.map (·.value)
  | none => [v]

/-- The expressions that a statement itself evaluates. -/
def Stmt.operands : Stmt → List Expr
  | .bind _ _ _ _ v => v.initializers
  | s => s.exprs

mutual

/-- The values that a statement assigns, each with the locals that are visible there. -/
def C.CStmt.assigned (scope : List String) : C.CStmt → List (List String × C.CExpr)
  | .expr (.assign _ _ v) => [(scope, v)]
  | .block ss => C.assigned scope ss
  | _ => []
termination_by structural s => s

/-- The values that statements assign. -/
def C.assigned (scope : List String) : List C.CStmt → List (List String × C.CExpr)
  | [] => []
  | s :: ss => s.assigned scope ++ C.assigned (s.declared ++ scope) ss
termination_by structural ss => ss

end

/-- The expressions that stand in a C statement itself. -/
def C.CStmt.exprs : C.CStmt → List C.CExpr
  | .expr x => [x]
  | .cond t _ _ => [t]
  | .ret (some x) => [x]
  | _ => []

/-- The places of the operands of a site in the code that its statement became, each with the locals
    that are visible there. -/
def Site.places (site : Site) (run : List C.CStmt) : List (List String × C.CExpr) :=
  match site.stmt.binding? with
  | some _ => C.assigned site.scope run
  | none => (run.flatMap C.CStmt.exprs).map (site.scope, ·)

theorem operands_of_bound {s : Stmt} {x : String} {t : Ty} {v : Expr} (bound : s.binding? = some (x, t, v)) :
    s.operands = v.initializers := by
  obtain ⟨sp, xs, r, rfl, -⟩ := Stmt.eq_bind bound
  rfl

theorem operands_of_unbound {s : Stmt} (unbound : s.binding? = none) : s.operands = s.exprs := by
  cases s with
  | bind sp y ys r w => cases unbound
  | _ => rfl

theorem mem_fieldsIdents {n : String} {fs : List FieldInit} :
    n ∈ identsAmong (fieldsParts fs) ↔ ∃ f ∈ fs, n ∈ f.value.idents := by
  induction fs with
  | nil => simp [fieldsParts]
  | cons f fs ih =>
    have parts : f.parts = f.value.parts := by cases f; rfl
    rw [fieldsParts, identsAmong_append, List.mem_append, ih, parts, ← Expr.idents]
    simp

theorem mem_initializers {n : String} (v : Expr) : n ∈ v.idents ↔ ∃ e ∈ v.initializers, n ∈ e.idents := by
  cases v with
  | structLit s m ms fs =>
    have fields : (Expr.structLit s m ms fs).idents = identsAmong (fieldsParts fs) := rfl
    rw [fields, mem_fieldsIdents]
    simp [Expr.initializers, Expr.literal?]
  | _ => simp [Expr.initializers, Expr.literal?]

namespace Lower
open C (CType CExpr CStmt CParam CUnit Decl)

/-- The value of a temporary is evaluated where it and the temporaries before it are visible. -/
theorem assigned_temporaries {rest : List CStmt} : ∀ {ts : List Temporary} {scope : List String} {k : Nat}
    {t : Temporary}, ts[k]? = some t → (C.assigned scope (ts.flatMap Temporary.code ++ rest))[k]? =
      some (((ts.take (k + 1)).map (·.name)).reverse ++ scope, t.value)
  | [], _, _, _, here => by simp at here
  | s :: ts, scope, k, t, here => by
    have step : C.assigned scope ((s :: ts).flatMap Temporary.code ++ rest) =
        (s.name :: scope, s.value) :: C.assigned (s.name :: scope) (ts.flatMap Temporary.code ++ rest) := rfl
    rw [step]
    cases k with
    | zero =>
      cases here
      simp
    | succ k =>
      rw [List.getElem?_cons_succ] at here ⊢
      rw [assigned_temporaries here]
      simp

/-- The initializers of a binding are evaluated where its variable is visible, and inside it only
    temporaries that they do not mention. -/
theorem binding_places {f : File} {isProgram : Bool} (valid : f.Valid isProgram) {name : String} {u : CUnit}
    (lowered : f.lower name = .ok u) {site : Site} (member : site ∈ f.sites) {x : String} {t : Ty} {v : Expr}
    (bound : site.stmt.binding? = some (x, t, v)) :
    ∃ run, Counterpart f u site run ∧ ∀ (k : Nat) (e : Expr), v.initializers[k]? = some e → ∃ temps c,
      (C.assigned site.scope run)[k]? = some (temps ++ x :: site.scope, c) ∧ expr e = .ok c ∧ x ∉ temps ∧
        ∀ n ∈ e.idents, n ∉ temps := by
  cases isLiteral : v.literal? with
  | some literal =>
    obtain ⟨struct, fields⟩ := literal
    obtain ⟨decl, members, ts, -, -, -, code, counterpart⟩ := literal_code valid lowered member bound isLiteral
    refine ⟨_, counterpart, ?_⟩
    intro k e atValue
    rw [Expr.initializers, isLiteral, List.getElem?_map] at atValue
    obtain ⟨field, atField, rfl⟩ := Option.map_eq_some_iff.mp atValue
    obtain ⟨temp, atTemp, fit⟩ := forall₂_at code.fits atField
    have names : (ts.take (k + 1)).map (·.name) = (fields.take (k + 1)).map (·.name) := by
      rw [List.map_take, List.map_take, fits_names code.fits]
    have rules := (valid.stmt member).fields x t v struct fields bound isLiteral
    refine ⟨((ts.take (k + 1)).map (·.name)).reverse, temp.value, ?_, fit.value, ?_, ?_⟩
    · have block : C.assigned site.scope [.var x (.ptr (.struct decl.name)), .block (ts.flatMap Temporary.code ++
          [C.set (.ident x) (C.call (constructorName decl.name) ((members.map (·.name)).map .ident))])] =
          C.assigned (x :: site.scope) (ts.flatMap Temporary.code ++
            [C.set (.ident x) (C.call (constructorName decl.name) ((members.map (·.name)).map .ident))]) :=
        List.append_nil _
      rw [block, assigned_temporaries atTemp]
    · rw [names, List.mem_reverse]
      intro given
      exact rules.apart (((List.take_sublist _ _).map _).subset given)
    · intro n mentioned hides
      rw [names, List.mem_reverse] at hides
      exact rules.unhidden k field atField n mentioned hides
  | none =>
    obtain ⟨run, counterpart⟩ := exists_counterpart lowered member
    obtain ⟨i, e, ls, params, ret, inner, rest, here, inFn, atDecl, laid, made, inside⟩ := counterpart
    refine ⟨run, ⟨i, e, ls, params, ret, inner, rest, here, inFn, atDecl, laid, made, inside⟩, ?_⟩
    rw [stmt_of_binding bound] at made
    rcases binding_cases made with ⟨T, c, -, -, valued, rfl⟩ | ⟨_, _, _, _, _, _, other, -⟩
    · intro k e atValue
      rw [Expr.initializers, isLiteral] at atValue
      cases k with
      | zero =>
        cases atValue
        exact ⟨[], c, rfl, valued, by simp, by simp⟩
      | succ k => cases atValue
    · rw [isLiteral] at other
      cases other

/-- A statement that binds nothing becomes one statement with the C forms of its expressions. -/
theorem stmt_exprs {ls : Layouts} {s : Stmt} {cs : List CStmt} (made : stmt ls s = .ok cs)
    (unbound : s.binding? = none) : List.Forall₂ (fun e c => expr e = .ok c) s.exprs (cs.flatMap CStmt.exprs) := by
  cases s with
  | block _ ss =>
    simp only [stmt, bind_ok, pure_ok] at made
    obtain ⟨_, -, rfl⟩ := made
    exact .nil
  | expr _ x =>
    simp only [stmt, bind_ok, pure_ok] at made
    obtain ⟨c, valued, rfl⟩ := made
    exact .cons valued .nil
  | cond _ t yes no =>
    simp only [stmt, bind_ok, pure_ok] at made
    obtain ⟨c, tested, _, -, _, -, rfl⟩ := made
    exact .cons tested .nil
  | ret _ v =>
    cases v with
    | none =>
      cases made
      exact .nil
    | some x =>
      simp only [stmt, bind_ok, pure_ok] at made
      obtain ⟨c, valued, rfl⟩ := made
      exact .cons valued .nil
  | bind _ _ _ _ _ => cases unbound
  | loop _ b =>
    simp only [stmt, bind_ok, pure_ok] at made
    obtain ⟨_, -, rfl⟩ := made
    exact .nil
  | brk _ =>
    cases made
    exact .nil
  | empty _ =>
    cases made
    exact .nil
  | absent _ => cases made
  | hollow _ _ => cases made

/-- The operands of every statement keep their places. -/
theorem operand_places {f : File} {isProgram : Bool} (valid : f.Valid isProgram) {name : String} {u : CUnit}
    (lowered : f.lower name = .ok u) {site : Site} (member : site ∈ f.sites) :
    ∃ run, Counterpart f u site run ∧ ∀ (k : Nat) (e : Expr), site.stmt.operands[k]? = some e → ∃ scope c,
      (site.places run)[k]? = some (scope, c) ∧ expr e = .ok c := by
  cases bound : site.stmt.binding? with
  | some binding =>
    obtain ⟨x, t, v⟩ := binding
    obtain ⟨run, counterpart, places⟩ := binding_places valid lowered member bound
    refine ⟨run, counterpart, ?_⟩
    intro k e atOperand
    rw [operands_of_bound bound] at atOperand
    obtain ⟨temps, c, place, made, -⟩ := places k e atOperand
    refine ⟨temps ++ x :: site.scope, c, ?_, made⟩
    rw [Site.places, bound]
    exact place
  | none =>
    obtain ⟨run, counterpart⟩ := exists_counterpart lowered member
    refine ⟨run, counterpart, ?_⟩
    intro k e atOperand
    obtain ⟨_, _, ls, _, _, _, _, -, -, -, -, made, -⟩ := counterpart
    rw [operands_of_unbound bound] at atOperand
    obtain ⟨c, place, made'⟩ := forall₂_at (stmt_exprs made bound) atOperand
    refine ⟨site.scope, c, ?_, made'⟩
    rw [Site.places, bound, List.getElem?_map, place]
    rfl

/-! ## Functions -/

/-- Only `main` becomes the program's entry. -/
theorem fnName_eq_iff {m n : String} (other : n ≠ "main") (unlike : n ≠ C.programEntry) : fnName m = n ↔ m = n := by
  unfold fnName
  by_cases entry : m = "main"
  · simp only [entry, beq_self_eq_true, if_true]
    constructor
    · intro same
      exact absurd same.symm unlike
    · intro same
      exact absurd same.symm other
  · simp [entry]

theorem fnName_ne_main (m : String) : fnName m ≠ "main" := by
  unfold fnName
  by_cases entry : m = "main"
  · simp [entry, C.programEntry]
  · simp [entry]

theorem constructorName_ne_main (struct : String) : constructorName struct ≠ "main" := by
  intro same
  have chars := congrArg String.toList same
  simp [constructorName] at chars

/-- An item and its declaration are functions of a name together, unless lowering changes that name. -/
theorem item_isFn {ls : Layouts} {i : Item} {d : Decl} (made : item ls i = .ok d) {n : String} (other : n ≠ "main")
    (unlike : n ≠ C.programEntry) : d.isFn n = i.isFn n := by
  cases i with
  | fn e =>
    obtain ⟨params, ret, inner, -, -, rfl⟩ := item_fn_ok made
    rw [Decl.isFn, Item.isFn, Bool.eq_iff_iff, beq_iff_eq, beq_iff_eq]
    exact fnName_eq_iff other unlike
  | struct e =>
    cases made
    rfl
  | absent _ => cases made
  | hollow _ _ => cases made

theorem item_not_main {ls : Layouts} {i : Item} {d : Decl} (made : item ls i = .ok d) : d.isFn "main" = false := by
  cases i with
  | fn e =>
    obtain ⟨params, ret, inner, -, -, rfl⟩ := item_fn_ok made
    simpa [Decl.isFn] using fnName_ne_main e.name
  | struct e =>
    cases made
    rfl
  | absent _ => cases made
  | hollow _ _ => cases made

theorem findIdx_congr {α β : Type} {R : α → β → Prop} {p : α → Bool} {q : β → Bool} {xs : List α} {ys : List β}
    (related : List.Forall₂ R xs ys) (same : ∀ x y, R x y → q y = p x) : ys.findIdx? q = xs.findIdx? p := by
  induction related with
  | nil => rfl
  | cons here _ ih => rw [List.findIdx?_cons, List.findIdx?_cons, same _ _ here, ih]

/-- A function of a name that lowering does not change stands first under it where it stood. -/
theorem findIdx_fn {f : File} {name : String} {u : CUnit} (lowered : f.lower name = .ok u) {n : String} {i : Nat}
    (other : n ≠ "main") (unlike : n ≠ C.programEntry) (found : f.items.findIdx? (·.isFn n) = some i) :
    u.decls.findIdx? (·.isFn n) = some i := by
  obtain ⟨ls, decls, -, made, all⟩ := lower_cases lowered
  rw [all, List.findIdx?_append, findIdx_congr made fun it d step => item_isFn step other unlike, found]
  rfl

/-- No function of a unit is called `main`. -/
theorem findIdx_main {f : File} {name : String} {u : CUnit} (lowered : f.lower name = .ok u) :
    u.decls.findIdx? (·.isFn "main") = none := by
  obtain ⟨ls, decls, -, made, all⟩ := lower_cases lowered
  rw [List.findIdx?_eq_none_iff]
  intro d member
  rw [all] at member
  rcases List.mem_append.mp member with ofItem | ofStruct
  · obtain ⟨j, atDecl⟩ := List.getElem?_of_mem ofItem
    obtain ⟨i, -, step⟩ := forall₂_at made.flip atDecl
    exact item_not_main step
  · obtain ⟨l, -, rfl⟩ := List.mem_map.mp ofStruct
    simpa [constructor, Decl.isFn] using constructorName_ne_main l.name

end Lower

/-! ## Names in valid files -/

theorem free_ne_main {n : String} (free : FreeName n) : n ≠ "main" := by
  rintro rfl
  have reserved : Check.reservedReason? "main" ≠ none := by decide
  exact reserved free

theorem free_ne_entry {n : String} (free : FreeName n) : n ≠ C.programEntry := by
  rintro rfl
  have reserved : Check.reservedReason? C.programEntry ≠ none := by decide
  exact reserved free

theorem fn_of_isFn {items : List Item} {i : Nat} {n : String} (test : items[i]?.map (·.isFn n) = some true) :
    ∃ d, items[i]? = some (.fn d) ∧ d.name = n := by
  obtain ⟨it, here, isFn⟩ := Option.map_eq_some_iff.mp test
  cases it with
  | fn d => exact ⟨d, here, by simpa [Item.isFn] using isFn⟩
  | _ => cases isFn

theorem mem_of_findIdx_fn {f : File} {n : String} {i : Nat} (found : f.items.findIdx? (·.isFn n) = some i) :
    ∃ d, Item.fn d ∈ f.items ∧ d.name = n := by
  obtain ⟨inside, hit, -⟩ := List.findIdx?_eq_some_iff_getElem.mp found
  obtain ⟨d, here, named⟩ := fn_of_isFn (by rw [List.getElem?_eq_getElem inside, Option.map_some, hit])
  exact ⟨d, List.mem_of_getElem? here, named⟩

/-- A name that refers to something keeps its referent where only names besides it are declared, unless it
    is that of the function `main`. -/
theorem File.Valid.referent_kept {f : File} {isProgram : Bool} (valid : f.Valid isProgram) {name : String}
    {u : C.CUnit} (lowered : f.lower name = .ok u) {scope inner : List String} {n : String} (apart : n ∉ inner)
    (noEntry : n = "main" → ∀ d, Item.fn d ∈ f.items → d.name ≠ "main") {r : Referent}
    (refers : f.referent? scope n = some r) : u.referent? (inner ++ scope) n = some r := by
  unfold C.CUnit.referent? File.referent? at *
  rw [level_over apart]
  cases found : level? n scope with
  | some l =>
    rw [found] at refers
    exact refers
  | none =>
    rw [found] at refers
    obtain ⟨i, atFn, rfl⟩ := Option.map_eq_some_iff.mp refers
    obtain ⟨d, isItem, named⟩ := mem_of_findIdx_fn atFn
    have other : n ≠ "main" := fun entry => noEntry entry d isItem (named.trans entry)
    have free : FreeName n := named ▸ (valid.fns d isItem).name (named.symm ▸ other)
    simp only [Lower.findIdx_fn lowered other (free_ne_entry free) atFn, Option.map_some]

/-- The name `main` is that of no local, so it refers to the function. -/
theorem File.Valid.main_refers {f : File} {isProgram : Bool} (valid : f.Valid isProgram) {d : FnDecl}
    (isItem : Item.fn d ∈ f.items) (entry : d.name = "main") {site : Site} (member : site ∈ f.sites) :
    ∃ r, f.referent? site.scope "main" = some r := by
  have absent : "main" ∉ site.scope := fun visible => free_ne_main (valid.scope_free member visible) rfl
  have found : (f.items.findIdx? (·.isFn "main")).isSome := by
    rw [List.findIdx?_isSome, List.any_eq_true]
    exact ⟨_, isItem, by simpa [Item.isFn] using entry⟩
  obtain ⟨i, atFn⟩ := Option.isSome_iff_exists.mp found
  exact ⟨.function i, by rw [File.referent?, level_eq_none absent, atFn]; rfl⟩

/-- In the code of a binding the name `main` refers to nothing. -/
theorem File.Valid.main_lost {f : File} {isProgram : Bool} (valid : f.Valid isProgram) {name : String}
    {u : C.CUnit} (lowered : f.lower name = .ok u) {site : Site} (member : site ∈ f.sites) {x : String} {t : Ty}
    {v : Expr} (bound : site.stmt.binding? = some (x, t, v)) {temps : List String} (apart : "main" ∉ temps) :
    u.referent? (temps ++ x :: site.scope) "main" = none := by
  have other : "main" ≠ x := (free_ne_main ((valid.stmt member).name x t v bound)).symm
  have absent : "main" ∉ x :: site.scope := by
    rw [List.mem_cons, not_or]
    exact ⟨other, fun visible => free_ne_main (valid.scope_free member visible) rfl⟩
  rw [C.CUnit.referent?, level_over apart, level_eq_none absent, Lower.findIdx_main lowered]
  rfl

/-- In the code of an initializer every identifier refers to what it refers to before the binding, and
    none to the variable that is bound. -/
def KeepsReferents (f : File) (u : C.CUnit) (site : Site) (run : List C.CStmt) (v : Expr) : Prop :=
  ∀ (k : Nat) (e : Expr), v.initializers[k]? = some e → ∃ scope c,
    (C.assigned site.scope run)[k]? = some (scope, c) ∧ c.idents = e.idents ∧ ∀ n ∈ e.idents,
      (∀ r, f.referent? site.scope n = some r → u.referent? scope n = some r) ∧
      u.referent? scope n ≠ some (.localVar site.scope.length)

/-- An initializer of an accepted file keeps its referents exactly if it mentions neither the variable
    that it initialises nor a function `main` of the file. -/
theorem initializer_resolution_iff (file : Nat) (content : Bytes) (tree : File) (isProgram : Bool) (name : String)
    (parsed : parse (lexemes file content) = .ok tree) (accepted : (tree.check isProgram).errors = 0) :
    ∃ u, tree.lower name = .ok u ∧ ∀ site ∈ tree.sites, ∀ x t v, site.stmt.binding? = some (x, t, v) →
      ∃ run, Lower.Counterpart tree u site run ∧ (KeepsReferents tree u site run v ↔
        x ∉ v.idents ∧ ("main" ∈ v.idents → ∀ d, Item.fn d ∈ tree.items → d.name ≠ "main")) := by
  obtain ⟨valid, u, lowered⟩ := lower_of_accepted parsed accepted name
  refine ⟨u, lowered, ?_⟩
  intro site member x t v bound
  obtain ⟨run, counterpart, places⟩ := Lower.binding_places valid lowered member bound
  refine ⟨run, counterpart, ?_⟩
  constructor
  · intro keeps
    refine ⟨?_, ?_⟩
    · intro mentioned
      obtain ⟨e, isValue, inside⟩ := (mem_initializers v).mp mentioned
      obtain ⟨k, atValue⟩ := List.getElem?_of_mem isValue
      obtain ⟨temps, c, place, -, own, -⟩ := places k e atValue
      obtain ⟨scope, c', place', -, kept⟩ := keeps k e atValue
      cases place.symm.trans place'
      refine (kept x inside).2 ?_
      rw [C.CUnit.referent?, level_over own, level?, if_pos rfl]
    · intro mentioned d isItem entry
      obtain ⟨e, isValue, inside⟩ := (mem_initializers v).mp mentioned
      obtain ⟨k, atValue⟩ := List.getElem?_of_mem isValue
      obtain ⟨temps, c, place, -, -, apart⟩ := places k e atValue
      obtain ⟨scope, c', place', -, kept⟩ := keeps k e atValue
      cases place.symm.trans place'
      obtain ⟨r, refers⟩ := valid.main_refers isItem entry member
      have lost := (kept "main" inside).1 r refers
      rw [valid.main_lost lowered member bound (apart "main" inside)] at lost
      cases lost
  · rintro ⟨fresh, noEntry⟩ k e atValue
    obtain ⟨temps, c, place, made, -, apart⟩ := places k e atValue
    refine ⟨_, c, place, Lower.expr_idents made, ?_⟩
    intro n inside
    have mentioned : n ∈ v.idents := (mem_initializers v).mpr ⟨e, List.mem_of_getElem? atValue, inside⟩
    have hidden : n ∉ temps ++ [x] := by
      rw [List.mem_append, List.mem_singleton, not_or]
      exact ⟨apart n inside, fun same => fresh (same ▸ mentioned)⟩
    have split : temps ++ x :: site.scope = (temps ++ [x]) ++ site.scope := by simp
    rw [split]
    refine ⟨fun r => valid.referent_kept lowered hidden fun entry => noEntry (entry ▸ mentioned), ?_⟩
    unfold C.CUnit.referent?
    rw [level_over hidden]
    cases found : level? n site.scope with
    | some l =>
      have := level_lt found
      simp only [ne_eq, Option.some.injEq, Referent.localVar.injEq]
      omega
    | none => simp

theorem initializer_resolution_swapped : ∃ tree u site run t v, parse (lexemes 0 swapped) = .ok tree ∧
    (tree.check true).errors = 0 ∧ tree.lower "app" = .ok u ∧ site ∈ tree.sites ∧
    site.stmt.binding? = some ("p", t, v) ∧ Lower.Counterpart tree u site run ∧
    KeepsReferents tree u site run v := by
  obtain ⟨tree, parsed, accepted, ⟨site, member, isHere⟩, -⟩ := swapped_tree
  obtain ⟨u, lowered, each⟩ := initializer_resolution_iff 0 swapped tree true "app" parsed accepted
  unfold isSwapped at isHere
  split at isHere
  · next code =>
    have bound := congrArg Stmt.binding? code
    obtain ⟨run, counterpart, keeps⟩ := each site member _ _ _ bound
    -- the only identifier is x
    refine ⟨tree, u, site, run, _, _, parsed, accepted, lowered, member, bound, counterpart, keeps.mpr ⟨?_, ?_⟩⟩
    · intro mentioned
      exact absurd (List.mem_singleton.mp mentioned) (by decide)
    · intro mentioned
      exact absurd (List.mem_singleton.mp mentioned) (by decide)
  · cases isHere

/-- A binding in a block of its own whose value mentions a parameter of the same name. -/
def selfInit : Bytes :=
  utf8 ("fun f(x: i64) -> i64:\n    if true:\n        let x: i64 = x\n        return x\n    return x\n")

/-- The site is the binding in the block. -/
def isSelfInit (site : Site) : Bool :=
  match site.scope, site.stmt with
  | ["x"], .bind _ "x" _ _ (.ident _ "x") => true
  | _, _ => false

/-- Before the binding `x` is the parameter; in the code it is the new variable, which is then assigned
    its own value. -/
theorem initializer_captured : ∃ tree u site run t s, parse (lexemes 0 selfInit) = .ok tree ∧
    (tree.check false).errors = 0 ∧ tree.lower "app" = .ok u ∧ site ∈ tree.sites ∧
    site.stmt.binding? = some ("x", t, .ident s "x") ∧ Lower.Counterpart tree u site run ∧
    tree.referent? site.scope "x" = some (.localVar 0) ∧
    C.assigned site.scope run = [(["x", "x"], .ident "x")] ∧ u.referent? ["x", "x"] "x" = some (.localVar 1) := by
  have run : ((parse (lexemes 0 selfInit)).toOption.map fun tree =>
      ((tree.check false).errors, tree.sites.any isSelfInit)) = some (0, true) := by decide +kernel
  obtain ⟨tree, parsed, facts⟩ := Lower.ok_of_test run
  obtain ⟨accepted, found⟩ := Prod.mk.inj facts
  obtain ⟨site, member, isHere⟩ := List.any_eq_true.mp found
  obtain ⟨-, u, lowered⟩ := lower_of_accepted parsed accepted "app"
  obtain ⟨code, i, d, ls, params, ret, inner, rest, here, inFn, atDecl, laid, made, inside⟩ :=
    Lower.exists_counterpart lowered member
  unfold isSelfInit at isHere
  split at isHere
  · next scope same =>
    have bound := congrArg Stmt.binding? same
    refine ⟨tree, u, site, code, _, _, parsed, accepted, lowered, member, bound,
      ⟨i, d, ls, params, ret, inner, rest, here, inFn, atDecl, laid, made, inside⟩, ?_, ?_, rfl⟩
    · rw [scope]
      rfl
    · rw [Lower.stmt_of_binding bound] at made
      rcases Lower.binding_cases made with ⟨T, c, -, -, valued, rfl⟩ | ⟨_, _, _, _, _, _, other, -⟩
      · cases valued
        rw [scope]
        rfl
      · cases other
  · cases isHere

/-! ## References to functions -/

/-- The declaration at a position of the unit defines a function under this name, and the header has its
    prototype. -/
def C.CUnit.Defines (u : C.CUnit) (i : Nat) (g : String) : Prop :=
  ∃ params ret inner, u.decls[i]? = some (.fn g params ret (some inner)) ∧
    C.Decl.fn g params ret none ∈ u.header.decls

theorem defines_fn {f : File} {name : String} {u : C.CUnit} (lowered : f.lower name = .ok u) {i : Nat} {d : FnDecl}
    (here : f.items[i]? = some (.fn d)) (g : String) : u.Defines i g ↔ g = Lower.fnName d.name := by
  obtain ⟨ls, params, ret, inner, -, -, -, atDecl⟩ := Lower.fn_at lowered here
  constructor
  · rintro ⟨_, _, _, atDecl', -⟩
    cases atDecl.symm.trans atDecl'
    rfl
  · rintro rfl
    refine ⟨params, ret, inner, atDecl, ?_⟩
    refine List.mem_append_right _ (List.mem_filterMap.mpr ⟨_, List.mem_of_getElem? atDecl, rfl⟩)

/-- In an accepted file, an identifier of a function that no local hides is the name under which the unit
    defines and prototypes the function, exactly if the function is not `main`. -/
theorem function_reference_iff (file : Nat) (content : Bytes) (tree : File) (isProgram : Bool) (name : String)
    (parsed : parse (lexemes file content) = .ok tree) (accepted : (tree.check isProgram).errors = 0) :
    ∃ u, tree.lower name = .ok u ∧ ∀ site ∈ tree.sites, ∃ run, Lower.Counterpart tree u site run ∧
      ∀ (k : Nat) (e : Expr), site.stmt.operands[k]? = some e → ∃ scope c, (site.places run)[k]? = some (scope, c) ∧
        c.idents.length = e.idents.length ∧ ∀ (j : Nat) (n m : String), e.idents[j]? = some n →
          c.idents[j]? = some m → n ∉ site.scope → ∀ (i : Nat) (d : FnDecl), tree.items[i]? = some (.fn d) →
            d.name = n → (∃ g, u.Defines i g) ∧ (u.Defines i m ↔ n ≠ "main") := by
  obtain ⟨valid, u, lowered⟩ := lower_of_accepted parsed accepted name
  refine ⟨u, lowered, ?_⟩
  intro site member
  obtain ⟨run, counterpart, places⟩ := Lower.operand_places valid lowered member
  refine ⟨run, counterpart, ?_⟩
  intro k e atOperand
  obtain ⟨scope, c, place, made⟩ := places k e atOperand
  have same : c.idents = e.idents := Lower.expr_idents made
  refine ⟨scope, c, place, congrArg List.length same, ?_⟩
  rintro j n m atIdent atIdent' - i d here rfl
  rw [same] at atIdent'
  cases Option.some.inj (atIdent.symm.trans atIdent')
  refine ⟨⟨_, (defines_fn lowered here _).mpr rfl⟩, ?_⟩
  rw [defines_fn lowered here]
  constructor
  · intro unchanged entry
    rw [entry] at unchanged
    exact absurd unchanged (by decide)
  · intro other
    simp [Lower.fnName, other]

/-- Two functions that call each other. -/
def mutualCalls : Bytes := utf8 "fun ping() -> _: pong()\nfun pong() -> _: ping()\n"

/-- The site is a call without arguments, where no local is visible. -/
def isCall (n : String) (site : Site) : Bool :=
  match site.scope, site.stmt with
  | [], .expr _ (.call _ (.ident _ m) []) => m == n
  | _, _ => false

/-- What such a call becomes. -/
theorem call_places {f : File} {u : C.CUnit} {n : String} {site : Site} {run : List C.CStmt}
    (isHere : isCall n site = true) (counterpart : Lower.Counterpart f u site run) :
    ∃ e c, site.stmt.operands = [e] ∧ e.idents = [n] ∧ site.scope = [] ∧ site.places run = [([], c)] ∧
      c.idents = [n] := by
  obtain ⟨_, _, ls, _, _, _, _, -, -, -, -, made, -⟩ := counterpart
  unfold isCall at isHere
  split at isHere
  · next m scope same =>
    have named := beq_iff_eq.mp isHere
    subst named
    rw [same] at made
    cases made
    refine ⟨_, .call (.ident m) [], by rw [same]; rfl, rfl, scope, ?_, rfl⟩
    rw [Site.places, same, scope]
    rfl
  · cases isHere

theorem function_reference_mutual : ∃ tree u site run c, parse (lexemes 0 mutualCalls) = .ok tree ∧
    (tree.check false).errors = 0 ∧ tree.lower "app" = .ok u ∧ site ∈ tree.sites ∧
    Lower.Counterpart tree u site run ∧ site.places run = [([], c)] ∧ c.idents = ["pong"] ∧ u.Defines 1 "pong" := by
  have test : ((parse (lexemes 0 mutualCalls)).toOption.map fun tree => ((tree.check false).errors,
      tree.sites.any (isCall "pong"), tree.items[1]?.map (Item.isFn "pong"))) = some (0, true, some true) := by
    decide +kernel
  obtain ⟨tree, parsed, facts⟩ := Lower.ok_of_test test
  simp only [Prod.mk.injEq] at facts
  obtain ⟨accepted, found, second⟩ := facts
  obtain ⟨site, member, isHere⟩ := List.any_eq_true.mp found
  obtain ⟨u, lowered, each⟩ := function_reference_iff 0 mutualCalls tree false "app" parsed accepted
  obtain ⟨run, counterpart, places⟩ := each site member
  obtain ⟨e, c, operands, mentions, scope, place, idents⟩ := call_places isHere counterpart
  obtain ⟨d, atItem, named⟩ := fn_of_isFn second
  obtain ⟨_, c', place', -, names⟩ := places 0 e (by rw [operands]; rfl)
  have same : c' = c := by
    rw [place] at place'
    cases place'
    rfl
  refine ⟨tree, u, site, run, c, parsed, accepted, lowered, member, counterpart, place, idents, ?_⟩
  refine ((names 0 "pong" "pong" ?_ ?_ ?_ 1 d atItem named).2).mpr (by decide)
  · rw [mentions]
    rfl
  · rw [same, idents]
    rfl
  · simp [scope]

/-- A function `main` that calls itself. -/
def selfCall : Bytes := utf8 "fun main() -> _: main()\n"

/-- The unit defines the function under another name than the one that is called. -/
theorem main_reference_lost : ∃ tree u site run e c, parse (lexemes 0 selfCall) = .ok tree ∧
    (tree.check true).errors = 0 ∧ tree.lower "app" = .ok u ∧ site ∈ tree.sites ∧
    Lower.Counterpart tree u site run ∧ site.stmt.operands = [e] ∧ e.idents = ["main"] ∧ site.scope = [] ∧
    site.places run = [([], c)] ∧ c.idents = ["main"] ∧ (∃ d, tree.items[0]? = some (.fn d) ∧ d.name = "main") ∧
    u.Defines 0 "pine_lang_main" ∧ ¬ u.Defines 0 "main" := by
  have test : ((parse (lexemes 0 selfCall)).toOption.map fun tree => ((tree.check true).errors,
      tree.sites.any (isCall "main"), tree.items[0]?.map (Item.isFn "main"))) = some (0, true, some true) := by
    decide +kernel
  obtain ⟨tree, parsed, facts⟩ := Lower.ok_of_test test
  simp only [Prod.mk.injEq] at facts
  obtain ⟨accepted, found, first⟩ := facts
  obtain ⟨site, member, isHere⟩ := List.any_eq_true.mp found
  obtain ⟨-, u, lowered⟩ := lower_of_accepted parsed accepted "app"
  obtain ⟨run, counterpart⟩ := Lower.exists_counterpart lowered member
  obtain ⟨e, c, operands, mentions, scope, place, idents⟩ := call_places isHere counterpart
  obtain ⟨d, atItem, named⟩ := fn_of_isFn first
  refine ⟨tree, u, site, run, e, c, parsed, accepted, lowered, member, counterpart, operands, mentions, scope, place,
    idents, ⟨d, atItem, named⟩, ?_, ?_⟩
  · rw [defines_fn lowered atItem, named]
    rfl
  · rw [defines_fn lowered atItem, named]
    decide

end PineLang
