import PineLang.Proofs.LoweredUnit

/-!
Struct names and the objects around them. In C a struct's name and the names of objects live in one name
space, so the name of a struct means its type only where no parameter and no local around it has that name.
Lowering writes struct names as types in signatures, in declarations of locals and temporaries, and in
constructors. All of them keep their meaning exactly if the file declares no parameter, local or field of a
struct's name at the wrong place (`type_names_visible_iff`), and constructors bring one name of their own.
-/
namespace PineLang

namespace C

/-! ## Struct names in types -/

/-- The struct that a type names. -/
@[simp] def CType.structs : CType → List String
  | .struct n => [n]
  | .ptr t => t.structs
  | _ => []

mutual

/-- The structs that the types in an expression name. -/
def CExpr.structs : CExpr → List String
  | .ident _ => []
  | .const _ => []
  | .type t => t.structs
  | .sizeOf t => t.structs
  | .member x _ _ => x.structs
  | .call f args => f.structs ++ argStructs args
  | .cast t x => t.structs ++ x.structs
  | .unary _ x => x.structs
  | .binary _ a b => a.structs ++ b.structs
  | .assign _ a b => a.structs ++ b.structs
  | .missing => []
termination_by structural x => x

/-- The structs that the types in arguments name. -/
def argStructs : List CExpr → List String
  | [] => []
  | x :: xs => x.structs ++ argStructs xs
termination_by structural xs => xs

end

/-- The structs that the types in a statement name, without those in the statements inside it. -/
@[simp] def CStmt.structs : CStmt → List String
  | .var _ t => t.structs
  | s => s.evaluated.flatMap CExpr.structs

/-- A place where a struct's name stands as a type: the objects around it that are declared before, innermost
    first, and the name. -/
structure TypePlace where
  scope : List String
  struct : String
  deriving DecidableEq

/-- No object hides the struct. -/
def TypePlace.Visible (p : TypePlace) : Prop := p.struct ∉ p.scope

instance : DecidablePred TypePlace.Visible := fun p => inferInstanceAs (Decidable (p.struct ∉ p.scope))

/-- The places in a list of parameters, each of which sees those before it. -/
def paramPlaces (scope : List String) : List CParam → List TypePlace
  | [] => []
  | p :: ps => p.type.structs.map (⟨scope, ·⟩) ++ paramPlaces (p.name :: scope) ps

/-- The places in a statement, without those in the statements inside it. -/
def CodeSite.typePlaces (site : CodeSite) : List TypePlace := site.stmt.structs.map (⟨site.scope, ·⟩)

/-- The places in a declaration. -/
@[simp] def Decl.typePlaces : Decl → List TypePlace
  | .struct _ ms => ms.flatMap fun m => m.type.structs.map (⟨[], ·⟩)
  | .var _ t init => (t.structs ++ (init.map CExpr.structs).getD []).map (⟨[], ·⟩)
  | .fn _ ps ret body => ret.structs.map (⟨[], ·⟩) ++ paramPlaces [] ps ++
    (codeSites (paramScope (ps.map (·.name))) (body.getD [])).flatMap CodeSite.typePlaces

/-- Wherever a struct's name stands as a type in the unit, no parameter and no local hides the struct. -/
def CUnit.TypesVisible (u : CUnit) : Prop := ∀ d ∈ u.decls, ∀ p ∈ d.typePlaces, p.Visible

instance (u : CUnit) : Decidable u.TypesVisible :=
  inferInstanceAs (Decidable (∀ d ∈ u.decls, ∀ p ∈ d.typePlaces, p.Visible))

/-- The places in a unit where an object hides the struct. -/
def CUnit.hiddenPlaces (u : CUnit) : List TypePlace :=
  (u.decls.flatMap Decl.typePlaces).filter fun p => p.scope.contains p.struct

theorem visible_append {ps qs : List TypePlace} :
    (∀ p ∈ ps ++ qs, p.Visible) ↔ (∀ p ∈ ps, p.Visible) ∧ ∀ p ∈ qs, p.Visible := List.forall_mem_append

theorem visible_names {scope names : List String} :
    (∀ p ∈ names.map (TypePlace.mk scope), p.Visible) ↔ ∀ n ∈ names, n ∉ scope := List.forall_mem_map

/-- Parameters hide no struct that a later one names. -/
theorem paramPlaces_visible_iff : ∀ {ps : List CParam} {scope : List String},
    (∀ p ∈ paramPlaces scope ps, p.Visible) ↔
      ∀ (k : Nat) (p : CParam), ps[k]? = some p → ∀ n ∈ p.type.structs, n ∉ (ps.take k).map (·.name) ++ scope
  | [], scope => by simp [paramPlaces]
  | p :: ps, scope => by
    rw [paramPlaces, visible_append, visible_names, paramPlaces_visible_iff]
    constructor
    · rintro ⟨first, rest⟩ k q here n named
      cases k with
      | zero =>
        cases here
        exact first n named
      | succ k =>
        have clear := rest k q here n named
        simp only [List.mem_append, List.mem_cons, not_or] at clear
        simp only [List.take_succ_cons, List.map_cons, List.cons_append, List.mem_cons, List.mem_append, not_or]
        exact ⟨clear.2.1, clear.1, clear.2.2⟩
    · intro each
      refine ⟨fun n named => each 0 p rfl n named, ?_⟩
      intro k q here n named
      have clear := each (k + 1) q here n named
      simp only [List.take_succ_cons, List.map_cons, List.cons_append, List.mem_cons, List.mem_append, not_or] at clear
      simp only [List.mem_append, List.mem_cons, not_or]
      exact ⟨clear.2.1, clear.1, clear.2.2⟩

end C

/-! ## What a file has to keep to -/

/-- The struct that a type names. -/
def Ty.struct? : Ty → Option String
  | .struct n => some n
  | _ => none

/-- The local of the constructor of a struct. -/
def StructDecl.object (d : StructDecl) : String := Lower.localName (d.fields.map (·.name) ++ d.fields.map (·.name))

/-- Typed names hide no struct that a later one of them names. -/
def Unhiding (ps : List Param) : Prop :=
  ∀ (k : Nat) (p : Param), ps[k]? = some p → ∀ n, p.type.ty.struct? = some n → n ∉ (ps.take k).map (·.name)

/-- The parameters and the local of the constructor hide no struct that it names. -/
structure StructDecl.TypesClear (d : StructDecl) : Prop where
  fields : Unhiding d.fields
  own : d.name ∉ d.fields.map (·.name)
  object : d.name ≠ d.object

/-- The temporaries of a literal hide no struct that a later one names, nor do the objects around them. -/
def TemporariesClear (f : File) (scope : List String) (struct : String) (fields : List FieldInit) : Prop :=
  ∀ (k : Nat) (g : FieldInit), fields[k]? = some g → ∀ d, Item.struct d ∈ f.items → d.name = struct →
    ∀ p ∈ d.fields, p.name = g.name → ∀ n, p.type.ty.struct? = some n → n ∉ (fields.take k).map (·.name) ++ scope

/-- At a binding no object hides the struct that its type names, nor those that the temporaries name. -/
structure Site.TypesClear (f : File) (site : Site) : Prop where
  binding : ∀ x t v, site.stmt.binding? = some (x, t, v) → ∀ n, t.struct? = some n → n ∉ site.scope
  temporaries : ∀ x t v struct fields, site.stmt.binding? = some (x, t, v) → v.literal? = some (struct, fields) →
    TemporariesClear f (x :: site.scope) struct fields

/-- No struct is hidden where its name stands as a type. -/
structure File.TypesClear (f : File) : Prop where
  structs : ∀ d, Item.struct d ∈ f.items → d.TypesClear
  params : ∀ d, Item.fn d ∈ f.items → Unhiding d.params
  sites : ∀ site ∈ f.sites, site.TypesClear f

namespace Lower
open C (CType CExpr CStmt CParam Decl CUnit CodeSite codeSites)

/-! ## Types and expressions -/

theorem ty_structs {t : Ty} {T : CType} (made : ty t = .ok T) : ∀ n, n ∈ T.structs ↔ t.struct? = some n := by
  intro n
  cases t <;> cases made <;> simp [CType.structs, Ty.struct?, eq_comm]

theorem literal_structs {v : Literal} {c : CExpr} (made : literal v = .ok c) : c.structs = [] := by
  cases v with
  | other k t => cases made
  | _ => cases made; rfl

mutual

/-- Expressions name no struct as a type. -/
theorem expr_structs : ∀ {e : Expr} {c : CExpr}, expr e = .ok c → c.structs = []
  | .ident _ n, c, made => by
    cases made
    rfl
  | .lit _ v, c, made => literal_structs made
  | .assign _ a b, c, made => by
    simp only [expr, bind_ok, pure_ok] at made
    obtain ⟨l, left, r, right, rfl⟩ := made
    rw [CExpr.structs, expr_structs left, expr_structs right, List.append_nil]
  | .call _ f args, c, made => by
    simp only [expr, bind_ok, pure_ok] at made
    obtain ⟨cs, inner, g, callee, rfl⟩ := made
    rw [CExpr.structs, expr_structs callee, exprs_structs inner, List.append_nil]
  | .member _ t _ _, c, made => by
    simp only [expr, bind_ok, pure_ok] at made
    obtain ⟨x, target, rfl⟩ := made
    rw [CExpr.structs, expr_structs target]
  | .unary _ _ x, c, made => by
    simp only [expr, bind_ok, pure_ok] at made
    obtain ⟨y, operand, rfl⟩ := made
    rw [CExpr.structs, expr_structs operand]
  | .binary _ _ a b, c, made => by
    simp only [expr, bind_ok, pure_ok] at made
    obtain ⟨_, -, l, left, r, right, rfl⟩ := made
    rw [CExpr.structs, expr_structs left, expr_structs right, List.append_nil]
  | .group _ x, c, made => by
    rw [expr] at made
    exact expr_structs made
  | .structLit _ _ _ _, c, made => by cases made
  | .absent _, c, made => by cases made
  | .hollow _ _, c, made => by cases made

theorem exprs_structs : ∀ {es : List Expr} {cs : List CExpr}, exprs es = .ok cs → C.argStructs cs = []
  | [], cs, made => by
    cases made
    rfl
  | x :: xs, cs, made => by
    simp only [exprs, bind_ok, pure_ok] at made
    obtain ⟨y, first, ys, rest, rfl⟩ := made
    rw [C.argStructs, expr_structs first, exprs_structs rest, List.append_nil]

end

/-! ## Signatures -/

/-- A parameter keeps its name, and its type names the struct that it named. -/
theorem param_cases {p : Param} {c : CParam} (made : param p = .ok c) :
    c.name = p.name ∧ ∀ n, n ∈ c.type.structs ↔ p.type.ty.struct? = some n := by
  simp only [param, bind_ok, pure_ok] at made
  obtain ⟨T, typed, rfl⟩ := made
  exact ⟨rfl, ty_structs typed⟩

theorem params_visible_iff {ps : List Param} {cs : List CParam} (made : ps.mapM param = .ok cs) :
    (∀ p ∈ C.paramPlaces [] cs, p.Visible) ↔ Unhiding ps := by
  have each := mapM_ok_iff.mp made
  have names (k : Nat) : (cs.take k).map (·.name) = (ps.take k).map (·.name) := by
    rw [List.map_take, List.map_take, params_names made]
  rw [C.paramPlaces_visible_iff]
  simp only [List.append_nil, names]
  constructor
  · intro clear k p here n named
    obtain ⟨c, atParam, step⟩ := forall₂_at each here
    exact clear k c atParam n (((param_cases step).2 n).mpr named)
  · intro clear k c here n named
    obtain ⟨p, atParam, step⟩ := forall₂_at each.flip here
    exact clear k p atParam n (((param_cases step).2 n).mp named)

/-! ## Statements -/

/-- Statements without types, inside them as well, have no places. -/
theorem no_places {ss : List CStmt} (plain : ∀ s ∈ ss, s.structs = [] ∧ ∀ scope, s.sites scope = []) :
    ∀ scope, (codeSites scope ss).flatMap CodeSite.typePlaces = [] := by
  induction ss with
  | nil => exact fun _ => rfl
  | cons s ss ih =>
    rw [List.forall_mem_cons] at plain
    intro scope
    rw [codeSites, plain.1.2, List.nil_append, List.flatMap_cons, ih plain.2, CodeSite.typePlaces, plain.1.1]
    rfl

theorem set_structs {a b : CExpr} (left : a.structs = []) (right : b.structs = []) :
    (C.set a b).structs = [] ∧ ∀ scope, (C.set a b).sites scope = [] := by
  refine ⟨?_, fun _ => rfl⟩
  rw [C.set, CStmt.structs, CStmt.evaluated, List.flatMap_singleton, CExpr.structs, left, right]
  · rfl
  · intro n t same
    cases same

/-- The code of a statement that binds nothing names no struct. -/
theorem unbound_structs {ls : Layouts} {s : Stmt} {run : List CStmt} (made : stmt ls s = .ok run)
    (unbound : s.binding? = none) : ∀ c ∈ run, c.structs = [] := by
  have single {x : CExpr} {c : CStmt} (value : x.structs = []) (code : c.structs = [x].flatMap CExpr.structs) :
      ∀ c' ∈ [c], c'.structs = [] := by
    rw [List.forall_mem_singleton, code, List.flatMap_singleton, value]
  cases s with
  | expr _ x =>
    simp only [stmt, bind_ok, pure_ok] at made
    obtain ⟨c, valued, rfl⟩ := made
    exact single (expr_structs valued) rfl
  | cond _ t _ _ =>
    simp only [stmt, bind_ok, pure_ok] at made
    obtain ⟨c, tested, _, -, _, -, rfl⟩ := made
    exact single (expr_structs tested) rfl
  | ret _ v =>
    cases v with
    | none =>
      cases made
      simp [CStmt.structs, CStmt.evaluated]
    | some x =>
      simp only [stmt, bind_ok, pure_ok] at made
      obtain ⟨c, valued, rfl⟩ := made
      exact single (expr_structs valued) rfl
  | loop _ b =>
    simp only [stmt, bind_ok, pure_ok] at made
    obtain ⟨_, -, rfl⟩ := made
    simp [CStmt.structs, CStmt.evaluated, CExpr.structs]
  | block _ ss =>
    simp only [stmt, bind_ok, pure_ok] at made
    obtain ⟨_, -, rfl⟩ := made
    simp [CStmt.structs, CStmt.evaluated]
  | brk _ | empty _ =>
    cases made
    simp [CStmt.structs, CStmt.evaluated]
  | bind _ _ _ _ _ => cases unbound
  | absent _ | hollow _ _ => cases made

/-- The temporaries of a literal name structs like parameters do. -/
theorem temporaries_places {l : Layout} {fs : List FieldInit} {ts : List Temporary}
    (fits : List.Forall₂ (Temporary.Fits l) fs ts) {last : CStmt}
    (plain : last.structs = [] ∧ ∀ scope, last.sites scope = []) :
    ∀ scope, (codeSites scope (ts.flatMap Temporary.code ++ [last])).flatMap CodeSite.typePlaces =
      C.paramPlaces scope (ts.map fun t => ⟨t.name, t.type⟩) := by
  induction fits with
  | nil => exact no_places (by simpa using plain)
  | @cons f t fs ts here _ ih =>
    intro scope
    have assigned := (set_structs (a := .ident t.name) rfl (expr_structs here.value)).1
    have sites : codeSites scope ((t :: ts).flatMap Temporary.code ++ [last]) =
        ⟨scope, .var t.name t.type⟩ :: ⟨t.name :: scope, C.set (.ident t.name) t.value⟩ ::
          codeSites (t.name :: scope) (ts.flatMap Temporary.code ++ [last]) := rfl
    rw [sites, List.flatMap_cons, List.flatMap_cons, ih, CodeSite.typePlaces, CodeSite.typePlaces, assigned,
      List.map_cons, C.paramPlaces]
    rfl

/-- What the temporary of a field names is what the type of the field names. -/
theorem LiteralCode.field_type {struct : StructDecl} {members : List CParam} {fields : List FieldInit}
    {ts : List Temporary} (code : LiteralCode struct members fields ts) {k : Nat} {g : FieldInit} {t : Temporary}
    (atField : fields[k]? = some g) (atTemp : ts[k]? = some t) {p : Param} (inside : p ∈ struct.fields)
    (named : p.name = g.name) (n : String) : n ∈ t.type.structs ↔ p.type.ty.struct? = some n := by
  obtain ⟨t', atTemp', fit⟩ := forall₂_at code.fits atField
  cases Option.some.inj (atTemp.symm.trans atTemp')
  obtain ⟨j, atParam⟩ := List.getElem?_of_mem inside
  obtain ⟨m, atMember, step⟩ := forall₂_at (mapM_ok_iff.mp code.made) atParam
  obtain ⟨same, names⟩ := param_cases step
  have distinct : ((⟨struct.name, members⟩ : Layout).members.map (·.name)).Nodup := by
    rw [params_names code.made]
    exact code.distinct
  have found := memberType_of_mem distinct (List.mem_of_getElem? atMember)
  rw [same, named, fit.type] at found
  rw [Option.some.inj found]
  exact names n

end Lower

theorem typesClear_of_bound {f : File} {site : Site} {x : String} {t : Ty} {v : Expr}
    (bound : site.stmt.binding? = some (x, t, v)) : site.TypesClear f ↔
      (∀ n, t.struct? = some n → n ∉ site.scope) ∧ ∀ struct fields, v.literal? = some (struct, fields) →
        TemporariesClear f (x :: site.scope) struct fields := by
  constructor
  · intro clear
    exact ⟨clear.binding x t v bound, fun struct fields => clear.temporaries x t v struct fields bound⟩
  · rintro ⟨type, temporaries⟩
    refine ⟨?_, ?_⟩
    · intro y t' w bound'
      cases bound.symm.trans bound'
      exact type
    · intro y t' w struct fields bound'
      cases bound.symm.trans bound'
      exact temporaries struct fields

/-- A literal has the type of its binding. -/
theorem Stmt.Valid.literal_typed {f : File} {s : Stmt} (valid : s.Valid f) {x : String} {t : Ty} {v : Expr}
    (bound : s.binding? = some (x, t, v)) {struct : String} {fields : List FieldInit}
    (isLiteral : v.literal? = some (struct, fields)) : t = .struct struct := by
  have own : v ∈ s.exprs := by
    obtain ⟨sp, xs, r, rfl, -⟩ := Stmt.eq_bind bound
    exact List.mem_singleton_self _
  obtain ⟨y, bound'⟩ := valid.literal v own v (self_mem_parts v) struct fields isLiteral
  cases bound.symm.trans bound'
  rfl

theorem File.Valid.struct_unique {f : File} {isProgram : Bool} (valid : f.Valid isProgram) {d e : StructDecl}
    (first : Item.struct d ∈ f.items) (second : Item.struct e ∈ f.items) (same : d.name = e.name) : d = e := by
  have items := List.inj_on_of_nodup_map valid.distinct first second same
  cases items
  rfl

namespace Lower
open C (CType CExpr CStmt CParam Decl CUnit CodeSite codeSites)

/-- In the code of a literal the temporaries hide no struct exactly if they hide none in the source. -/
theorem temporaries_visible_iff {f : File} {isProgram : Bool} (valid : f.Valid isProgram) {struct : StructDecl}
    (isItem : Item.struct struct ∈ f.items) {members : List CParam} {fields : List FieldInit} {ts : List Temporary}
    (code : LiteralCode struct members fields ts) {scope : List String} :
    (∀ p ∈ C.paramPlaces scope (ts.map fun t => ⟨t.name, t.type⟩), p.Visible) ↔
      TemporariesClear f scope struct.name fields := by
  have names (k : Nat) : ((ts.map fun t => (⟨t.name, t.type⟩ : CParam)).take k).map (·.name) =
      (fields.take k).map (·.name) := by
    rw [List.map_take, List.map_take, List.map_map, ← fits_names code.fits]
    rfl
  rw [C.paramPlaces_visible_iff]
  simp only [names, List.getElem?_map]
  constructor
  · intro clear k g atField d isItem' same p inside named n names
    cases valid.struct_unique isItem' isItem same
    obtain ⟨t, atTemp, -⟩ := forall₂_at code.fits atField
    refine clear k ⟨t.name, t.type⟩ (by rw [atTemp]; rfl) n ?_
    exact (code.field_type atField atTemp inside named n).mpr names
  · intro clear k c here n names
    obtain ⟨t, atTemp, rfl⟩ := Option.map_eq_some_iff.mp here
    obtain ⟨g, atField, -⟩ := forall₂_at code.fits.flip atTemp
    obtain ⟨p, inside, named⟩ := List.mem_map.mp
      (code.permuted.mem_iff.mp (List.mem_map_of_mem (List.mem_of_getElem? atField)))
    exact clear k g atField struct isItem rfl p inside named n ((code.field_type atField atTemp inside named n).mp names)

theorem argStructs_idents (xs : List String) : C.argStructs (xs.map .ident) = [] := by
  induction xs with
  | nil => rfl
  | cons x xs ih =>
    rw [List.map_cons, C.argStructs, ih]
    rfl

/-- The code of a binding names structs in the type of its local only. -/
theorem value_places {e : Expr} {c : CExpr} (valued : expr e = .ok c) (scope : List String) (x : String) (T : CType) :
    (codeSites scope [.var x T, C.set (.ident x) c]).flatMap CodeSite.typePlaces = T.structs.map (⟨scope, ·⟩) := by
  have assigned : (codeSites (x :: scope) [C.set (.ident x) c]).flatMap CodeSite.typePlaces = [] :=
    no_places (List.forall_mem_singleton.mpr (set_structs rfl (expr_structs valued))) (x :: scope)
  have sites : codeSites scope [.var x T, C.set (.ident x) c] =
      ⟨scope, .var x T⟩ :: codeSites (x :: scope) [C.set (.ident x) c] := rfl
  rw [sites, List.flatMap_cons, assigned, List.append_nil]
  rfl

/-- The code of a binding of a literal names its struct, and then what the temporaries name. -/
theorem literal_places {l : Layout} {fs : List FieldInit} {ts : List Temporary}
    (fits : List.Forall₂ (Temporary.Fits l) fs ts) (scope : List String) (x struct : String) (args : List String) :
    (codeSites scope [.var x (.ptr (.struct struct)), .block (ts.flatMap Temporary.code ++
        [C.set (.ident x) (C.call (constructorName struct) (args.map .ident))])]).flatMap CodeSite.typePlaces =
      ⟨scope, struct⟩ :: C.paramPlaces (x :: scope) (ts.map fun t => ⟨t.name, t.type⟩) := by
  have built := set_structs (a := .ident x) (b := C.call (constructorName struct) (args.map .ident)) rfl (by
    rw [C.call, CExpr.structs, argStructs_idents]
    rfl)
  rw [← temporaries_places fits built]
  simp [codeSites, CStmt.sites, CStmt.declared, CodeSite.typePlaces, CStmt.structs, CStmt.evaluated, CType.structs]

/-- In the code of a site no struct is hidden exactly if none is hidden at the site. -/
theorem site_visible_iff {f : File} {isProgram : Bool} (valid : f.Valid isProgram) {name : String} {u : CUnit}
    (lowered : f.lower name = .ok u) {ls : Layouts} (laid : layouts [] f.items = .ok ls) {site : Site}
    (member : site ∈ f.sites) :
    (∀ p ∈ (ownCode ls site).flatMap CodeSite.typePlaces, p.Visible) ↔ site.TypesClear f := by
  obtain ⟨run, _, _, ls', _, _, _, _, -, -, -, laid', made, -⟩ := exists_counterpart lowered member
  cases Except.ok.inj (laid.symm.trans laid')
  cases bound : site.stmt.binding? with
  | none =>
    have none : (ownCode ls site).flatMap CodeSite.typePlaces = [] := by
      rw [ownCode_unbound site made bound, List.flatMap_map, List.flatMap_eq_nil_iff]
      intro c inside
      rw [CodeSite.typePlaces, unbound_structs made bound c inside, List.map_nil]
    rw [none]
    refine iff_of_true (by simp) ⟨?_, ?_⟩
    · intro x t v bound'
      rw [bound] at bound'
      cases bound'
    · intro x t v struct fields bound'
      rw [bound] at bound'
      cases bound'
  | some binding =>
    obtain ⟨x, t, v⟩ := binding
    rw [ownCode_bound site made (by rw [bound]; rfl)]
    cases isLiteral : v.literal? with
    | none =>
      rw [stmt_of_binding bound] at made
      rcases binding_cases made with ⟨T, c, -, typed, valued, rfl⟩ | ⟨_, _, _, _, _, _, isLiteral', -⟩
      · rw [value_places valued, C.visible_names, typesClear_of_bound bound]
        simp only [ty_structs typed, isLiteral, reduceCtorEq, false_imp_iff, implies_true, and_true]
      · cases isLiteral.symm.trans isLiteral'
    | some literal =>
      obtain ⟨struct, fields⟩ := literal
      obtain ⟨decl, members, ts, isItem, named, -, code, _, _, ls', _, _, _, _, -, -, -, laid', made', -⟩ :=
        literal_code valid lowered member bound isLiteral
      cases Except.ok.inj (laid.symm.trans laid')
      cases Except.ok.inj (made.symm.trans made')
      subst named
      rw [literal_places code.fits, List.forall_mem_cons, temporaries_visible_iff valid isItem code, typesClear_of_bound bound,
        (valid.stmt member).literal_typed bound isLiteral]
      simp [C.TypePlace.Visible, Ty.struct?, isLiteral]

/-! ## Constructors -/

theorem construction_places (l : Layout) (scope : List String) :
    (codeSites scope l.construction).flatMap CodeSite.typePlaces =
      [⟨scope, l.name⟩, ⟨l.object :: scope, l.name⟩, ⟨l.object :: scope, l.name⟩] := by
  have stores : ∀ s ∈ l.members.map (fun m => C.set (.member (.ident l.object) .indirect m.name) (.ident m.name)) ++
      [CStmt.ret (some (.ident l.object))], s.structs = [] ∧ ∀ scope, s.sites scope = [] := by
    rw [List.forall_mem_append, List.forall_mem_map]
    exact ⟨fun m _ => set_structs rfl rfl, List.forall_mem_singleton.mpr ⟨rfl, fun _ => rfl⟩⟩
  have sites : codeSites scope l.construction =
      ⟨scope, .var l.object (.ptr (.struct l.name))⟩ :: ⟨l.object :: scope, C.set (.ident l.object) l.allocation⟩ ::
        codeSites (l.object :: scope) (l.members.map (fun m =>
          C.set (.member (.ident l.object) .indirect m.name) (.ident m.name)) ++ [CStmt.ret (some (.ident l.object))]) := rfl
  rw [sites, List.flatMap_cons, List.flatMap_cons, no_places stores]
  rfl

/-- The constructor of a struct hides none exactly if the struct's fields and the local do not. -/
theorem constructor_visible_iff {d : StructDecl} {l : Layout} (laid : LaidOut d l)
    (free : ∀ m ∈ l.members, FreeName m.name) : (∀ p ∈ (constructor l).typePlaces, p.Visible) ↔ d.TypesClear := by
  have object : l.object = d.object := by rw [Layout.object, laid.names, StructDecl.object]
  have scope : paramScope (l.members.map (·.name)) = (d.fields.map (·.name)).reverse := by rw [laid.names, paramScope]
  rw [constructor_of_free free, Decl.typePlaces, Option.getD_some, construction_places, C.visible_append,
    C.visible_append, params_visible_iff laid.members, scope, laid.name, object]
  have places : (∀ p ∈ [C.TypePlace.mk (d.fields.map (·.name)).reverse d.name,
      ⟨d.object :: (d.fields.map (·.name)).reverse, d.name⟩, ⟨d.object :: (d.fields.map (·.name)).reverse, d.name⟩],
        p.Visible) ↔ d.name ∉ d.fields.map (·.name) ∧ d.name ≠ d.object := by
    rw [List.forall_mem_cons, List.forall_mem_cons, List.forall_mem_singleton]
    simp only [C.TypePlace.Visible, List.mem_cons, List.mem_reverse, not_or]
    tauto
  rw [places]
  constructor
  · rintro ⟨⟨-, fields⟩, own, local'⟩
    exact ⟨fields, own, local'⟩
  · intro clear
    exact ⟨⟨by simp [CType.structs, C.TypePlace.Visible], clear.fields⟩, clear.own, clear.object⟩

/-! ## Items -/

theorem item_visible_iff {f : File} {isProgram : Bool} (valid : f.Valid isProgram) {name : String} {u : CUnit}
    (lowered : f.lower name = .ok u) {ls : Layouts} (laid : layouts [] f.items = .ok ls) {i : Item}
    (member : i ∈ f.items) {d : Decl} (made : item ls i = .ok d) : (∀ p ∈ d.typePlaces, p.Visible) ↔
      ∀ e, i = .fn e → Unhiding e.params ∧ ∀ site ∈ e.sites, site.TypesClear f := by
  cases i with
  | fn e =>
    simp only [item, bind_ok, pure_ok] at made
    obtain ⟨params, paramsOk, ret, retOk, inner, innerOk, rfl⟩ := made
    have result : ∀ p ∈ ret.structs.map (C.TypePlace.mk []), p.Visible := by simp [C.TypePlace.Visible]
    have body : (∀ p ∈ (codeSites (paramScope (params.map (·.name))) inner).flatMap CodeSite.typePlaces, p.Visible) ↔
        ∀ site ∈ e.sites, site.TypesClear f := by
      rw [fn_sites (params_names paramsOk) innerOk, List.flatMap_assoc, List.forall_mem_flatMap]
      exact forall₂_congr fun site inside =>
        site_visible_iff valid lowered laid (mem_fileSites.mpr ⟨e, member, inside⟩)
    rw [Decl.typePlaces, Option.getD_some, C.visible_append, C.visible_append, params_visible_iff paramsOk, body]
    constructor
    · rintro ⟨⟨-, params⟩, sites⟩ _ ⟨⟩
      exact ⟨params, sites⟩
    · intro clear
      obtain ⟨params, sites⟩ := clear e rfl
      exact ⟨⟨result, params⟩, sites⟩
  | struct e =>
    cases made
    refine iff_of_true ?_ (by simp)
    intro p inside
    obtain ⟨m, -, named⟩ := List.mem_flatMap.mp inside
    obtain ⟨n, -, rfl⟩ := List.mem_map.mp named
    exact List.not_mem_nil
  | absent _ | hollow _ _ => cases made

end Lower

/-- In the unit of an accepted file struct names are visible wherever they stand as types, exactly if the
    file keeps clear of them: no parameter or field hides a struct that a later one of its list names, no
    local one that a binding or a temporary inside its scope names, and neither a field nor the local of a
    constructor the struct itself. -/
theorem type_names_visible_iff (file : Nat) (content : Bytes) (tree : File) (isProgram : Bool) (name : String)
    (parsed : parse (lexemes file content) = .ok tree) (accepted : (tree.check isProgram).errors = 0) :
    ∃ u, tree.lower name = .ok u ∧ (u.TypesVisible ↔ tree.TypesClear) := by
  obtain ⟨valid, u, lowered⟩ := lower_of_accepted parsed accepted name
  obtain ⟨ls, decls, unit⟩ := Lower.unit_cases lowered
  refine ⟨u, lowered, ?_⟩
  have items : (∀ d ∈ decls, ∀ p ∈ d.typePlaces, p.Visible) ↔
      ∀ e, Item.fn e ∈ tree.items → Unhiding e.params ∧ ∀ site ∈ e.sites, site.TypesClear tree := by
    constructor
    · intro visible e member
      obtain ⟨k, atItem⟩ := List.getElem?_of_mem member
      obtain ⟨d, atDecl, made⟩ := Lower.forall₂_at unit.items atItem
      exact (Lower.item_visible_iff valid lowered unit.layouts member made).mp
        (visible d (List.mem_of_getElem? atDecl)) e rfl
    · intro clear d inside
      obtain ⟨k, atDecl⟩ := List.getElem?_of_mem inside
      obtain ⟨i, atItem, made⟩ := Lower.forall₂_at unit.items.flip atDecl
      have member := List.mem_of_getElem? atItem
      refine (Lower.item_visible_iff valid lowered unit.layouts member made).mpr ?_
      rintro e rfl
      exact clear e member
  have constructors : (∀ d ∈ ls.map Lower.constructor, ∀ p ∈ d.typePlaces, p.Visible) ↔
      ∀ d, Item.struct d ∈ tree.items → d.TypesClear := by
    rw [List.forall_mem_map]
    constructor
    · intro visible d member
      obtain ⟨k, atStruct⟩ := List.getElem?_of_mem (Check.mem_structs.mpr member)
      obtain ⟨l, atLayout, laid⟩ := Lower.forall₂_at unit.structs atStruct
      exact (Lower.constructor_visible_iff laid (laid.free (valid.structs d member))).mp
        (visible l (List.mem_of_getElem? atLayout))
    · intro clear l inside
      obtain ⟨k, atLayout⟩ := List.getElem?_of_mem inside
      obtain ⟨d, atStruct, laid⟩ := Lower.forall₂_at unit.structs.flip atLayout
      have member := Check.mem_structs.mp (List.mem_of_getElem? atStruct)
      exact (Lower.constructor_visible_iff laid (laid.free (valid.structs d member))).mpr (clear d member)
  rw [C.CUnit.TypesVisible, unit.decls, List.forall_mem_append, items, constructors]
  constructor
  · rintro ⟨fns, structs⟩
    refine ⟨structs, fun d member => (fns d member).1, ?_⟩
    intro site member
    obtain ⟨d, isItem, inside⟩ := mem_fileSites.mp member
    exact (fns d isItem).2 site inside
  · intro clear
    refine ⟨?_, clear.structs⟩
    intro d member
    exact ⟨clear.params d member, fun site inside => clear.sites site (mem_fileSites.mpr ⟨d, member, inside⟩)⟩

/-- A struct with a field of its own type, and a literal of it whose temporaries name the struct again. -/
def linked : Bytes :=
  utf8 ("type Node \x7b value: i64, next: Node \x7d\nfun push(tail: Node, v: i64) -> Node:\n" ++
    "    let head: Node = Node \x7b value: v, next: tail \x7d\n    return head\n")

theorem type_names_linked : ∃ tree u, parse (lexemes 0 linked) = .ok tree ∧ (tree.check false).errors = 0 ∧
    tree.lower "app" = .ok u ∧ (u.decls.flatMap C.Decl.typePlaces).map (·.struct) = List.replicate 10 "Node" ∧
    u.TypesVisible ∧ tree.TypesClear := by
  have run : ((parse (lexemes 0 linked)).toOption.map fun tree => ((tree.check false).errors,
      (tree.lower "app").toOption.map fun u =>
        ((u.decls.flatMap C.Decl.typePlaces).map (·.struct), decide u.TypesVisible))) =
      some (0, some (List.replicate 10 "Node", true)) := by
    rw [linked]
    simp only [utf8_append]
    repeat rw [utf8_ofList]
    decide +kernel
  obtain ⟨tree, parsed, facts⟩ := Lower.ok_of_test run
  obtain ⟨accepted, code⟩ := Prod.mk.inj facts
  obtain ⟨v, lowered', places⟩ := Lower.ok_of_test code
  obtain ⟨names, visible⟩ := Prod.mk.inj places
  obtain ⟨u, lowered, clear⟩ := type_names_visible_iff 0 linked tree false "app" parsed accepted
  cases Except.ok.inj (lowered.symm.trans lowered')
  exact ⟨tree, v, parsed, accepted, lowered, names, of_decide_eq_true visible, clear.mp (of_decide_eq_true visible)⟩

/-- A struct of the name that constructors give their local, a struct with a field of its own name, and a
    function with a parameter of the name of a struct that a later parameter has. -/
def obscured : Bytes := utf8 "type n \x7b a: i64 \x7d\ntype m \x7b m: i64 \x7d\nfun f(m: i64, q: m) -> _: _\n"

/-- In the signature of the function, in the cast and in the size of the allocation of one constructor, and
    wherever the other names its struct inside, an object has the name of the struct. -/
theorem type_names_hidden : ∃ tree u, parse (lexemes 0 obscured) = .ok tree ∧ (tree.check false).errors = 0 ∧
    tree.lower "app" = .ok u ∧ u.hiddenPlaces = [⟨["m"], "m"⟩, ⟨["n", "a"], "n"⟩, ⟨["n", "a"], "n"⟩, ⟨["m"], "m"⟩,
      ⟨["n", "m"], "m"⟩, ⟨["n", "m"], "m"⟩] ∧ ¬ u.TypesVisible := by
  have run : ((parse (lexemes 0 obscured)).toOption.map fun tree => ((tree.check false).errors,
      (tree.lower "app").toOption.map fun u => (u.hiddenPlaces, decide u.TypesVisible))) =
      some (0, some ([⟨["m"], "m"⟩, ⟨["n", "a"], "n"⟩, ⟨["n", "a"], "n"⟩, ⟨["m"], "m"⟩, ⟨["n", "m"], "m"⟩,
        ⟨["n", "m"], "m"⟩], false)) := by
    rw [obscured, utf8_ofList]
    decide +kernel
  obtain ⟨tree, parsed, facts⟩ := Lower.ok_of_test run
  obtain ⟨accepted, code⟩ := Prod.mk.inj facts
  obtain ⟨u, lowered, places⟩ := Lower.ok_of_test code
  obtain ⟨hidden, visible⟩ := Prod.mk.inj places
  exact ⟨tree, u, parsed, accepted, lowered, hidden, of_decide_eq_false visible⟩

end PineLang
