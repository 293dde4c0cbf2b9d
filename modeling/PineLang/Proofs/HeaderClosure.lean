import PineLang.Proofs.FileScope
import PineLang.Proofs.ReadBack

/-!
The header of a generated unit closes its source. Every struct that a type names, in a signature, a member or
the body of a function, is one that the file declares (`item_known`, `constructor_known`), so the header declares it once; every
definition of the source has its prototype there; and between them they hold the declarations of the unit
(`header_closes`).
-/
namespace PineLang

namespace C

/-! ## The two halves of a unit -/

/-- The struct that a declaration declares. -/
def Decl.struct? : Decl → Option String
  | .struct n _ => some n
  | _ => none

/-- The structs that the types in a declaration name. -/
def Decl.typeStructs (d : Decl) : List String := d.typePlaces.map (·.struct)

/-- The structs that the types in a unit name. -/
def CUnit.typeStructs (u : CUnit) : List String := u.decls.flatMap Decl.typeStructs

/-- The header and the source of a unit belong together. -/
structure CUnit.Closed (u : CUnit) : Prop where
  /-- In the header the structs come first and then the prototypes, and there is nothing else. -/
  structsFirst : ∃ structs prototypes, u.header.decls = structs ++ prototypes ∧
    (∀ d ∈ structs, ∃ n ms, d = .struct n ms) ∧ ∀ d ∈ prototypes, ∃ n ps r, d = .fn n ps r none
  /-- A struct that a type names is declared by exactly one of these structs. -/
  declared : ∀ n ∈ u.header.typeStructs ++ u.source.typeStructs, (u.header.decls.filterMap Decl.struct?).count n = 1
  /-- A member that names a struct points to it and is printed with its tag. -/
  tagged : ∀ n ms, Decl.struct n ms ∈ u.header.decls → ∀ m ∈ ms, ∀ s ∈ m.type.structs,
    m.type = .ptr (.struct s) ∧ memberType m.type = "struct " ++ s ++ "*"
  /-- The source holds definitions, and the header one prototype for each, with its parameters and result. -/
  definitions : ∀ d ∈ u.source.decls, ∃ n ps r body, d = .fn n ps r (some body) ∧
    u.header.decls.filter (fun e => !e.struct?.isSome && e.name == n) = [.fn n ps r none]
  /-- Each prototype has its definition. -/
  prototypes : ∀ n ps r, Decl.fn n ps r none ∈ u.header.decls → ∃ body, Decl.fn n ps r (some body) ∈ u.source.decls
  /-- The structs of the header are those of the unit, in their order. -/
  structs : u.header.decls.filter (·.struct?.isSome) = u.decls.filter (·.struct?.isSome)
  /-- The functions of the source are all else in the unit, in their order. -/
  functions : u.source.decls = u.decls.filter (!·.struct?.isSome)
  /-- No declaration comes twice. -/
  once : (u.decls.map Decl.name).Nodup

/-- A struct, or a function with a body. -/
inductive Decl.Whole : Decl → Prop
  | struct (n : String) (ms : List CParam) : Whole (.struct n ms)
  | definition (n : String) (ps : List CParam) (r : CType) (body : List CStmt) : Whole (.fn n ps r (some body))

section
variable {u : CUnit}

/-- Among whole declarations the shared ones are the structs. -/
theorem isShared_eq {d : Decl} (whole : d.Whole) : d.isShared = d.struct?.isSome := by cases whole <;> rfl

theorem isDefinition_eq {d : Decl} (whole : d.Whole) : d.isDefinition = !d.struct?.isSome := by cases whole <;> rfl

theorem source_decls (whole : ∀ d ∈ u.decls, d.Whole) : u.source.decls = u.decls.filter (!·.struct?.isSome) :=
  List.filter_congr fun d inside => isDefinition_eq (whole d inside)

theorem header_decls (whole : ∀ d ∈ u.decls, d.Whole) :
    u.header.decls = u.decls.filter (·.struct?.isSome) ++ u.decls.filterMap Decl.prototype? := by
  rw [CUnit.header, List.filter_congr fun d inside => isShared_eq (whole d inside)]

theorem prototype_struct {d e : Decl} (made : d.prototype? = some e) : e.struct? = none ∧ e.name = d.name := by
  cases d <;> cases made
  exact ⟨rfl, rfl⟩

/-- A prototype names no struct that the function does not name. -/
theorem prototype_typeStructs {d e : Decl} (made : d.prototype? = some e) : e.typeStructs ⊆ d.typeStructs := by
  cases d <;> cases made
  refine List.map_subset _ ?_
  rw [Decl.typePlaces, Decl.typePlaces, Option.getD_none, codeSites, List.flatMap_nil, List.append_nil]
  exact List.subset_append_left _ _

theorem halves_typeStructs (whole : ∀ d ∈ u.decls, d.Whole) :
    u.header.typeStructs ++ u.source.typeStructs ⊆ u.typeStructs := by
  intro n named
  obtain inHeader | inSource := List.mem_append.mp named
  · obtain ⟨d, inside, here⟩ := List.mem_flatMap.mp inHeader
    rw [header_decls whole] at inside
    obtain shared | prototype := List.mem_append.mp inside
    · exact List.mem_flatMap.mpr ⟨d, List.mem_of_mem_filter shared, here⟩
    · obtain ⟨e, isDecl, made⟩ := List.mem_filterMap.mp prototype
      exact List.mem_flatMap.mpr ⟨e, isDecl, prototype_typeStructs made here⟩
  · obtain ⟨d, inside, here⟩ := List.mem_flatMap.mp inSource
    exact List.mem_flatMap.mpr ⟨d, List.mem_of_mem_filter inside, here⟩

/-- The structs that the header declares are those that the unit declares. -/
theorem header_structs (whole : ∀ d ∈ u.decls, d.Whole) :
    u.header.decls.filterMap Decl.struct? = u.decls.filterMap Decl.struct? := by
  have none : (u.decls.filterMap Decl.prototype?).filterMap Decl.struct? = [] := by
    rw [List.filterMap_eq_nil_iff]
    intro e inside
    obtain ⟨d, -, made⟩ := List.mem_filterMap.mp inside
    exact (prototype_struct made).1
  rw [header_decls whole, List.filterMap_append, none, List.append_nil, List.filterMap_filter]
  refine List.filterMap_congr fun d _ => ?_
  cases d <;> rfl

/-- What is picked from the declarations comes in their order, under their names. -/
theorem names_sublist {α : Type} {pick : Decl → Option α} {name : α → String}
    (same : ∀ d x, pick d = some x → name x = d.name) : ∀ ds : List Decl,
      ((ds.filterMap pick).map name).Sublist (ds.map Decl.name)
  | [] => .slnil
  | d :: ds => by
    have rest := names_sublist same ds
    cases picked : pick d with
    | none =>
      rw [List.filterMap_cons_none picked]
      exact rest.cons d.name
    | some x =>
      rw [List.filterMap_cons_some picked, List.map_cons, List.map_cons, same d x picked]
      exact rest.cons_cons d.name

/-- The prototypes of the header are those of the definitions. -/
theorem header_functions (whole : ∀ d ∈ u.decls, d.Whole) :
    u.header.decls.filter (!·.struct?.isSome) = u.decls.filterMap Decl.prototype? := by
  rw [header_decls whole, List.filter_append, List.filter_filter]
  have none : u.decls.filter (fun d => !d.struct?.isSome && d.struct?.isSome) = [] := by simp
  rw [none, List.nil_append, List.filter_eq_self]
  intro e inside
  obtain ⟨d, -, made⟩ := List.mem_filterMap.mp inside
  simp [(prototype_struct made).1]

/-- A unit of structs and definitions with distinct names splits into a header and a source that belong together,
    if its types name no other structs and its members only point to them. -/
theorem closed_of_whole (whole : ∀ d ∈ u.decls, d.Whole) (once : (u.decls.map Decl.name).Nodup)
    (known : ∀ n ∈ u.typeStructs, n ∈ u.decls.filterMap Decl.struct?)
    (pointers : ∀ n ms, Decl.struct n ms ∈ u.decls → ∀ m ∈ ms, ∀ s ∈ m.type.structs, m.type = .ptr (.struct s)) :
    u.Closed where
  structsFirst := by
    refine ⟨_, _, header_decls whole, ?_, ?_⟩
    · intro d inside
      obtain ⟨isDecl, isStruct⟩ := List.mem_filter.mp inside
      cases whole d isDecl with
      | struct n ms => exact ⟨n, ms, rfl⟩
      | definition => cases isStruct
    · intro d inside
      obtain ⟨e, isDecl, made⟩ := List.mem_filterMap.mp inside
      cases whole e isDecl with
      | struct => cases made
      | definition n ps r body =>
        cases made
        exact ⟨n, ps, r, rfl⟩
  declared := by
    intro n named
    rw [header_structs whole]
    have own : ∀ d n, Decl.struct? d = some n → id n = d.name := by
      intro d n isStruct
      cases d <;> cases isStruct
      rfl
    have distinct := once.sublist (names_sublist own u.decls)
    rw [List.map_id] at distinct
    exact List.count_eq_one_of_mem distinct (known n (halves_typeStructs whole named))
  tagged := by
    intro n ms inside m isMember s named
    have isDecl : Decl.struct n ms ∈ u.decls := by
      rw [header_decls whole] at inside
      obtain shared | prototype := List.mem_append.mp inside
      · exact List.mem_of_mem_filter shared
      · obtain ⟨e, -, made⟩ := List.mem_filterMap.mp prototype
        cases (prototype_struct made).1
    have pointer := pointers n ms isDecl m isMember s named
    rw [pointer, String.append_assoc]
    exact ⟨rfl, rfl⟩
  definitions := by
    intro d inside
    obtain ⟨isDecl, isFn⟩ := List.mem_filter.mp (source_decls whole ▸ inside)
    cases whole d isDecl with
    | struct => cases isFn
    | definition n ps r body =>
      refine ⟨n, ps, r, body, rfl, ?_⟩
      have own : Decl.fn n ps r none ∈ u.decls.filterMap Decl.prototype? := List.mem_filterMap.mpr ⟨_, isDecl, rfl⟩
      have distinct : ((u.decls.filterMap Decl.prototype?).map Decl.name).Nodup :=
        once.sublist (names_sublist (fun _ _ made => (prototype_struct made).2) u.decls)
      simp only [Bool.and_comm]
      rw [← List.filter_filter, header_functions whole]
      exact filter_of_distinct distinct own
  prototypes := by
    intro n ps r inside
    have prototype : Decl.fn n ps r none ∈ u.decls.filterMap Decl.prototype? := by
      rw [← header_functions whole]
      exact List.mem_filter.mpr ⟨inside, rfl⟩
    obtain ⟨d, isDecl, made⟩ := List.mem_filterMap.mp prototype
    cases whole d isDecl with
    | struct => cases made
    | definition n ps r body =>
      cases made
      rw [source_decls whole]
      exact ⟨body, List.mem_filter.mpr ⟨isDecl, rfl⟩⟩
  structs := by
    have none : (u.decls.filterMap Decl.prototype?).filter (·.struct?.isSome) = [] := by
      rw [List.filter_eq_nil_iff]
      intro e inside
      obtain ⟨d, -, made⟩ := List.mem_filterMap.mp inside
      simp [(prototype_struct made).1]
    rw [header_decls whole, List.filter_append, none, List.append_nil, List.filter_filter]
    simp
  functions := source_decls whole
  once := once

end
end C

/-! ## The structs that a unit names -/

namespace Lower
open C (CType CExpr CStmt CParam Decl CUnit CodeSite codeSites)

variable {structs : List String}

/-- The layout is that of a known struct, and its members name no other. -/
structure Layout.Known (structs : List String) (l : Layout) : Prop where
  name : l.name ∈ structs
  members : ∀ m ∈ l.members, m.type.structs ⊆ structs

theorem ty_known {t : Ty} {T : CType} (made : ty t = .ok T) (among : t.Among structs) : T.structs ⊆ structs := by
  intro n named
  refine among n ?_
  have isStruct := (ty_structs made n).mp named
  cases t <;> cases isStruct
  rfl

theorem params_known {ps : List Param} {cs : List CParam} (made : ps.mapM param = .ok cs)
    (among : ∀ p ∈ ps, p.type.ty.Among structs) : ∀ c ∈ cs, c.type.structs ⊆ structs := by
  intro c inside
  obtain ⟨k, here⟩ := List.getElem?_of_mem inside
  obtain ⟨p, atParam, step⟩ := forall₂_at (mapM_ok_iff.mp made).flip here
  simp only [param, bind_ok, pure_ok] at step
  obtain ⟨T, typed, rfl⟩ := step
  exact ty_known typed (among p (List.mem_of_getElem? atParam))

theorem paramPlaces_known : ∀ {cs : List CParam} (scope : List String), (∀ c ∈ cs, c.type.structs ⊆ structs) →
    ∀ p ∈ C.paramPlaces scope cs, p.struct ∈ structs
  | [], _, _ => List.forall_mem_nil _
  | c :: cs, scope, known => by
    rw [List.forall_mem_cons] at known
    rw [C.paramPlaces, List.forall_mem_append, List.forall_mem_map]
    exact ⟨known.1, paramPlaces_known (c.name :: scope) known.2⟩

/-- The code of a statement names no struct but that of its binding and those of the layouts. -/
theorem ownCode_known {ls : Layouts} (layouts : ∀ l ∈ ls, l.Known structs) {site : Site} {run : List CStmt}
    (made : stmt ls site.stmt = .ok run) (typed : ∀ x t v, site.stmt.binding? = some (x, t, v) → t.Among structs) :
    ∀ p ∈ (ownCode ls site).flatMap CodeSite.typePlaces, p.struct ∈ structs := by
  cases bound : site.stmt.binding? with
  | none =>
    rw [ownCode_unbound site made bound, List.forall_mem_flatMap, List.forall_mem_map]
    intro c inside
    rw [CodeSite.typePlaces, unbound_structs made bound c inside]
    exact fun _ none => absurd none List.not_mem_nil
  | some binding =>
    obtain ⟨x, t, v⟩ := binding
    rw [ownCode_bound site made (by rw [bound]; rfl)]
    rw [stmt_of_binding bound] at made
    obtain ⟨T, c, -, typedT, valued, rfl⟩ | ⟨n, fs, l, temps, done, args, -, found, tempsOk, argsOk, rfl⟩ :=
      binding_cases made
    · rw [value_places valued, List.forall_mem_map]
      exact ty_known typedT (typed x t v bound)
    · have layout := layouts l (List.mem_of_find?_eq_some found)
      have named : l.name = n := by simpa using List.find?_some found
      obtain ⟨ts, fits, rfl, -⟩ := temporaries_cases tempsOk
      rw [constructorArgs_eq argsOk, literal_places fits, List.forall_mem_cons]
      refine ⟨named ▸ layout.name, paramPlaces_known _ ?_⟩
      rw [List.forall_mem_map]
      intro temporary inside
      obtain ⟨k, here⟩ := List.getElem?_of_mem inside
      obtain ⟨_, -, fit⟩ := forall₂_at fits.flip here
      obtain ⟨m, isMember, -, same⟩ := memberType_mem fit.type
      exact same ▸ layout.members m isMember

/-- The constructor of a struct names no struct but its own and those of its members. -/
theorem constructor_known {l : Layout} (known : l.Known structs) (free : ∀ m ∈ l.members, FreeName m.name) :
    ∀ p ∈ (constructor l).typePlaces, p.struct ∈ structs := by
  rw [constructor_of_free free, Decl.typePlaces, Option.getD_some, construction_places, List.forall_mem_append,
    List.forall_mem_append]
  refine ⟨⟨List.forall_mem_singleton.mpr known.name, paramPlaces_known [] known.members⟩, ?_⟩
  simp only [List.forall_mem_cons, List.not_mem_nil, false_imp_iff, implies_true, and_true, and_self]
  exact known.name

variable {f : File} {isProgram : Bool} {ls : Layouts}

theorem item_known (valid : f.Valid isProgram) (laid : layouts [] f.items = .ok ls)
    (layouts : ∀ l ∈ ls, l.Known f.structNames) {i : Item} (member : i ∈ f.items) {d : Decl} (made : item ls i = .ok d) :
    d.Whole ∧ ∀ p ∈ d.typePlaces, p.struct ∈ f.structNames := by
  cases i with
  | fn e =>
    have rules := valid.fns e member
    simp only [item, bind_ok, pure_ok] at made
    obtain ⟨params, paramsOk, ret, retOk, inner, innerOk, rfl⟩ := made
    refine ⟨.definition .., ?_⟩
    rw [Decl.typePlaces, Option.getD_some, List.forall_mem_append, List.forall_mem_append, List.forall_mem_map]
    refine ⟨⟨ty_known retOk (among_structNames rules.ret), ?_⟩, ?_⟩
    · exact paramPlaces_known [] (params_known paramsOk fun p inside => among_structNames (rules.paramTypes p inside))
    · rw [fn_sites (params_names paramsOk) innerOk, List.flatMap_assoc, List.forall_mem_flatMap]
      intro site inside
      have isSite : site ∈ f.sites := mem_fileSites.mpr ⟨e, member, inside⟩
      obtain ⟨run, -, made, -⟩ := body_reached _ innerOk site inside
      exact ownCode_known layouts made fun x t v bound => among_structNames ((valid.stmt isSite).type x t v bound)
  | struct e =>
    obtain ⟨members, membersOk, rfl⟩ := item_struct laid member made
    refine ⟨.struct .., ?_⟩
    rw [Decl.typePlaces, List.forall_mem_flatMap]
    intro m inside
    rw [List.forall_mem_map]
    exact params_known membersOk (fun p isField => among_structNames ((valid.structs e member).fieldTypes p isField)) m inside
  | absent _ | hollow _ _ => cases made

variable {decls : List Decl} {u : CUnit}

/-- Each struct of the file is declared in the unit. -/
theorem struct_declared (unit : UnitOf f ls decls u) {d : StructDecl} (member : Item.struct d ∈ f.items) :
    d.name ∈ u.decls.filterMap Decl.struct? := by
  obtain ⟨k, here⟩ := List.getElem?_of_mem member
  obtain ⟨decl, atDecl, made⟩ := forall₂_at unit.items here
  obtain ⟨members, -, rfl⟩ := item_struct unit.layouts member made
  rw [unit.decls]
  exact List.mem_filterMap.mpr ⟨_, List.mem_append_left _ (List.mem_of_getElem? atDecl), rfl⟩

theorem ty_pointer {t : Ty} {T : CType} (made : ty t = .ok T) : ∀ s ∈ T.structs, T = .ptr (.struct s) := by
  intro s named
  have isStruct := (ty_structs made s).mp named
  cases t <;> cases isStruct
  cases made
  rfl

/-- The members of a struct in the unit name structs as pointers only. -/
theorem struct_pointers (unit : UnitOf f ls decls u) {n : String} {ms : List CParam}
    (inside : Decl.struct n ms ∈ u.decls) : ∀ m ∈ ms, ∀ s ∈ m.type.structs, m.type = .ptr (.struct s) := by
  rw [unit.decls] at inside
  obtain inItems | constructors := List.mem_append.mp inside
  · obtain ⟨k, atDecl⟩ := List.getElem?_of_mem inItems
    obtain ⟨i, atItem, made⟩ := forall₂_at unit.items.flip atDecl
    cases i with
    | struct d =>
      obtain ⟨members, membersOk, same⟩ := item_struct unit.layouts (List.mem_of_getElem? atItem) made
      cases same
      intro m isMember
      obtain ⟨j, here⟩ := List.getElem?_of_mem isMember
      obtain ⟨p, -, step⟩ := forall₂_at (mapM_ok_iff.mp membersOk).flip here
      simp only [param, bind_ok, pure_ok] at step
      obtain ⟨T, typed, rfl⟩ := step
      exact ty_pointer typed
    | fn d =>
      simp only [item, bind_ok, pure_ok] at made
      obtain ⟨_, -, _, -, _, -, same⟩ := made
      cases same
    | absent _ | hollow _ _ => cases made
  · obtain ⟨l, -, same⟩ := List.mem_map.mp constructors
    cases same

end Lower

/-- The header and the source of the unit of an accepted file belong together: the header declares its structs
    before its prototypes, and once each struct that a type in either of them names; members only point to
    structs and name them with their tag; the functions that the source defines are those that the header
    declares, with the same signatures; and together they hold each declaration of the unit once, in order. -/
theorem header_closes (file : Nat) (content : Bytes) (tree : File) (isProgram : Bool) (name : String)
    (parsed : parse (lexemes file content) = .ok tree) (accepted : (tree.check isProgram).errors = 0) :
    ∃ u, tree.lower name = .ok u ∧ u.Closed := by
  obtain ⟨valid, u, lowered⟩ := lower_of_accepted parsed accepted name
  obtain ⟨ls, decls, unit⟩ := Lower.unit_cases lowered
  refine ⟨u, lowered, ?_⟩
  have layout {l : Lower.Layout} (inside : l ∈ ls) : (∀ m ∈ l.members, FreeName m.name) ∧ l.Known tree.structNames := by
    obtain ⟨k, atLayout⟩ := List.getElem?_of_mem inside
    obtain ⟨d, atStruct, laid⟩ := Lower.forall₂_at unit.structs.flip atLayout
    have member := Check.mem_structs.mp (List.mem_of_getElem? atStruct)
    have rules := valid.structs d member
    exact ⟨laid.free rules, laid.name ▸ File.mem_structNames.mpr ⟨d, member, rfl⟩,
      Lower.params_known laid.members fun p isField => among_structNames (rules.fieldTypes p isField)⟩
  have item {d : C.Decl} (inside : d ∈ decls) : ∃ i ∈ tree.items, Lower.item ls i = .ok d := by
    obtain ⟨k, atDecl⟩ := List.getElem?_of_mem inside
    obtain ⟨i, atItem, made⟩ := Lower.forall₂_at unit.items.flip atDecl
    exact ⟨i, List.mem_of_getElem? atItem, made⟩
  have every : ∀ d ∈ u.decls, d.Whole ∧ ∀ p ∈ d.typePlaces, p.struct ∈ tree.structNames := by
    rw [unit.decls, List.forall_mem_append, List.forall_mem_map]
    refine ⟨fun d inside => ?_, fun l inside => ?_⟩
    · obtain ⟨i, member, made⟩ := item inside
      exact Lower.item_known valid unit.layouts (fun l inside => (layout inside).2) member made
    · obtain ⟨free, known⟩ := layout inside
      exact ⟨Lower.constructor_of_free free ▸ .definition .., Lower.constructor_known known free⟩
  refine C.closed_of_whole (fun d inside => (every d inside).1) (valid.unit_distinct unit) ?_ ?_
  · intro n named
    obtain ⟨d, inside, here⟩ := List.mem_flatMap.mp named
    obtain ⟨p, isPlace, rfl⟩ := List.mem_map.mp here
    obtain ⟨e, member, same⟩ := File.mem_structNames.mp ((every d inside).2 p isPlace)
    exact same ▸ Lower.struct_declared unit member
  · exact fun n ms inside => Lower.struct_pointers unit inside

/-- Two structs that name each other, the first before the other is declared. -/
def forest : Bytes :=
  utf8 ("type Tree \x7b left: Forest, size: i64 \x7d\ntype Forest \x7b first: Tree \x7d\n" ++
    "fun grow(f: Forest) -> Tree:\n    let t: Tree = Tree \x7b size: 1, left: f \x7d\n    return t\n")

theorem header_closes_forest : ∃ tree u, parse (lexemes 0 forest) = .ok tree ∧ (tree.check false).errors = 0 ∧
    tree.lower "app" = .ok u ∧
    u.header.decls.map C.Decl.name =
      ["Tree", "Forest", "grow", "_Tree__internal__new_gc", "_Forest__internal__new_gc"] ∧
    u.source.decls.map C.Decl.name = ["grow", "_Tree__internal__new_gc", "_Forest__internal__new_gc"] ∧ u.Closed := by
  have run : ((parse (lexemes 0 forest)).toOption.map fun tree => ((tree.check false).errors,
      (tree.lower "app").toOption.map fun u => (u.header.decls.map C.Decl.name, u.source.decls.map C.Decl.name))) =
      some (0, some (["Tree", "Forest", "grow", "_Tree__internal__new_gc", "_Forest__internal__new_gc"],
        ["grow", "_Tree__internal__new_gc", "_Forest__internal__new_gc"])) := by
    rw [forest]
    simp only [utf8_append]
    repeat rw [utf8_ofList]
    decide +kernel
  obtain ⟨tree, parsed, facts⟩ := Lower.ok_of_test run
  obtain ⟨accepted, code⟩ := Prod.mk.inj facts
  obtain ⟨v, lowered', names⟩ := Lower.ok_of_test code
  obtain ⟨inHeader, inSource⟩ := Prod.mk.inj names
  obtain ⟨u, lowered, closed⟩ := header_closes 0 forest tree false "app" parsed accepted
  cases Except.ok.inj (lowered.symm.trans lowered')
  exact ⟨tree, v, parsed, accepted, lowered, inHeader, inSource, closed⟩

end PineLang
