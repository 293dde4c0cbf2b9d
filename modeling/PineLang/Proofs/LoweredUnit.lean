import PineLang.Proofs.CodeSites

/-!
What the unit of a valid file consists of: the declarations of its items in order, then a constructor for
each struct (`unit_cases`). No field of a struct can be called like what a constructor uses, so there the
parameters of the constructor are the members of the struct (`constructor_of_free`).
-/
namespace PineLang

/-! ## Names that can be declared -/

theorem freeName_iff {n : String} : FreeName n ↔ n ∉ Check.reservedNames ∧
    (∀ p ∈ Check.reservedStarts, ¬ p.toList <+: n.toList) ∧ ¬ Check.constructorEnding.toList <:+ n.toList := by
  unfold FreeName Check.reservedReason?
  by_cases reserved : n ∈ Check.reservedNames
  · simp [reserved]
  · have none : Check.reservedNames.contains n = false := by simpa using reserved
    rw [none]
    simp only [Bool.false_eq_true, if_false, reserved, not_false_eq_true, true_and]
    cases start : Check.reservedStarts.find? fun p => p.toList.isPrefixOf n.toList with
    | some p =>
      have begins : p.toList.isPrefixOf n.toList = true := by simpa using List.find?_some start
      simp only [reduceCtorEq, false_iff, not_and]
      intro apart
      exact absurd (List.isPrefixOf_iff_prefix.mp begins) (apart p (List.mem_of_find?_eq_some start))
    | none =>
      have apart : ∀ p ∈ Check.reservedStarts, ¬ p.toList <+: n.toList := by
        intro p inside begins
        have := List.find?_eq_none.mp start p inside
        exact this (List.isPrefixOf_iff_prefix.mpr begins)
      simp only [List.isSuffixOf_iff_suffix]
      by_cases ends : Check.constructorEnding.toList <:+ n.toList
      · simp [ends]
      · simpa [ends] using apart

theorem constructorName_ending (struct : String) :
    Check.constructorEnding.toList <:+ (Lower.constructorName struct).toList := by
  rw [Lower.constructorName, String.toList_append]
  exact List.suffix_append ..

theorem FreeName.ne {n m : String} (free : FreeName n) (reserved : Check.reservedReason? m ≠ none) : n ≠ m := by
  rintro rfl
  exact reserved free

theorem FreeName.not_keyword {n : String} (free : FreeName n) : n ∉ Check.cKeywords := by
  intro keyword
  exact (freeName_iff.mp free).1 (List.mem_append_left _ (List.mem_append_left _ keyword))

theorem FreeName.ne_collector {n : String} (free : FreeName n) : n ≠ C.collector :=
  free.ne (by decide)

theorem FreeName.ne_allocator {n : String} (free : FreeName n) : n ≠ Lower.allocator :=
  free.ne (by decide)

namespace Lower
open C (CType CExpr CStmt CParam Decl CUnit)

/-! ## Layouts -/

/-- The layout is that of the struct. -/
structure LaidOut (d : StructDecl) (l : Layout) : Prop where
  name : l.name = d.name
  members : d.fields.mapM param = .ok l.members

theorem LaidOut.names {d : StructDecl} {l : Layout} (laid : LaidOut d l) :
    l.members.map (·.name) = d.fields.map (·.name) := params_names laid.members

/-- The members of a valid struct have names that can be declared. -/
theorem LaidOut.free {f : File} {d : StructDecl} {l : Layout} (laid : LaidOut d l) (valid : d.Valid f) :
    ∀ m ∈ l.members, FreeName m.name := by
  intro m isMember
  have field := List.mem_map_of_mem (f := (·.name)) isMember
  rw [laid.names] at field
  obtain ⟨p, isField, same⟩ := List.mem_map.mp field
  exact same ▸ valid.fieldNames p isField

/-- Collecting the structs gives each a layout, in order. -/
theorem layouts_structs : ∀ {items : List Item} {known all : Layouts}, layouts known items = .ok all →
    ∃ ls, all = known ++ ls ∧ List.Forall₂ LaidOut (items.filterMap Check.struct?) ls
  | [], known, all, laid => by
    cases laid
    exact ⟨[], (List.append_nil _).symm, .nil⟩
  | i :: items, known, all, laid => by
    rcases layouts_cases laid with ⟨d, members, rfl, membersOk, -, rest⟩ | ⟨other, rest⟩
    · obtain ⟨ls, rfl, each⟩ := layouts_structs rest
      refine ⟨⟨d.name, members⟩ :: ls, by simp, ?_⟩
      exact .cons ⟨rfl, membersOk⟩ each
    · obtain ⟨ls, rfl, each⟩ := layouts_structs rest
      have skipped : Check.struct? i = none := by
        cases i with
        | struct d => exact absurd rfl (other d)
        | _ => rfl
      refine ⟨ls, rfl, ?_⟩
      rwa [List.filterMap_cons_none skipped]

/-- A declared struct keeps its name, and its members are those of its layout. -/
theorem item_struct {f : File} {ls : Layouts} (laid : layouts [] f.items = .ok ls) {d : StructDecl}
    (member : Item.struct d ∈ f.items) {decl : Decl} (made : item ls (.struct d) = .ok decl) :
    ∃ members, d.fields.mapM param = .ok members ∧ decl = .struct d.name members := by
  obtain ⟨members, membersOk, found⟩ := layouts_find laid member
  cases made
  exact ⟨members, membersOk, by simp [found]⟩

/-! ## Constructors -/

/-- Members that can be declared give the constructor's parameters their names. -/
theorem constructorParams_of_free (taken : List String) : ∀ {ms : List CParam}, (∀ m ∈ ms, FreeName m.name) →
    constructorParams taken ms = ms
  | [], _ => rfl
  | m :: ms, free => by
    rw [List.forall_mem_cons] at free
    have apart : (m.name == C.collector || m.name == allocator) = false := by
      simp [free.1.ne_collector, free.1.ne_allocator]
    rw [constructorParams, apart, constructorParams_of_free taken free.2]
    rfl

/-- The local of a constructor whose parameters are the members. -/
def Layout.object (l : Layout) : String := localName (l.members.map (·.name) ++ l.members.map (·.name))

/-- What the constructor assigns to its local. -/
def Layout.allocation (l : Layout) : CExpr :=
  .cast (.ptr (.struct l.name)) (C.call allocator [.unary .address (.ident C.collector), .sizeOf (.struct l.name)])

/-- The body of a constructor whose parameters are the members. -/
def Layout.construction (l : Layout) : List CStmt :=
  .var l.object (.ptr (.struct l.name)) :: C.set (.ident l.object) l.allocation ::
    l.members.map (fun m => C.set (.member (.ident l.object) .indirect m.name) (.ident m.name)) ++
      [CStmt.ret (some (.ident l.object))]

theorem constructor_of_free {l : Layout} (free : ∀ m ∈ l.members, FreeName m.name) :
    constructor l = .fn (constructorName l.name) l.members (.ptr (.struct l.name)) (some l.construction) := by
  unfold constructor
  simp only [constructorParams_of_free _ free, List.map_zip_eq_zipWith, List.zipWith_self]
  rfl

/-! ## Units -/

/-- What a unit says apart from its declarations. -/
theorem unit_head {f : File} {name : String} {u : CUnit} (lowered : f.lower name = .ok u) :
    u.name = name ∧ u.isHeader = false ∧ u.includes = includes := by
  simp only [File.lower, bind_ok, pure_ok] at lowered
  obtain ⟨ls, -, decls, -, rfl⟩ := lowered
  exact ⟨rfl, rfl, rfl⟩

/-- The declarations of a unit: those of the items, then the constructors of the structs. -/
structure UnitOf (f : File) (ls : Layouts) (decls : List Decl) (u : CUnit) : Prop where
  layouts : layouts [] f.items = .ok ls
  structs : List.Forall₂ LaidOut (f.items.filterMap Check.struct?) ls
  items : List.Forall₂ (fun i d => item ls i = .ok d) f.items decls
  decls : u.decls = decls ++ ls.map constructor

theorem unit_cases {f : File} {name : String} {u : CUnit} (lowered : f.lower name = .ok u) :
    ∃ ls decls, UnitOf f ls decls u := by
  obtain ⟨ls, decls, laid, made, all⟩ := lower_cases lowered
  obtain ⟨_, rfl, each⟩ := layouts_structs laid
  exact ⟨_, decls, laid, each, made, all⟩

end Lower
end PineLang
