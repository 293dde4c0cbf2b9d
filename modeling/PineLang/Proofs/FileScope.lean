import PineLang.C.Companion
import PineLang.Proofs.CTokens
import PineLang.Proofs.LoweredUnit
import PineLang.Proofs.References

/-!
The names at file scope of a unit. Three sorts of them meet there: the names of the source, which keep
clear of those that the companion headers declare and of the names of constructors; the entry of the
program, in place of `main`; and a constructor for every struct. No two declarations share a name, and none
has one that a companion header declares (`file_scope_names`).
-/
namespace PineLang

namespace C

/-- The name that a declaration declares at file scope. -/
def Decl.name : Decl → String
  | .struct n _ => n
  | .var n _ _ => n
  | .fn n _ _ _ => n

/-! ## Headers -/

/-- A bracket that opens. -/
def Punct.opens (p : Punct) : Bool := p == .lparen || p == .lbrace || p == .lbracket

/-- A bracket that closes. -/
def Punct.closes (p : Punct) : Bool := p == .rparen || p == .rbrace || p == .rbracket

/-- The identifiers that declarations declare at file scope, where `depth` brackets are open: outside of
    brackets what stands before a list of parameters, before a body or at the end; and an enumerator, which
    stands before its value. -/
def declaredIn (depth : Nat) : List CToken → List String
  | [] => []
  | .word n :: .punct p :: rest =>
    let declares := if depth == 0 then p == .lparen || p == .lbrace || p == .semicolon else depth == 1 && p == .set
    (if declares then [n] else []) ++ declaredIn depth (.punct p :: rest)
  | .punct p :: rest => declaredIn (if p.opens then depth + 1 else if p.closes then depth - 1 else depth) rest
  | _ :: rest => declaredIn depth rest

/-- The macro that a line defines. -/
def macro? (line : Bytes) : Option String :=
  match tokens line with
  | some (.punct .hash :: .word "define" :: .word n :: _) => some n
  | _ => none

/-- The line is a directive. -/
def isDirective (line : Bytes) : Bool := line.head? == some 0x23

/-- The macros and identifiers that a header declares at file scope. -/
def headerNames (text : Bytes) : List String :=
  let lines := text.splitOn 0x0A
  (lines.filter isDirective).filterMap macro? ++
    declaredIn 0 ((tokens ((lines.filter (! isDirective ·)).flatMap (· ++ [0x0A]))).getD [])

/-- The macros and identifiers that a companion file declares at file scope. -/
def companionNames (file : String) : List String := headerNames ((companions.lookup file).getD [])

/-- The bytes of a file that is given line by line. -/
theorem utf8_lines (lines : List String) :
    utf8 (String.join (lines.map (· ++ "\n"))) = lines.flatMap fun line => utf8 line ++ [0x0A] := by
  have ending : utf8 "\n" = [0x0A] := by simp only [utf8_eq]; decide
  simp only [utf8_join, List.flatMap_map, utf8_append, ending]

theorem collector_names : companionNames "pine_gc.h" =
    ["PINE_GC_H", "PineGcFlag", "PINE_GC_NONE", "PINE_GC_ROOT", "PINE_GC_MARK", "PineGcFlag", "PineAllocation",
      "PineAllocation", "PineAllocationMap", "PineAllocationMap", "PineGc", "PineGc", "gc", "gc_start",
      "gc_start_ext", "gc_stop", "gc_run", "gc_malloc", "gc_malloc_static"] := by
  have text : companions.lookup "pine_gc.h" = some (utf8 (String.join (collectorHeader.map (· ++ "\n")))) := rfl
  rw [companionNames, text, Option.getD_some, utf8_lines]
  simp only [collectorHeader, List.flatMap_cons, List.flatMap_nil]
  repeat rw [utf8_ofList]
  decide +kernel

theorem printing_names : companionNames "pine_io.h" =
    ["PINE_IO_H", "print_int", "print_bool", "print_float", "print_str"] := by
  have text : companions.lookup "pine_io.h" = some (utf8 (String.join (printingHeader.map (· ++ "\n")))) := rfl
  rw [companionNames, text, Option.getD_some, utf8_lines]
  simp only [printingHeader, List.flatMap_cons, List.flatMap_nil]
  repeat rw [utf8_ofList]
  decide

end C

/-! ## Names of declarations -/

theorem constructorName_injective : Function.Injective Lower.constructorName := by
  intro a b same
  rw [Lower.constructorName, Lower.constructorName] at same
  have chars := congrArg String.toList same
  simp only [String.toList_append, List.append_cancel_left_eq, List.append_cancel_right_eq] at chars
  exact String.toList_inj.mp chars

namespace Lower
open C (Decl)

/-- The name at file scope that an item gets. -/
def itemName : Item → String
  | .fn d => fnName d.name
  | i => (Check.itemName i).1

theorem item_name {ls : Layouts} {i : Item} {d : Decl} (made : item ls i = .ok d) : d.name = itemName i := by
  cases i with
  | fn e =>
    obtain ⟨params, ret, inner, -, -, rfl⟩ := item_fn_ok made
    rfl
  | struct e =>
    cases made
    rfl
  | absent _ | hollow _ _ => cases made

theorem map_eq_of_forall₂ {α β γ : Type} {R : α → β → Prop} {f : α → γ} {g : β → γ} {xs : List α} {ys : List β}
    (related : List.Forall₂ R xs ys) (same : ∀ x y, R x y → g y = f x) : ys.map g = xs.map f := by
  induction related with
  | nil => rfl
  | cons here _ ih => rw [List.map_cons, List.map_cons, same _ _ here, ih]

/-- The names at file scope of a unit: those of the items, then those of the constructors. -/
theorem unit_names {f : File} {ls : Layouts} {decls : List Decl} {u : C.CUnit} (unit : UnitOf f ls decls u) :
    u.decls.map Decl.name =
      f.items.map itemName ++ (f.items.filterMap Check.struct?).map fun d => constructorName d.name := by
  have items : decls.map Decl.name = f.items.map itemName :=
    map_eq_of_forall₂ unit.items fun i d made => item_name made
  have constructors : ls.map (Decl.name ∘ constructor) =
      (f.items.filterMap Check.struct?).map fun d => constructorName d.name :=
    map_eq_of_forall₂ unit.structs fun d l laid => congrArg constructorName laid.name
  rw [unit.decls, List.map_append, List.map_map, items, constructors]

end Lower

/-- The name of an item can be declared, or the item is the function `main`. -/
theorem File.Valid.item_cases {f : File} {isProgram : Bool} (valid : f.Valid isProgram) {i : Item}
    (member : i ∈ f.items) {ls : Lower.Layouts} {d : C.Decl} (made : Lower.item ls i = .ok d) :
    FreeName (Lower.itemName i) ∧ Lower.itemName i = (Check.itemName i).1 ∨
      (Check.itemName i).1 = "main" ∧ Lower.itemName i = C.programEntry := by
  cases i with
  | fn d =>
    by_cases entry : d.name = "main"
    · exact .inr ⟨entry, by simp [Lower.itemName, Lower.fnName, entry]⟩
    · have same : Lower.fnName d.name = d.name := by simp [Lower.fnName, entry]
      exact .inl ⟨by rw [Lower.itemName, same]; exact (valid.fns d member).name entry, same⟩
  | struct d => exact .inl ⟨(valid.structs d member).name, rfl⟩
  | absent _ | hollow _ _ => cases made

/-- The structs keep the order of the items. -/
theorem structNames_sublist : ∀ items : List Item,
    ((items.filterMap Check.struct?).map (·.name)).Sublist (items.map fun i => (Check.itemName i).1)
  | [] => .slnil
  | i :: items => by
    have rest := structNames_sublist items
    cases i with
    | struct d => exact rest.cons_cons d.name
    | fn _ | absent _ | hollow _ _ => exact rest.cons _

/-- What no declaration of a unit is called: the entry point of C, and what the companion headers declare. -/
def takenNames : List String := "main" :: C.companionNames "pine_gc.h" ++ C.companionNames "pine_io.h"

/-- Taken names cannot be declared, and neither lowering nor a constructor gives one. -/
theorem taken_reserved : ∀ n ∈ takenNames, ¬ FreeName n ∧ n ≠ C.programEntry ∧
    ¬ Check.constructorEnding.toList <:+ n.toList := by
  rw [takenNames, C.collector_names, C.printing_names]
  unfold FreeName
  decide

theorem entry_not_constructor (struct : String) : C.programEntry ≠ Lower.constructorName struct := by
  intro same
  have ending := constructorName_ending struct
  rw [← same] at ending
  exact absurd ending (by decide)

/-- If names are distinct, only one thing has the name of any. -/
theorem filter_of_distinct {α : Type} {name : α → String} : ∀ {xs : List α}, (xs.map name).Nodup →
    ∀ {x : α}, x ∈ xs → xs.filter (fun y => name y == name x) = [x]
  | [], _, _, inside => by cases inside
  | y :: ys, distinct, x, inside => by
    rw [List.map_cons, List.nodup_cons] at distinct
    rcases List.mem_cons.mp inside with rfl | later
    · have none : ys.filter (fun y => name y == name x) = [] := by
        rw [List.filter_eq_nil_iff]
        intro z member same
        exact distinct.1 (List.mem_map.mpr ⟨z, member, by simpa using same⟩)
      rw [List.filter_cons_of_pos (by simp), none]
    · have other : name y ≠ name x := fun same => distinct.1 (List.mem_map.mpr ⟨x, later, same.symm⟩)
      rw [List.filter_cons_of_neg (by simpa using other), filter_of_distinct distinct.2 later]

namespace File.Valid
variable {f : File} {isProgram : Bool} {ls : Lower.Layouts} {decls : List C.Decl} {u : C.CUnit}

/-- The names at file scope are distinct. -/
theorem unit_distinct (valid : f.Valid isProgram) (unit : Lower.UnitOf f ls decls u) :
    (u.decls.map C.Decl.name).Nodup := by
  have lowered : ∀ i ∈ f.items, ∃ d, Lower.item ls i = .ok d := by
    intro i member
    obtain ⟨k, here⟩ := List.getElem?_of_mem member
    obtain ⟨d, -, made⟩ := Lower.forall₂_at unit.items here
    exact ⟨d, made⟩
  have items : (f.items.map Lower.itemName).Nodup := by
    refine List.Nodup.map_on ?_ (List.Nodup.of_map _ valid.distinct)
    intro i memberI j memberJ same
    obtain ⟨_, madeI⟩ := lowered i memberI
    obtain ⟨_, madeJ⟩ := lowered j memberJ
    refine List.inj_on_of_nodup_map valid.distinct memberI memberJ ?_
    rcases valid.item_cases memberI madeI with ⟨freeI, ownI⟩ | ⟨entryI, renamedI⟩
    · rcases valid.item_cases memberJ madeJ with ⟨-, ownJ⟩ | ⟨-, renamedJ⟩
      · rw [← ownI, ← ownJ, same]
      · exact absurd (same.trans renamedJ) (free_ne_entry freeI)
    · rcases valid.item_cases memberJ madeJ with ⟨freeJ, -⟩ | ⟨entryJ, -⟩
      · exact absurd (same.symm.trans renamedI) (free_ne_entry freeJ)
      · rw [entryI, entryJ]
  have constructors : ((f.items.filterMap Check.struct?).map fun d => Lower.constructorName d.name).Nodup := by
    have structs := valid.distinct.sublist (structNames_sublist f.items)
    have := structs.map constructorName_injective
    rwa [List.map_map] at this
  rw [Lower.unit_names unit, List.nodup_append]
  refine ⟨items, constructors, ?_⟩
  rintro n ofItem m ofStruct rfl
  obtain ⟨i, member, named⟩ := List.mem_map.mp ofItem
  obtain ⟨d, -, rfl⟩ := List.mem_map.mp ofStruct
  obtain ⟨_, made⟩ := lowered i member
  rcases valid.item_cases member made with ⟨free, -⟩ | ⟨-, renamed⟩
  · exact constructorName_not_free d.name (named ▸ free)
  · exact entry_not_constructor d.name (renamed.symm.trans named)

/-- No name at file scope is taken. -/
theorem unit_untaken (valid : f.Valid isProgram) (unit : Lower.UnitOf f ls decls u) :
    ∀ n ∈ u.decls.map C.Decl.name, n ∉ takenNames := by
  intro n inside isTaken
  obtain ⟨notFree, notEntry, notConstructor⟩ := taken_reserved n isTaken
  rw [Lower.unit_names unit] at inside
  rcases List.mem_append.mp inside with ofItem | ofStruct
  · obtain ⟨i, member, rfl⟩ := List.mem_map.mp ofItem
    obtain ⟨k, here⟩ := List.getElem?_of_mem member
    obtain ⟨d, -, made⟩ := Lower.forall₂_at unit.items here
    rcases valid.item_cases member made with ⟨free, -⟩ | ⟨-, renamed⟩
    · exact notFree free
    · exact notEntry renamed
  · obtain ⟨d, -, rfl⟩ := List.mem_map.mp ofStruct
    exact notConstructor (constructorName_ending d.name)

/-- The entry function of a program is the only declaration of its name, and it has no parameters. -/
theorem unit_entry (valid : f.Valid isProgram) (program : isProgram = true) (unit : Lower.UnitOf f ls decls u) :
    ∃ ret body, u.decls.filter (fun d => d.name == C.programEntry) = [.fn C.programEntry [] ret (some body)] := by
  obtain ⟨d, member, entry⟩ := valid.entry program
  obtain ⟨k, here⟩ := List.getElem?_of_mem member
  obtain ⟨decl, atDecl, made⟩ := Lower.forall₂_at unit.items here
  obtain ⟨params, ret, body, names, -, rfl⟩ := Lower.item_fn_ok made
  rw [(valid.fns d member).main entry, List.map_nil, List.map_eq_nil_iff] at names
  have renamed : Lower.fnName d.name = C.programEntry := by simp [Lower.fnName, entry]
  rw [names, renamed] at atDecl
  have inside : C.Decl.fn C.programEntry [] ret (some body) ∈ u.decls := by
    rw [unit.decls]
    exact List.mem_append_left _ (List.mem_of_getElem? atDecl)
  exact ⟨ret, body, filter_of_distinct (valid.unit_distinct unit) inside⟩

end File.Valid

/-- The functions, constructors and structs of the unit of an accepted file have distinct names, none of
    them `main` or a name that a companion header declares; and in the unit of a program exactly one of them
    is the entry, defined without parameters. -/
theorem file_scope_names (file : Nat) (content : Bytes) (tree : File) (isProgram : Bool) (name : String)
    (parsed : parse (lexemes file content) = .ok tree) (accepted : (tree.check isProgram).errors = 0) :
    ∃ u, tree.lower name = .ok u ∧ (u.decls.map C.Decl.name).Nodup ∧
      (∀ n ∈ u.decls.map C.Decl.name,
        n ≠ "main" ∧ n ∉ C.companionNames "pine_gc.h" ∧ n ∉ C.companionNames "pine_io.h") ∧
      (isProgram = true → ∃ ret body,
        u.decls.filter (fun d => d.name == C.programEntry) = [.fn C.programEntry [] ret (some body)]) := by
  obtain ⟨valid, u, lowered⟩ := lower_of_accepted parsed accepted name
  obtain ⟨ls, decls, unit⟩ := Lower.unit_cases lowered
  refine ⟨u, lowered, valid.unit_distinct unit, ?_, fun program => valid.unit_entry program unit⟩
  intro n inside
  have untaken := valid.unit_untaken unit n inside
  rw [takenNames, List.mem_append, List.mem_cons, not_or, not_or] at untaken
  exact ⟨untaken.1.1, untaken.1.2, untaken.2⟩

theorem file_scope_swapped : ∃ tree u, parse (lexemes 0 swapped) = .ok tree ∧ (tree.check true).errors = 0 ∧
    tree.lower "app" = .ok u ∧ u.decls.map C.Decl.name = ["Point", "pine_lang_main", "_Point__internal__new_gc"] ∧
    (u.decls.map C.Decl.name).Nodup ∧ ∃ ret body,
      u.decls.filter (fun d => d.name == C.programEntry) = [.fn C.programEntry [] ret (some body)] := by
  have run : ((parse (lexemes 0 swapped)).toOption.map fun tree => ((tree.check true).errors,
      (tree.lower "app").toOption.map fun u => u.decls.map C.Decl.name)) =
      some (0, some ["Point", "pine_lang_main", "_Point__internal__new_gc"]) := by
    rw [swapped, utf8_append, utf8_ofList, utf8_ofList]
    decide +kernel
  obtain ⟨tree, parsed, facts⟩ := Lower.ok_of_test run
  obtain ⟨accepted, code⟩ := Prod.mk.inj facts
  obtain ⟨v, lowered', names⟩ := Lower.ok_of_test code
  obtain ⟨u, lowered, distinct, -, entry⟩ := file_scope_names 0 swapped tree true "app" parsed accepted
  cases Except.ok.inj (lowered.symm.trans lowered')
  exact ⟨tree, v, parsed, accepted, lowered, names, distinct, entry rfl⟩

end PineLang
