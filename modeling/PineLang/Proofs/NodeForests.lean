import Mathlib.Data.Finset.Max
import PineLang.Proofs.BuiltTrees
import PineLang.Syntax.NodeParser

/-!
Nodes with one parent each. In a graph in which every node but the roots stands in exactly one slot and which has no
circle, all nodes can be reached from the roots, and a walk in pre-order meets each of them once (`forest_walk`). A builder
keeps this up when a node is made whose parts were loose, that is in no slot: these get their slot, and the new node is
loose in turn (`Builder.Tidy.made`).
-/
namespace PineLang

open Relation (TransGen ReflTransGen)

/-! ## Forests -/

section Forests

variable {V : Type} {children : V → List V} {nodes roots : List V}

/-- Where every node stands in one slot and slots lead down, a walk meets every node once: the highest node stands in no
    other's slot, so it is a root, and without it its children are. -/
theorem forest_walk [DecidableEq V] (rank : V → Nat) (down : ∀ v, ∀ c ∈ children v, rank c < rank v) {walk : V → List V} :
    ∀ (size : Nat) {nodes roots : List V}, nodes.length = size →
      (∀ v ∈ nodes, (walk v).Perm (v :: (children v).flatMap walk)) → (roots ++ nodes.flatMap children).Perm nodes →
      (roots.flatMap walk).Perm nodes
  | 0, nodes, roots, empty, _, once => by
    rw [List.length_eq_zero_iff.mp empty] at once ⊢
    rw [(List.append_eq_nil_iff.mp once.eq_nil).1]
    exact .nil
  | size + 1, nodes, roots, count, step, once => by
    obtain ⟨top, member, highest⟩ := Finset.exists_max_image nodes.toFinset rank
      (List.toFinset_nonempty_iff _ |>.mpr (List.ne_nil_of_length_eq_add_one count))
    simp only [List.mem_toFinset] at member highest
    have isRoot : top ∈ roots := by
      rcases List.mem_append.mp (once.mem_iff.mpr member) with root | slot
      · exact root
      · obtain ⟨v, inside, child⟩ := List.mem_flatMap.mp slot
        exact absurd (Nat.lt_of_lt_of_le (down v top child) (highest v inside)) (Nat.lt_irrefl _)
    have others := List.perm_cons_erase member
    have otherRoots := List.perm_cons_erase isRoot
    have fewer : (nodes.erase top).length = size := by rw [List.length_erase_of_mem member, count, Nat.add_sub_cancel]
    have slots : (children top ++ roots.erase top ++ (nodes.erase top).flatMap children).Perm (nodes.erase top) := by
      rw [← List.perm_cons top]
      refine .trans ?_ (once.trans others)
      refine .trans ?_ (otherRoots.append (others.flatMap_right children)).symm
      rw [List.flatMap_cons, List.cons_append, ← List.append_assoc, List.perm_cons]
      exact List.perm_append_comm.append_right _
    have rest := forest_walk rank down size fewer (fun v inside => step v (List.mem_of_mem_erase inside)) slots
    refine (otherRoots.flatMap_right walk).trans ?_
    rw [List.flatMap_cons]
    refine ((step top member).append_right _).trans ?_
    rw [List.cons_append, ← List.flatMap_append]
    exact (rest.cons top).trans others.symm

/-- Where every node stands in one slot and slots lead down, every node can be reached from a root. -/
theorem forest_reached (rank : V → Nat) (bound : Nat) (most : ∀ v, rank v ≤ bound)
    (down : ∀ v, ∀ c ∈ children v, rank c < rank v) (once : (roots ++ nodes.flatMap children).Perm nodes) {v : V}
    (member : v ∈ nodes) : ∃ r ∈ roots, ReflTransGen (fun m n => n ∈ children m) r v := by
  induction left : bound - rank v using Nat.strong_induction_on generalizing v with
  | _ left' ih =>
    rcases List.mem_append.mp (once.mem_iff.mpr member) with root | slot
    · exact ⟨v, root, .refl⟩
    · obtain ⟨u, inside, child⟩ := List.mem_flatMap.mp slot
      have lower := down u v child
      have below := most u
      obtain ⟨r, root, path⟩ := ih (bound - rank u) (by omega) inside rfl
      exact ⟨r, root, path.tail child⟩

end Forests

/-! ## Slots -/

/-- The number of a node among those of its sort. -/
def NodeId.number : NodeId → Nat
  | file id | item id | stmt id | expr id => id

/-- The nodes in the slots of a statement; a zero leaves a slot empty. -/
def StmtData.held {kind : StmtKind} (x : StmtData kind) : List NodeId :=
  (x.parts.map NodeId.stmt ++ x.exprs.map NodeId.expr).filter (·.number ≠ 0)

namespace Builder

/-- All nodes. -/
def nodes (b : Builder) : List NodeId :=
  (List.range' 1 b.files.size).map .file ++ (List.range' 1 b.items.heads.size).map .item ++
    (List.range' 1 b.stmts.heads.size).map .stmt ++ (List.range' 1 b.exprs.heads.size).map .expr

/-- The nodes in the slots of a node; a zero leaves a slot empty. -/
def held (b : Builder) (n : NodeId) : List NodeId := (b.children n).filter (·.number ≠ 0)

/-- What stands in the slots of all nodes. -/
def slots (b : Builder) : List NodeId := b.nodes.flatMap b.held

/-- Every node is loose or stands in exactly one slot, and nodes hold earlier ones. -/
structure Tidy (b : Builder) (loose : List NodeId) : Prop where
  sound : b.Sound
  once : (loose ++ b.slots).Perm b.nodes
  exprs : ∀ id, ∀ c ∈ (b.exprs.find id).refs ExprData.parts, c < id
  stmts : ∀ id, ∀ c ∈ (b.stmts.find id).refs StmtData.parts, c < id

variable {b b' : Builder} {loose rest : List NodeId}

theorem mem_nodes {n : NodeId} : n ∈ b.nodes ↔
    match n with
    | .file id => id ∈ Finset.Icc 1 b.files.size
    | .item id => id ∈ Finset.Icc 1 b.items.heads.size
    | .stmt id => id ∈ Finset.Icc 1 b.stmts.heads.size
    | .expr id => id ∈ Finset.Icc 1 b.exprs.heads.size := by
  have range (size id : Nat) : id ∈ List.range' 1 size ↔ id ∈ Finset.Icc 1 size := by
    rw [List.mem_range'_1, Finset.mem_Icc]
    omega
  cases n <;> simp [nodes, range]

theorem Tidy.perm (tidy : b.Tidy loose) (same : loose.Perm rest) : b.Tidy rest :=
  { tidy with once := (same.symm.append_right _).trans tidy.once }

theorem Tidy.acyclic (tidy : b.Tidy loose) : b.Acyclic := acyclic_of_earlier tidy.exprs tidy.stmts

/-- A loose node is there. -/
theorem Tidy.there (tidy : b.Tidy loose) {n : NodeId} (member : n ∈ loose) : n ∈ b.nodes :=
  tidy.once.mem_iff.mp (List.mem_append_left _ member)

/-- A node is made that holds loose nodes: these get their slots, and the new node is loose. -/
theorem once_made {n : NodeId} (once : (loose ++ b.slots).Perm b.nodes) (nodes : b'.nodes.Perm (n :: b.nodes))
    (same : ∀ m ∈ b.nodes, b'.children m = b.children m) (parts : loose.Perm (b'.held n ++ rest)) :
    (n :: rest ++ b'.slots).Perm b'.nodes := by
  have others : b.nodes.flatMap b'.held = b.slots :=
    List.flatMap_congr fun m member => congrArg (List.filter _) (same m member)
  have slots : b'.slots.Perm (b'.held n ++ b.slots) := by
    refine (nodes.flatMap_right b'.held).trans ?_
    rw [List.flatMap_cons, others]
  refine .trans ?_ nodes.symm
  rw [List.cons_append, List.perm_cons]
  refine .trans ?_ once
  refine .trans ?_ (parts.append_right _).symm
  refine (slots.append_left rest).trans ?_
  rw [← List.append_assoc]
  exact List.perm_append_comm.append_right _

/-! ## Making nodes -/

theorem numbers_succ (n : Nat) : List.range' 1 (n + 1) = List.range' 1 n ++ [n + 1] := by
  rw [List.range'_1_concat, Nat.add_comm]

theorem nodes_newExpr (b : Builder) (s : Span) {k : ExprKind} (x : ExprData k) :
    (b.newExpr s x).2.nodes.Perm (.expr (b.newExpr s x).1 :: b.nodes) := by
  have size : (b.newExpr s x).2.exprs.heads.size = b.exprs.heads.size + 1 := Arena.size_alloc ..
  unfold nodes
  rw [size, numbers_succ, List.map_append, ← List.append_assoc]
  exact List.perm_append_singleton _ _

theorem nodes_newStmt (b : Builder) (s : Span) {k : StmtKind} (x : StmtData k) :
    (b.newStmt s x).2.nodes.Perm (.stmt (b.newStmt s x).1 :: b.nodes) := by
  have size : (b.newStmt s x).2.stmts.heads.size = b.stmts.heads.size + 1 := Arena.size_alloc ..
  unfold nodes
  rw [size, numbers_succ, List.map_append, ← List.append_assoc]
  exact (List.perm_append_singleton _ _).append_right _

theorem nodes_bareStmt (b : Builder) (s : Span) (k : StmtKind) :
    (b.bareStmt s k).2.nodes.Perm (.stmt (b.bareStmt s k).1 :: b.nodes) := by
  have size : (b.bareStmt s k).2.stmts.heads.size = b.stmts.heads.size + 1 := Arena.size_alloc ..
  unfold nodes
  rw [size, numbers_succ, List.map_append, ← List.append_assoc]
  exact (List.perm_append_singleton _ _).append_right _

/-- A builder with an item that has its own parameters. -/
def withItem (b : Builder) (ps : List ParamNode) (s : Span) {k : ItemKind} (x : ItemData k) : Builder :=
  { (b.allocParams ps).2 with items := ((b.allocParams ps).2.items.make s x).2 }

theorem items_allocParams (b : Builder) (ps : List ParamNode) : (b.allocParams ps).2.items = b.items := by
  rw [allocParams_rest]

theorem nodes_withItem (b : Builder) (ps : List ParamNode) (s : Span) {k : ItemKind} (x : ItemData k) :
    (b.withItem ps s x).nodes.Perm (.item (b.items.heads.size + 1) :: b.nodes) := by
  have size : (b.withItem ps s x).items.heads.size = b.items.heads.size + 1 := by
    rw [← items_allocParams b ps]
    exact Arena.size_alloc ..
  unfold nodes
  rw [size, numbers_succ, List.map_append, ← List.append_assoc]
  unfold withItem
  rw [allocParams_rest]
  exact ((List.perm_append_singleton _ _).append_right _).append_right _

theorem children_newExpr (sound : b.Sound) (s : Span) {k : ExprKind} (x : ExprData k) (n : NodeId) :
    (b.newExpr s x).2.children n = if n = .expr (b.newExpr s x).1 then x.parts.map .expr else b.children n := by
  cases n with
  | expr id =>
    show (((b.exprs.make s x).2.find id).refs ExprData.parts).map NodeId.expr = _
    rw [Pool.find_make sound.exprs]
    by_cases new : id = b.exprs.heads.size + 1
    · rw [if_pos new]
      exact (if_pos (congrArg NodeId.expr new)).symm
    · rw [if_neg new]
      exact (if_neg fun same => new (NodeId.expr.inj same)).symm
  | file id => exact (if_neg nofun).symm
  | item id => exact (if_neg nofun).symm
  | stmt id => exact (if_neg nofun).symm

theorem children_newStmt (sound : b.Sound) (s : Span) {k : StmtKind} (x : StmtData k) (n : NodeId) :
    (b.newStmt s x).2.children n =
      if n = .stmt (b.newStmt s x).1 then x.parts.map .stmt ++ x.exprs.map .expr else b.children n := by
  cases n with
  | stmt id =>
    show (((b.stmts.make s x).2.find id).refs StmtData.parts).map NodeId.stmt ++
      (((b.stmts.make s x).2.find id).refs StmtData.exprs).map NodeId.expr = _
    rw [Pool.find_make sound.stmts]
    by_cases new : id = b.stmts.heads.size + 1
    · rw [if_pos new]
      exact (if_pos (congrArg NodeId.stmt new)).symm
    · rw [if_neg new]
      exact (if_neg fun same => new (NodeId.stmt.inj same)).symm
  | file id => exact (if_neg nofun).symm
  | item id => exact (if_neg nofun).symm
  | expr id => exact (if_neg nofun).symm

theorem children_bareStmt (b : Builder) (s : Span) (k : StmtKind) (n : NodeId) :
    (b.bareStmt s k).2.children n = if n = .stmt (b.bareStmt s k).1 then [] else b.children n := by
  cases n with
  | stmt id =>
    show (((b.stmts.bare s k).2.find id).refs StmtData.parts).map NodeId.stmt ++
      (((b.stmts.bare s k).2.find id).refs StmtData.exprs).map NodeId.expr = _
    rw [Pool.find_bare]
    by_cases new : id = b.stmts.heads.size + 1
    · rw [if_pos new]
      exact (if_pos (congrArg NodeId.stmt new)).symm
    · rw [if_neg new]
      exact (if_neg fun same => new (NodeId.stmt.inj same)).symm
  | file id => exact (if_neg nofun).symm
  | item id => exact (if_neg nofun).symm
  | expr id => exact (if_neg nofun).symm

theorem children_withItem (sound : b.Sound) (ps : List ParamNode) (s : Span) {k : ItemKind} (x : ItemData k) (n : NodeId) :
    (b.withItem ps s x).children n =
      if n = .item (b.items.heads.size + 1) then x.bodies.map .stmt else b.children n := by
  unfold withItem
  rw [allocParams_rest]
  cases n with
  | item id =>
    show (((b.items.make s x).2.find id).refs ItemData.bodies).map NodeId.stmt = _
    rw [Pool.find_make sound.items]
    by_cases new : id = b.items.heads.size + 1
    · rw [if_pos new]
      exact (if_pos (congrArg NodeId.item new)).symm
    · rw [if_neg new]
      exact (if_neg fun same => new (NodeId.item.inj same)).symm
  | file id => exact (if_neg nofun).symm
  | stmt id => exact (if_neg nofun).symm
  | expr id => exact (if_neg nofun).symm

/-- A new node has no slot yet, so no other node changes. -/
theorem children_same {n : NodeId} {cs : List NodeId} (fresh : n ∉ b.nodes)
    (children : ∀ m, b'.children m = if m = n then cs else b.children m) : ∀ m ∈ b.nodes, b'.children m = b.children m := by
  intro m member
  rw [children, if_neg]
  rintro rfl
  exact fresh member

theorem Tidy.expr (tidy : b.Tidy loose) (s : Span) {k : ExprKind} (x : ExprData k)
    (parts : loose.Perm (x.parts.map .expr ++ rest)) : (b.newExpr s x).2.Tidy (.expr (b.newExpr s x).1 :: rest) := by
  have children := children_newExpr tidy.sound s x
  have fresh : NodeId.expr (b.newExpr s x).1 ∉ b.nodes := by
    rw [mem_nodes]
    exact fun inside => absurd (Finset.mem_Icc.mp inside).2 (Nat.not_succ_le_self _)
  have inside : ∀ c ∈ x.parts, c ∈ Finset.Icc 1 b.exprs.heads.size := by
    intro c part
    exact mem_nodes.1 (tidy.there (parts.mem_iff.mpr (List.mem_append_left _ (List.mem_map_of_mem part))))
  have held : (b.newExpr s x).2.held (.expr (b.newExpr s x).1) = x.parts.map .expr := by
    rw [Builder.held, children, if_pos rfl, List.filter_eq_self]
    intro n member
    obtain ⟨c, part, rfl⟩ := List.mem_map.mp member
    have low := (Finset.mem_Icc.mp (inside c part)).1
    exact decide_eq_true (Nat.ne_of_gt low)
  refine ⟨⟨Pool.whole_make tidy.sound.exprs s x, tidy.sound.stmts, tidy.sound.items, tidy.sound.params⟩, ?_, ?_, tidy.stmts⟩
  · exact once_made tidy.once (nodes_newExpr b s x) (children_same fresh children) (held ▸ parts)
  · intro id c part
    have part : c ∈ ((b.exprs.make s x).2.find id).refs ExprData.parts := part
    rw [Pool.find_make tidy.sound.exprs] at part
    split at part
    · next new =>
      rw [new]
      exact Nat.lt_succ_of_le (Finset.mem_Icc.mp (inside c part)).2
    · exact tidy.exprs id c part

theorem Tidy.stmt (tidy : b.Tidy loose) (s : Span) {k : StmtKind} (x : StmtData k)
    (parts : loose.Perm (x.held ++ rest)) : (b.newStmt s x).2.Tidy (.stmt (b.newStmt s x).1 :: rest) := by
  have children := children_newStmt tidy.sound s x
  have fresh : NodeId.stmt (b.newStmt s x).1 ∉ b.nodes := by
    rw [mem_nodes]
    exact fun inside => absurd (Finset.mem_Icc.mp inside).2 (Nat.not_succ_le_self _)
  have held : (b.newStmt s x).2.held (.stmt (b.newStmt s x).1) = x.held := by
    rw [Builder.held, children, if_pos rfl, StmtData.held]
  refine ⟨⟨tidy.sound.exprs, Pool.whole_make tidy.sound.stmts s x, tidy.sound.items, tidy.sound.params⟩, ?_, tidy.exprs, ?_⟩
  · exact once_made tidy.once (nodes_newStmt b s x) (children_same fresh children) (held ▸ parts)
  · intro id c part
    have part : c ∈ ((b.stmts.make s x).2.find id).refs StmtData.parts := part
    rw [Pool.find_make tidy.sound.stmts] at part
    split at part
    · next new =>
      by_cases zero : c = 0
      · rw [new, zero]
        exact Nat.succ_pos _
      · have member : NodeId.stmt c ∈ loose := by
          refine parts.mem_iff.mpr (List.mem_append_left _ (List.mem_filter.mpr ⟨?_, decide_eq_true zero⟩))
          exact List.mem_append_left _ (List.mem_map_of_mem part)
        rw [new]
        exact Nat.lt_succ_of_le (Finset.mem_Icc.mp (mem_nodes.1 (tidy.there member))).2
    · exact tidy.stmts id c part

theorem Tidy.bare (tidy : b.Tidy loose) (s : Span) {k : StmtKind} (plain : Plain k) :
    (b.bareStmt s k).2.Tidy (.stmt (b.bareStmt s k).1 :: loose) := by
  have children := children_bareStmt b s k
  have fresh : NodeId.stmt (b.bareStmt s k).1 ∉ b.nodes := by
    rw [mem_nodes]
    exact fun inside => absurd (Finset.mem_Icc.mp inside).2 (Nat.not_succ_le_self _)
  have held : (b.bareStmt s k).2.held (.stmt (b.bareStmt s k).1) = [] := by
    rw [Builder.held, children, if_pos rfl, List.filter_nil]
  refine ⟨⟨tidy.sound.exprs, Pool.whole_bare tidy.sound.stmts s plain, tidy.sound.items, tidy.sound.params⟩, ?_,
    tidy.exprs, ?_⟩
  · exact once_made tidy.once (nodes_bareStmt b s k) (children_same fresh children) (by rw [held, List.nil_append])
  · intro id c part
    have part : c ∈ ((b.stmts.bare s k).2.find id).refs StmtData.parts := part
    rw [Pool.find_bare] at part
    split at part
    · cases part
    · exact tidy.stmts id c part

theorem Tidy.item (tidy : b.Tidy loose) (ps : List ParamNode) (s : Span) {k : ItemKind} (x : ItemData k)
    (range : rangeOf x = (b.allocParams ps).1) (parts : loose.Perm (x.bodies.map .stmt ++ rest)) :
    (b.withItem ps s x).Tidy (.item (b.items.heads.size + 1) :: rest) := by
  have children := children_withItem tidy.sound ps s x
  have fresh : NodeId.item (b.items.heads.size + 1) ∉ b.nodes := by
    rw [mem_nodes]
    exact fun inside => absurd (Finset.mem_Icc.mp inside).2 (Nat.not_succ_le_self _)
  have held : (b.withItem ps s x).held (.item (b.items.heads.size + 1)) = x.bodies.map .stmt := by
    rw [Builder.held, children, if_pos rfl, List.filter_eq_self]
    intro n member
    obtain ⟨c, part, rfl⟩ := List.mem_map.mp member
    have inside := mem_nodes.1 (tidy.there (parts.mem_iff.mpr (List.mem_append_left _ member)))
    have low := (Finset.mem_Icc.mp inside).1
    exact decide_eq_true (Nat.ne_of_gt low)
  have unchanged : (b.withItem ps s x).exprs = b.exprs ∧ (b.withItem ps s x).stmts = b.stmts := by
    unfold withItem
    rw [allocParams_rest]
    exact ⟨rfl, rfl⟩
  refine ⟨tidy.sound.item ps s x range, ?_, ?_, ?_⟩
  · exact once_made tidy.once (nodes_withItem b ps s x) (children_same fresh children) (held ▸ parts)
  · rw [unchanged.1]
    exact tidy.exprs
  · rw [unchanged.2]
    exact tidy.stmts

theorem tidy_empty : ({} : Builder).Tidy [] := by
  refine ⟨(Built.start .empty).sound, .nil, ?_, ?_⟩
  · intro id c part
    rw [Pool.find_empty] at part
    cases part
  · intro id c part
    rw [Pool.find_empty] at part
    cases part

/-! ## Files -/

theorem nodup_nodes (b : Builder) : b.nodes.Nodup := by
  have numbers (n : Nat) : (List.range' 1 n).Nodup := List.nodup_range'
  unfold nodes
  simp only [List.nodup_append, List.mem_append, List.mem_map]
  refine ⟨⟨⟨(numbers _).map fun _ _ => NodeId.file.inj, (numbers _).map fun _ _ => NodeId.item.inj, ?_⟩,
    (numbers _).map fun _ _ => NodeId.stmt.inj, ?_⟩, (numbers _).map fun _ _ => NodeId.expr.inj, ?_⟩
  · rintro _ ⟨i, _, rfl⟩ _ ⟨j, _, rfl⟩
    exact nofun
  · rintro _ (⟨i, _, rfl⟩ | ⟨i, _, rfl⟩) _ ⟨j, _, rfl⟩
    · exact nofun
    · exact nofun
  · rintro _ ((⟨i, _, rfl⟩ | ⟨i, _, rfl⟩) | ⟨i, _, rfl⟩) _ ⟨j, _, rfl⟩
    · exact nofun
    · exact nofun
    · exact nofun

theorem Tidy.file (tidy : b.Tidy loose) (s : Span) : (b.newFile s).2.Tidy (.file (b.newFile s).1 :: loose) := by
  have size : (b.newFile s).2.files.size = b.files.size + 1 := Arena.size_alloc ..
  have nodes : (b.newFile s).2.nodes.Perm (.file (b.newFile s).1 :: b.nodes) := by
    unfold Builder.nodes
    rw [size, numbers_succ, List.map_append]
    exact (((List.perm_append_singleton _ _).append_right _).append_right _).append_right _
  have children (n : NodeId) :
      (b.newFile s).2.children n = if n = .file (b.newFile s).1 then [] else b.children n := by
    cases n with
    | file id =>
      show (((b.files.alloc ⟨s, []⟩).2.get? id).elim [] FileNode.items).map NodeId.item = _
      rw [Arena.get?_alloc]
      by_cases new : id = b.files.size + 1
      · rw [if_pos new]
        exact (if_pos (congrArg NodeId.file new)).symm
      · rw [if_neg new]
        exact (if_neg fun same => new (NodeId.file.inj same)).symm
    | item id => exact (if_neg nofun).symm
    | stmt id => exact (if_neg nofun).symm
    | expr id => exact (if_neg nofun).symm
  have fresh : NodeId.file (b.newFile s).1 ∉ b.nodes := by
    rw [mem_nodes]
    exact fun inside => absurd (Finset.mem_Icc.mp inside).2 (Nat.not_succ_le_self _)
  have held : (b.newFile s).2.held (.file (b.newFile s).1) = [] := by
    rw [Builder.held, children, if_pos rfl, List.filter_nil]
  refine ⟨⟨tidy.sound.exprs, tidy.sound.stmts, tidy.sound.items, tidy.sound.params⟩, ?_, tidy.exprs, tidy.stmts⟩
  exact once_made tidy.once nodes (children_same fresh children) (by rw [held, List.nil_append])

theorem get?_set {α : Type} {a : Arena α} {id : Nat} {x y : α} (there : a.get? id = some x) (i : Nat) :
    (a.set id y).get? i = if i = id then some y else a.get? i := by
  have bounds := Finset.mem_Icc.mp (Arena.get?_bounds there)
  unfold Arena.size at bounds
  unfold Arena.get? Arena.set
  by_cases zero : i = 0
  · rw [if_pos zero, if_pos zero, if_neg (by omega)]
  · rw [if_neg zero, if_neg zero, Array.getElem?_setIfInBounds]
    by_cases same : i = id
    · subst same
      rw [if_pos rfl, if_pos rfl, if_pos (by omega)]
    · rw [if_neg same, if_neg (by omega)]

theorem size_set {α : Type} (a : Arena α) (id : Nat) (x : α) : (a.set id x).size = a.size :=
  Array.size_setIfInBounds

theorem children_push {file i : Nat} (pushed : b.pushItem? file i = some b') (n : NodeId) :
    b'.children n = if n = .file file then b.children n ++ [NodeId.item i] else b.children n := by
  obtain ⟨f, there, rfl⟩ := Option.map_eq_some_iff.mp pushed
  cases n with
  | file id =>
    show (((b.files.set file { f with items := f.items ++ [i] }).get? id).elim [] FileNode.items).map NodeId.item = _
    rw [get?_set there]
    by_cases same : id = file
    · subst same
      rw [if_pos rfl, if_pos rfl, Builder.children, there]
      simp
    · rw [if_neg same, if_neg fun other => same (NodeId.file.inj other)]
      rfl
  | item id => exact (if_neg nofun).symm
  | stmt id => exact (if_neg nofun).symm
  | expr id => exact (if_neg nofun).symm

/-- A loose item gets its slot in a file. -/
theorem Tidy.push (tidy : b.Tidy loose) {file i : Nat} (pushed : b.pushItem? file i = some b')
    (mine : loose.Perm (.item i :: rest)) : b'.Tidy rest := by
  have children := children_push pushed
  obtain ⟨f, there, rfl⟩ := Option.map_eq_some_iff.mp pushed
  refine ⟨⟨tidy.sound.exprs, tidy.sound.stmts, tidy.sound.items, tidy.sound.params⟩, ?_, tidy.exprs, tidy.stmts⟩
  generalize updated : { b with files := b.files.set file { f with items := f.items ++ [i] } } = b' at children
  have nodes : b'.nodes = b.nodes := by
    rw [← updated]
    unfold Builder.nodes
    rw [size_set]
  have isFile : NodeId.file file ∈ b.nodes := mem_nodes.2 (Arena.get?_bounds there)
  have real : (NodeId.item i).number ≠ 0 :=
    Nat.ne_of_gt (Finset.mem_Icc.mp (mem_nodes.1 (tidy.there (mine.mem_iff.mpr List.mem_cons_self)))).1
  have held : b'.held (.file file) = b.held (.file file) ++ [NodeId.item i] := by
    unfold Builder.held
    rw [children, if_pos rfl, List.filter_append, List.filter_singleton, decide_eq_true real]
    rfl
  have others : (b.nodes.erase (.file file)).flatMap b'.held = (b.nodes.erase (.file file)).flatMap b.held := by
    refine List.flatMap_congr fun m member => congrArg (List.filter _) ?_
    rw [children, if_neg ((nodup_nodes b).mem_erase_iff.mp member).1]
  have split := List.perm_cons_erase isFile
  have slots : b'.slots.Perm (.item i :: b.slots) := by
    unfold Builder.slots
    rw [nodes]
    refine (split.flatMap_right b'.held).trans ?_
    refine .trans ?_ ((split.flatMap_right b.held).symm.cons _)
    rw [List.flatMap_cons, List.flatMap_cons, held, others, List.append_assoc, List.singleton_append]
    exact List.perm_middle
  rw [nodes]
  refine .trans ?_ tidy.once
  refine (slots.append_left rest).trans ?_
  exact List.perm_middle.trans (mine.append_right _).symm

theorem children_close (b : Builder) (file : Nat) (s : Span) (n : NodeId) :
    (b.closeFile file s).children n = b.children n := by
  unfold closeFile
  cases there : b.files.get? file with
  | none => rfl
  | some f =>
    cases n with
    | file id =>
      show (((b.files.set file { f with span := s }).get? id).elim [] FileNode.items).map NodeId.item = _
      rw [get?_set there]
      by_cases same : id = file
      · subst same
        rw [if_pos rfl, Builder.children, there]
        rfl
      · rw [if_neg same]
        rfl
    | item id => rfl
    | stmt id => rfl
    | expr id => rfl

/-- The place of a file is no matter of its nodes. -/
theorem Tidy.close (tidy : b.Tidy loose) (file : Nat) (s : Span) : (b.closeFile file s).Tidy loose := by
  have children := children_close b file s
  have nodes : (b.closeFile file s).nodes = b.nodes := by
    unfold closeFile
    split
    · rfl
    · unfold Builder.nodes
      rw [size_set]
  have slots : (b.closeFile file s).slots = b.slots := by
    unfold Builder.slots Builder.held
    simp only [nodes, children]
  have once := tidy.once
  rw [← slots, ← nodes] at once
  unfold closeFile at once ⊢
  split at once
  · exact tidy
  · exact ⟨⟨tidy.sound.exprs, tidy.sound.stmts, tidy.sound.items, tidy.sound.params⟩, once, tidy.exprs, tidy.stmts⟩

/-- A node that refers to others is there. -/
theorem parent_there {m n : NodeId} (child : n ∈ b.children m) : m ∈ b.nodes := by
  rw [mem_nodes]
  cases m with
  | file id =>
    obtain ⟨c, part, rfl⟩ := List.mem_map.mp child
    cases there : b.files.get? id with
    | none =>
      rw [there] at part
      cases part
    | some f => exact Arena.get?_bounds there
  | item id =>
    obtain ⟨c, part, rfl⟩ := List.mem_map.mp child
    exact Pool.refs_bounds part
  | stmt id =>
    rcases List.mem_append.mp child with inner | inner
    · obtain ⟨c, part, rfl⟩ := List.mem_map.mp inner
      exact Pool.refs_bounds part
    · obtain ⟨c, part, rfl⟩ := List.mem_map.mp inner
      exact Pool.refs_bounds part
  | expr id =>
    obtain ⟨c, part, rfl⟩ := List.mem_map.mp child
    exact Pool.refs_bounds part

/-- The nodes of a builder have ranks that go down along slots. -/
theorem Tidy.exists_rank (tidy : b.Tidy loose) : ∃ (rank : NodeId → Nat) (bound : Nat), (∀ n, rank n ≤ bound) ∧
    ∀ m, ∀ n ∈ b.held m, rank n < rank m := by
  obtain ⟨rank, bound, down⟩ := PineLang.exists_rank b.nodes.toFinset
    (fun m n child => List.mem_toFinset.mpr (parent_there child)) tidy.acyclic
  exact ⟨rank, _, bound, fun m n slot => down m n (List.mem_of_mem_filter slot)⟩

/-- Where no node is loose but a file, every node is below that file. -/
theorem Tidy.reached {file : Nat} (tidy : b.Tidy [.file file]) {n : NodeId} (member : n ∈ b.nodes) :
    ReflTransGen (fun m n => n ∈ b.children m) (.file file) n := by
  obtain ⟨rank, bound, most, down⟩ := tidy.exists_rank
  obtain ⟨r, isFile, path⟩ := forest_reached rank bound most down tidy.once member
  rw [List.mem_singleton.mp isFile] at path
  exact ReflTransGen.mono (fun m n slot => List.mem_of_mem_filter slot) _ _ path

/-! ## Parameters -/

/-- The numbers of the parameters of an item. -/
def paramNumbers {k : ItemKind} (x : ItemData k) : List Nat := List.range' (rangeOf x).start (rangeOf x).count

/-- The place that an item has for itself. -/
def ownSpan {k : ItemKind} : ItemData k → Span
  | .fn d => d.span
  | .struct d => d.span

/-- The parameters of the items stand side by side, in the order of the items, and there are no others. -/
structure Lined (b : Builder) : Prop where
  full : ∀ id s k (x : ItemData k), b.items.find id = .node s x →
    ∃ ps, b.paramRange? (rangeOf x) = some ps ∧ ps.length = (rangeOf x).count
  spans : ∀ id s k (x : ItemData k), b.items.find id = .node s x → ownSpan x = s
  inOrder : (List.range' 1 b.items.heads.size).flatMap (fun id => (b.items.find id).refs paramNumbers) =
    List.range' 1 b.params.size

theorem params_allocParams (b : Builder) (ps : List ParamNode) :
    (b.allocParams ps).2.params.nodes.toList = b.params.nodes.toList ++ ps := by
  have all : ∀ (qs : List ParamNode) (a : Arena ParamNode),
      (qs.foldl (fun a p => (a.alloc p).2) a).nodes.toList = a.nodes.toList ++ qs := by
    intro qs
    induction qs with
    | nil => intro a; exact (List.append_nil _).symm
    | cons q qs ih =>
      intro a
      rw [List.foldl_cons, ih]
      simp [Arena.alloc]
  unfold allocParams
  split
  · next none => rw [List.isEmpty_iff.mp none, List.append_nil]
  · exact all ps b.params

theorem paramRange?_own (b : Builder) (ps : List ParamNode) :
    (b.allocParams ps).2.paramRange? (b.allocParams ps).1 = some ps := by
  have all := params_allocParams b ps
  have size := size_allocParams b ps
  unfold paramRange?
  rw [all, size]
  unfold allocParams
  split
  · next none =>
    rw [List.isEmpty_iff.mp none]
    rfl
  · next some =>
    have some : ps ≠ [] := fun none => some (List.isEmpty_iff.mpr none)
    have length := List.length_pos_iff.mpr some
    rw [if_neg (by simp only; omega), if_pos (by simp only; omega)]
    simp [Arena.size]

theorem paramRange?_more {r : ParamRange} {qs : List ParamNode} (known : b.paramRange? r = some qs) (ps : List ParamNode) :
    (b.allocParams ps).2.paramRange? r = some qs := by
  have all := params_allocParams b ps
  have size := size_allocParams b ps
  unfold paramRange? at known ⊢
  split at known
  · next empty =>
    rw [if_pos empty]
    exact known
  · next some =>
    split at known
    · next fits =>
      have inside : r.start - 1 + r.count ≤ b.params.nodes.toList.length := fits
      rw [if_neg some, if_pos (by omega), all, List.drop_append_of_le_length (by omega),
        List.take_append_of_le_length (by rw [List.length_drop]; omega)]
      exact known
    · cases known

theorem range_allocParams (b : Builder) (ps : List ParamNode) :
    List.range' 1 b.params.size ++ List.range' (b.allocParams ps).1.start (b.allocParams ps).1.count =
      List.range' 1 (b.allocParams ps).2.params.size := by
  rw [size_allocParams]
  unfold allocParams
  split
  · next none =>
    rw [List.isEmpty_iff.mp none]
    exact List.append_nil _
  · rw [← List.range'_append_1, Nat.add_comm 1]

theorem Lined.item (lined : b.Lined) (sound : b.Sound) (ps : List ParamNode) (s : Span) {k : ItemKind} (x : ItemData k)
    (range : rangeOf x = (b.allocParams ps).1) (span : ownSpan x = s) : (b.withItem ps s x).Lined := by
  have find (id : Nat) :
      (b.withItem ps s x).items.find id = if id = b.items.heads.size + 1 then .node s x else b.items.find id := by
    show ((b.allocParams ps).2.items.make s x).2.find id = _
    rw [items_allocParams, Pool.find_make sound.items]
  have ranges (r : ParamRange) : (b.withItem ps s x).paramRange? r = (b.allocParams ps).2.paramRange? r := rfl
  refine ⟨?_, ?_, ?_⟩
  · intro id s' k' y found
    rw [find] at found
    rw [ranges]
    split at found
    · cases found
      rw [range]
      refine ⟨ps, paramRange?_own b ps, ?_⟩
      unfold allocParams
      split
      · next none => rw [List.isEmpty_iff.mp none]; rfl
      · rfl
    · obtain ⟨qs, known, length⟩ := lined.full id s' k' y found
      exact ⟨qs, paramRange?_more known ps, length⟩
  · intro id s' k' y found
    rw [find] at found
    split at found
    · cases found
      exact span
    · exact lined.spans id s' k' y found
  · have size : (b.withItem ps s x).items.heads.size = b.items.heads.size + 1 := by
      rw [← items_allocParams b ps]
      exact Arena.size_alloc ..
    have old : (List.range' 1 b.items.heads.size).flatMap (fun id => ((b.withItem ps s x).items.find id).refs paramNumbers) =
        List.range' 1 b.params.size := by
      rw [← lined.inOrder]
      refine List.flatMap_congr fun id member => ?_
      have below := (List.mem_range'_1.mp member).2
      rw [find, if_neg (by omega)]
    rw [size, numbers_succ, List.flatMap_append, old, List.flatMap_singleton, find, if_pos rfl]
    show _ ++ paramNumbers x = List.range' 1 (b.allocParams ps).2.params.size
    rw [paramNumbers, range, range_allocParams]

theorem lined_empty : ({} : Builder).Lined := by
  refine ⟨?_, ?_, rfl⟩
  · intro id s k x found
    rw [Pool.find_empty] at found
    cases found
  · intro id s k x found
    rw [Pool.find_empty] at found
    cases found

/-- Whether the parameters are side by side is a matter of the items and the parameters alone. -/
theorem Lined.congr (lined : b.Lined) (items : b'.items = b.items) (params : b'.params = b.params) : b'.Lined := by
  have ranges (r : ParamRange) : b'.paramRange? r = b.paramRange? r := by
    unfold paramRange?
    rw [params]
  refine ⟨?_, ?_, ?_⟩
  · intro id s k x found
    rw [ranges]
    rw [items] at found
    exact lined.full id s k x found
  · rw [items]
    exact lined.spans
  · rw [items, params]
    exact lined.inOrder

end Builder
end PineLang
