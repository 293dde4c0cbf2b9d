import PineLang.Proofs.NodeForests
import PineLang.Syntax.NodeWalk

/-!
Walks over nodes. At every node a walk meets the node itself and then goes on to its parts, so that in a builder whose nodes
have one parent each it meets every node once (`Builder.Tidy.walk_nodes`), and every parameter where parameters stand side
by side (`Builder.walk_params`). Without the numbers it is the walk over the tree that is read out of the builder
(`Builder.walk_visits`). A tour that a visitor may end goes through the steps of the walk in order, and no further than to
the first no (`Builder.tour_stops`).
-/
namespace PineLang
namespace Builder

variable {b : Builder} {loose : List NodeId}

/-! ## What is met at a node -/

/-- What a walk meets at an expression before it goes on to the parts. -/
def exprMeets (b : Builder) (id : Nat) : List Encounter :=
  match b.exprs.find id with
  | .missing => []
  | .hollow s k => .met (.expr id) s :: if exprKindHasParts k.number then [.broken] else []
  | .node s _ => [.met (.expr id) s]

/-- What a walk meets at a statement before it goes on to the parts. -/
def stmtMeets (b : Builder) (id : Nat) : List Encounter :=
  match b.stmts.find id with
  | .missing => []
  | .hollow s k => .met (.stmt id) s :: if stmtKindHasParts k.number then [.broken] else []
  | .node s (.bind _ _ ty _) => [.met (.stmt id) s, .met .type ty.span]
  | .node s _ => [.met (.stmt id) s]

theorem exprWalkStep_eq (b : Builder) (sub : Nat → List Encounter) (id : Nat) :
    b.exprWalkStep sub id = b.exprMeets id ++ ((b.exprs.find id).refs ExprData.parts).flatMap sub := by
  unfold exprWalkStep exprMeets
  generalize b.exprs.find id = found
  cases found with
  | missing => rfl
  | hollow s k => simp [Pool.Found.refs]
  | node s x => cases x <;> simp [Pool.Found.refs, ExprData.parts, List.flatMap_map]

theorem stmtWalkStep_eq (b : Builder) (sub : Nat → List Encounter) (id : Nat) :
    b.stmtWalkStep sub id = b.stmtMeets id ++ ((b.stmts.find id).refs StmtData.exprs).flatMap b.exprWalk ++
      ((b.stmts.find id).refs StmtData.parts).flatMap sub := by
  unfold stmtWalkStep stmtMeets
  generalize b.stmts.find id = found
  cases found with
  | missing => rfl
  | hollow s k => simp [Pool.Found.refs]
  | node s x => cases x <;> simp [Pool.Found.refs, StmtData.parts, StmtData.exprs]

theorem exprWalk_eq (acyclic : b.Acyclic) (id : Nat) :
    b.exprWalk id = b.exprMeets id ++ ((b.exprs.find id).refs ExprData.parts).flatMap b.exprWalk := by
  rw [← exprWalkStep_eq]
  refine unfolded_eq _ (fun _ _ part => Pool.refs_bounds part) acyclic.exprs ?_ id
  intro f g id same
  rw [exprWalkStep_eq, exprWalkStep_eq, List.flatMap_congr same]

theorem stmtWalk_eq (acyclic : b.Acyclic) (id : Nat) :
    b.stmtWalk id = b.stmtMeets id ++ ((b.stmts.find id).refs StmtData.exprs).flatMap b.exprWalk ++
      ((b.stmts.find id).refs StmtData.parts).flatMap b.stmtWalk := by
  rw [← stmtWalkStep_eq]
  refine unfolded_eq _ (fun _ _ part => Pool.refs_bounds part) acyclic.stmts ?_ id
  intro f g id same
  rw [stmtWalkStep_eq, stmtWalkStep_eq, List.flatMap_congr same]

/-- What holds of all that is met at expressions holds of all that a walk over one meets. -/
theorem exprWalk_forall (acyclic : b.Acyclic) {P : Encounter → Prop} (each : ∀ id, ∀ e ∈ b.exprMeets id, P e) (id : Nat) :
    ∀ e ∈ b.exprWalk id, P e := by
  induction id using parts_induction _ (fun _ _ part => Pool.refs_bounds part) acyclic.exprs with
  | _ id ih =>
    intro e member
    rw [exprWalk_eq acyclic] at member
    rcases List.mem_append.mp member with here | below
    · exact each id e here
    · obtain ⟨c, part, inside⟩ := List.mem_flatMap.mp below
      exact ih c part e inside

/-- What holds of all that is met at expressions and statements holds of all that a walk over a statement meets. -/
theorem stmtWalk_forall (acyclic : b.Acyclic) {P : Encounter → Prop} (exprs : ∀ id, ∀ e ∈ b.exprMeets id, P e)
    (each : ∀ id, ∀ e ∈ b.stmtMeets id, P e) (id : Nat) : ∀ e ∈ b.stmtWalk id, P e := by
  induction id using parts_induction _ (fun _ _ part => Pool.refs_bounds part) acyclic.stmts with
  | _ id ih =>
    intro e member
    rw [stmtWalk_eq acyclic] at member
    rcases List.mem_append.mp member with front | below
    · rcases List.mem_append.mp front with here | inner
      · exact each id e here
      · obtain ⟨c, _, inside⟩ := List.mem_flatMap.mp inner
        exact exprWalk_forall acyclic exprs c e inside
    · obtain ⟨c, part, inside⟩ := List.mem_flatMap.mp below
      exact ih c part e inside

/-! ## Nodes -/

end Builder

/-- The node that is met, if it is one. -/
def Encounter.node? : Encounter → Option NodeId
  | met (.file id) _ => some (.file id)
  | met (.item id) _ => some (.item id)
  | met (.stmt id) _ => some (.stmt id)
  | met (.expr id) _ => some (.expr id)
  | _ => none

/-- The number of the parameter that is met, if it is one. -/
def Encounter.param? : Encounter → Option Nat
  | met (.param id) _ => some id
  | _ => none

namespace Builder

variable {b : Builder} {loose : List NodeId}

/-- The nodes that a walk from a node meets. -/
@[grind =] def metFrom (b : Builder) : NodeId → List NodeId
  | .file id => (b.walk id).filterMap Encounter.node?
  | .item id => (b.itemWalk id).filterMap Encounter.node?
  | .stmt id => (b.stmtWalk id).filterMap Encounter.node?
  | .expr id => (b.exprWalk id).filterMap Encounter.node?

theorem find_there {κ : Type} {Data : κ → Type} {p : Pool κ Data} {id : Nat} (inside : id ∈ Finset.Icc 1 p.heads.size) :
    p.find id ≠ .missing := by
  obtain ⟨low, high⟩ := Finset.mem_Icc.mp inside
  have there : ∃ h, p.heads.get? id = some h := by
    unfold Arena.size at high
    rw [Arena.get?, if_neg (by omega)]
    exact ⟨_, Array.getElem?_eq_getElem (by omega)⟩
  obtain ⟨h, there⟩ := there
  unfold Pool.find
  rw [there]
  simp only
  split <;> intro missing <;> cases missing

/-- An expression that is there has its content. -/
theorem Sound.expr_node (sound : b.Sound) {id : Nat} (inside : id ∈ Finset.Icc 1 b.exprs.heads.size) :
    ∃ (s : Span) (k : ExprKind) (x : ExprData k), b.exprs.find id = .node s x := by
  cases found : b.exprs.find id with
  | missing => exact absurd found (find_there inside)
  | hollow s k => exact (sound.exprs.hollow found).elim
  | node s x => exact ⟨s, _, x, rfl⟩

/-- An item that is there has its content. -/
theorem Sound.item_node (sound : b.Sound) {id : Nat} (inside : id ∈ Finset.Icc 1 b.items.heads.size) :
    ∃ (s : Span) (k : ItemKind) (x : ItemData k), b.items.find id = .node s x := by
  cases found : b.items.find id with
  | missing => exact absurd found (find_there inside)
  | hollow s k => exact (sound.items.hollow found).elim
  | node s x => exact ⟨s, _, x, rfl⟩

/-- Of the nodes, a walk meets at a statement only the statement. -/
theorem Sound.stmtMeets_node (sound : b.Sound) {id : Nat} (inside : id ∈ Finset.Icc 1 b.stmts.heads.size) :
    (b.stmtMeets id).filterMap Encounter.node? = [.stmt id] := by
  unfold stmtMeets
  cases found : b.stmts.find id with
  | missing => exact absurd found (find_there inside)
  | hollow s k =>
    rcases sound.stmts.hollow found with rfl | rfl
    · rfl
    · rfl
  | node s x => cases x <;> rfl

theorem paramWalk_node (start : Nat) (ps : List ParamNode) : (paramWalk start ps).filterMap Encounter.node? = [] := by
  induction ps generalizing start with
  | nil => rfl
  | cons p ps ih =>
    exact ih _

/-- A zero leads nowhere, so it makes no difference to a walk that slots with zeros are empty. -/
theorem flatMap_held (acyclic : b.Acyclic) (n : NodeId) : (b.held n).flatMap b.metFrom = (b.children n).flatMap b.metFrom := by
  have nowhere : ∀ m : NodeId, m.number = 0 → b.metFrom m = [] := by
    intro m zero
    cases m with
    | file id =>
      cases zero
      rfl
    | item id =>
      cases zero
      rfl
    | stmt id =>
      cases zero
      have missing : b.stmts.find 0 = .missing := rfl
      rw [metFrom, stmtWalk_eq acyclic, stmtMeets, missing]
      rfl
    | expr id =>
      cases zero
      have missing : b.exprs.find 0 = .missing := rfl
      rw [metFrom, exprWalk_eq acyclic, exprMeets, missing]
      rfl
  unfold held
  induction b.children n with
  | nil => rfl
  | cons c cs ih =>
    by_cases zero : c.number = 0
    · rw [List.filter_cons_of_neg (by simp [zero]), ih, List.flatMap_cons, nowhere c zero, List.nil_append]
    · rw [List.filter_cons_of_pos (by simp [zero]), List.flatMap_cons, ih, List.flatMap_cons]

/-- A walk from a node meets the node, and then what walks from the nodes in its slots meet. -/
theorem Tidy.metFrom_step (tidy : b.Tidy loose) {n : NodeId} (member : n ∈ b.nodes) :
    (b.metFrom n).Perm (n :: (b.held n).flatMap b.metFrom) := by
  have acyclic := tidy.acyclic
  rw [flatMap_held acyclic]
  rw [mem_nodes] at member
  cases n with
  | file id =>
    refine .of_eq ?_
    have there : ∃ f, b.files.get? id = some f := by
      obtain ⟨low, high⟩ := Finset.mem_Icc.mp member
      unfold Arena.size at high
      rw [Arena.get?, if_neg (by omega)]
      exact ⟨_, Array.getElem?_eq_getElem (by omega)⟩
    obtain ⟨f, there⟩ := there
    rw [metFrom, walk, children, there]
    show NodeId.file id :: (f.items.flatMap b.itemWalk).filterMap Encounter.node? = _
    rw [List.filterMap_flatMap, Option.elim_some, List.flatMap_map]
    rfl
  | item id =>
    refine .of_eq ?_
    obtain ⟨s, k, x, found⟩ := tidy.sound.item_node member
    obtain ⟨ps, range⟩ := Option.isSome_iff_exists.mp (tidy.sound.params id s k x found)
    rw [metFrom, itemWalk, children, found]
    cases x with
    | fn d =>
      have range : b.paramRange? d.params = some ps := range
      simp only [range]
      show NodeId.item id :: (paramWalk d.params.start ps ++ _).filterMap Encounter.node? = _
      rw [List.filterMap_append, paramWalk_node, List.nil_append]
      exact congrArg (NodeId.item id :: ·) (List.flatMap_singleton b.metFrom (.stmt d.body)).symm
    | struct d =>
      have range : b.paramRange? d.fields = some ps := range
      simp only [range]
      show NodeId.item id :: (paramWalk d.fields.start ps).filterMap Encounter.node? = _
      rw [paramWalk_node]
      rfl
  | stmt id =>
    rw [metFrom, stmtWalk_eq acyclic, children, List.filterMap_append, List.filterMap_append, List.filterMap_flatMap,
      List.filterMap_flatMap, tidy.sound.stmtMeets_node member, List.flatMap_append, List.flatMap_map, List.flatMap_map,
      List.append_assoc, List.singleton_append]
    exact List.perm_append_comm.cons _
  | expr id =>
    refine .of_eq ?_
    obtain ⟨s, k, x, found⟩ := tidy.sound.expr_node member
    rw [metFrom, exprWalk_eq acyclic, children, exprMeets, found, List.filterMap_append, List.filterMap_flatMap,
      List.flatMap_map]
    rfl

/-- Where no node is loose but a file, a walk over the file meets every node once. -/
theorem Tidy.walk_nodes {file : Nat} (tidy : b.Tidy [.file file]) :
    ((b.walk file).filterMap Encounter.node?).Perm b.nodes := by
  obtain ⟨rank, _, _, down⟩ := tidy.exists_rank
  have met := forest_walk rank down b.nodes.length rfl (fun n member => tidy.metFrom_step member) tidy.once
  rwa [List.flatMap_singleton] at met

/-! ## Parameters -/

theorem paramWalk_param (start : Nat) (ps : List ParamNode) :
    (paramWalk start ps).filterMap Encounter.param? = List.range' start ps.length := by
  induction ps generalizing start with
  | nil => rfl
  | cons p ps ih =>
    rw [List.length_cons, List.range'_succ, ← ih]
    rfl

theorem paramWalk_whole (start : Nat) (ps : List ParamNode) : ∀ e ∈ paramWalk start ps, e ≠ .broken := by
  induction ps generalizing start with
  | nil => exact nofun
  | cons p ps ih =>
    intro e member
    rcases List.mem_cons.mp member with rfl | later
    · exact nofun
    · rcases List.mem_cons.mp later with rfl | rest
      · exact nofun
      · exact ih _ e rest

/-- What a walk meets within bodies: nodes with their content, and no parameters. -/
def Inner (e : Encounter) : Prop := e ≠ .broken ∧ e.param? = none

theorem Sound.exprMeets_inner (sound : b.Sound) (id : Nat) : ∀ e ∈ b.exprMeets id, Inner e := by
  unfold exprMeets
  cases found : b.exprs.find id with
  | missing => exact nofun
  | hollow s k => exact (sound.exprs.hollow found).elim
  | node s x =>
    intro e member
    rw [List.mem_singleton.mp member]
    exact ⟨nofun, rfl⟩

theorem Sound.stmtMeets_inner (sound : b.Sound) (id : Nat) : ∀ e ∈ b.stmtMeets id, Inner e := by
  intro e member
  unfold stmtMeets at member
  cases found : b.stmts.find id with
  | missing =>
    rw [found] at member
    cases member
  | hollow s k =>
    rw [found] at member
    have only : e = .met (.stmt id) s := by
      rcases sound.stmts.hollow found with rfl | rfl
      · exact List.mem_singleton.mp member
      · exact List.mem_singleton.mp member
    rw [only]
    exact ⟨nofun, rfl⟩
  | node s x =>
    rw [found] at member
    have only : e = .met (.stmt id) s ∨ ∃ span, e = .met .type span := by
      cases x with
      | bind n ns ty x =>
        rcases List.mem_cons.mp member with here | there
        · exact .inl here
        · exact .inr ⟨_, List.mem_singleton.mp there⟩
      | _ => exact .inl (List.mem_singleton.mp member)
    rcases only with rfl | ⟨span, rfl⟩
    · exact ⟨nofun, rfl⟩
    · exact ⟨nofun, rfl⟩

theorem Tidy.stmtWalk_inner (tidy : b.Tidy loose) (id : Nat) : ∀ e ∈ b.stmtWalk id, Inner e :=
  stmtWalk_forall tidy.acyclic tidy.sound.exprMeets_inner tidy.sound.stmtMeets_inner id

/-- A walk over an item meets the parameters of the item, in order. -/
theorem Tidy.itemWalk_params (tidy : b.Tidy loose) (lined : b.Lined) (id : Nat) :
    (b.itemWalk id).filterMap Encounter.param? = (b.items.find id).refs paramNumbers := by
  unfold itemWalk
  cases found : b.items.find id with
  | missing => rfl
  | hollow s k => exact (tidy.sound.items.hollow found).elim
  | node s x =>
    obtain ⟨ps, range, length⟩ := lined.full id s _ x found
    cases x with
    | fn d =>
      have range : b.paramRange? d.params = some ps := range
      have inner : (b.stmtWalk d.body).filterMap Encounter.param? = [] :=
        List.filterMap_eq_nil_iff.mpr fun e member => (tidy.stmtWalk_inner d.body e member).2
      simp only [range]
      show (paramWalk d.params.start ps ++ .met .type d.ret.span :: b.stmtWalk d.body).filterMap Encounter.param? = _
      rw [List.filterMap_append, paramWalk_param, length]
      show _ ++ (b.stmtWalk d.body).filterMap Encounter.param? = _
      rw [inner, List.append_nil]
      rfl
    | struct d =>
      have range : b.paramRange? d.fields = some ps := range
      simp only [range]
      show (paramWalk d.fields.start ps).filterMap Encounter.param? = _
      rw [paramWalk_param, length]
      rfl

/-- A walk over a file that has all items in order meets every parameter once and in order. -/
theorem Tidy.walk_params (tidy : b.Tidy loose) (lined : b.Lined) {file : Nat} {f : FileNode}
    (there : b.files.get? file = some f) (all : f.items = List.range' 1 b.items.heads.size) :
    (b.walk file).filterMap Encounter.param? = List.range' 1 b.params.size := by
  rw [walk, there]
  show (f.items.flatMap b.itemWalk).filterMap Encounter.param? = _
  rw [List.filterMap_flatMap, all, ← lined.inOrder]
  exact List.flatMap_congr fun id _ => tidy.itemWalk_params lined id

/-- A walk finds every node with its content. -/
theorem Tidy.walk_whole (tidy : b.Tidy loose) (file : Nat) : .broken ∉ b.walk file := by
  intro member
  unfold walk at member
  split at member
  · cases member
  · next f there =>
    rcases List.mem_cons.mp member with own | below
    · cases own
    · obtain ⟨id, _, inside⟩ := List.mem_flatMap.mp below
      unfold itemWalk at inside
      cases found : b.items.find id with
      | missing =>
        rw [found] at inside
        cases inside
      | hollow s k => exact (tidy.sound.items.hollow found).elim
      | node s x =>
        obtain ⟨ps, range⟩ := Option.isSome_iff_exists.mp (tidy.sound.params id s _ x found)
        rw [found] at inside
        cases x with
        | fn d =>
          have range : b.paramRange? d.params = some ps := range
          simp only [range] at inside
          rcases List.mem_cons.mp inside with own | later
          · cases own
          · rcases List.mem_append.mp later with param | rest
            · exact paramWalk_whole _ _ _ param rfl
            · rcases List.mem_cons.mp rest with own | body
              · cases own
              · exact (tidy.stmtWalk_inner d.body _ body).1 rfl
        | struct d =>
          have range : b.paramRange? d.fields = some ps := range
          simp only [range] at inside
          rcases List.mem_cons.mp inside with own | param
          · cases own
          · exact paramWalk_whole _ _ _ param rfl

end Builder

/-! ## Trees -/

theorem walkExprs_eq (xs : List Expr) : walkExprs xs = xs.flatMap Expr.walk := by
  induction xs with
  | nil => rfl
  | cons x xs ih => rw [walkExprs, ih, List.flatMap_cons]

theorem walkFields_eq (fs : List FieldInit) : walkFields fs = fs.flatMap fun f => f.value.walk := by
  induction fs with
  | nil => rfl
  | cons f fs ih =>
    obtain ⟨n, s, v⟩ := f
    rw [walkFields, ih, List.flatMap_cons]
    rfl

theorem walkStmts_eq (ss : List Stmt) : walkStmts ss = ss.flatMap Stmt.walk := by
  induction ss with
  | nil => rfl
  | cons s ss ih => rw [walkStmts, ih, List.flatMap_cons]

namespace Builder

variable {b : Builder} {loose : List NodeId}

theorem bodyOf_walk (id : Nat) (s : Stmt) : (bodyOf id s).walk = s.walk := by
  cases s <;> simp only [bodyOf, Body.walk, Stmt.walk]

/-- Without the numbers, a walk over an expression is that over its tree. -/
theorem exprWalk_visits (acyclic : b.Acyclic) (id : Nat) : (b.exprWalk id).map Encounter.visit = (b.expr id).walk := by
  induction id using parts_induction _ (fun _ _ part => Pool.refs_bounds part) acyclic.exprs with
  | _ id ih =>
    rw [exprWalk_eq acyclic, expr_eq acyclic, List.map_append, List.map_flatMap, exprMeets, exprStep]
    rw [List.flatMap_congr ih]
    clear ih
    cases found : b.exprs.find id with
    | missing => rfl
    | hollow s k =>
      simp only [Expr.walk, Pool.Found.refs, List.flatMap_nil, List.append_nil, List.map_cons]
      split <;> rfl
    | node s x =>
      cases x <;> simp [Expr.walk, Pool.Found.refs, ExprData.parts, walkExprs_eq, walkFields_eq, List.flatMap_map,
        Encounter.visit, Place.kind, FieldInit.value]

/-- Without the numbers, a walk over a statement is that over its tree. -/
theorem stmtWalk_visits (acyclic : b.Acyclic) (id : Nat) : (b.stmtWalk id).map Encounter.visit = (b.stmt id).walk := by
  induction id using parts_induction _ (fun _ _ part => Pool.refs_bounds part) acyclic.stmts with
  | _ id ih =>
    rw [stmtWalk_eq acyclic, stmt_eq acyclic, List.map_append, List.map_append, List.map_flatMap, List.map_flatMap,
      stmtMeets, stmtStep]
    rw [List.flatMap_congr ih]
    simp only [exprWalk_visits acyclic]
    clear ih
    cases found : b.stmts.find id with
    | missing => rfl
    | hollow s k => cases k <;> simp [Stmt.walk, Pool.Found.refs, Encounter.visit, Place.kind, apply_ite] <;> rfl
    | node s x =>
      have noStmt : (b.stmt 0).walk = [] := rfl
      have noExpr : (b.expr 0).walk = [] := rfl
      cases x with
      | cond t y n =>
        by_cases zero : n = 0
        · subst zero
          simp [Stmt.walk, walkElse, Pool.Found.refs, StmtData.parts, StmtData.exprs, bodyOf_walk, Encounter.visit,
            Place.kind, noStmt]
        · simp [Stmt.walk, walkElse, Pool.Found.refs, StmtData.parts, StmtData.exprs, bodyOf_walk, Encounter.visit,
            Place.kind, zero]
      | ret x =>
        by_cases zero : x = 0
        · subst zero
          simp [Stmt.walk, walkOption, Pool.Found.refs, StmtData.parts, StmtData.exprs, Encounter.visit, Place.kind, noExpr]
        · simp [Stmt.walk, walkOption, Pool.Found.refs, StmtData.parts, StmtData.exprs, Encounter.visit, Place.kind, zero]
      | _ => simp [Stmt.walk, Pool.Found.refs, StmtData.parts, StmtData.exprs, walkStmts_eq, List.flatMap_map, bodyOf_walk,
          Encounter.visit, Place.kind, typeRef]

theorem paramWalk_visits (b : Builder) (start : Nat) (ps : List ParamNode) :
    (paramWalk start ps).map Encounter.visit = (ps.map b.param).flatMap Param.walk := by
  induction ps generalizing start with
  | nil => rfl
  | cons p ps ih => rw [paramWalk, List.map_cons, List.map_cons, ih, List.map_cons, List.flatMap_cons]; rfl

/-- Without the numbers, a walk over an item is that over its tree. -/
theorem Tidy.itemWalk_visits (tidy : b.Tidy loose) (lined : b.Lined) (id : Nat) :
    (b.itemWalk id).map Encounter.visit = (b.item id).walk := by
  unfold itemWalk
  cases found : b.items.find id with
  | missing =>
    rw [Builder.item, found]
    rfl
  | hollow s k => exact (tidy.sound.items.hollow found).elim
  | node s x =>
    have own := lined.spans id s _ x found
    cases x with
    | fn d =>
      obtain ⟨ps, range, read⟩ := item_fn tidy.sound found
      have own : d.span = s := own
      rw [read]
      simp only [range, Item.walk, List.map_cons, List.map_append, paramWalk_visits b, stmtWalk_visits tidy.acyclic,
        bodyOf_walk, own]
      rfl
    | struct d =>
      obtain ⟨fs, range, read⟩ := item_struct tidy.sound found
      have own : d.span = s := own
      rw [read]
      simp only [range, Item.walk, List.map_cons, paramWalk_visits b, own]
      rfl

/-- Without the numbers, a walk over a file is that over its tree. -/
theorem Tidy.walk_visits (tidy : b.Tidy loose) (lined : b.Lined) {file : Nat} {tree : File}
    (read : b.file? file = some tree) : (b.walk file).map Encounter.visit = tree.walk := by
  obtain ⟨f, there, rfl⟩ := Option.map_eq_some_iff.mp read
  rw [walk, there]
  simp only [File.walk, List.map_cons, List.map_flatMap, List.flatMap_map, tidy.itemWalk_visits lined]
  rfl

end Builder

/-! ## Visitors -/

section Conjunction

variable {m : Type → Type} [Monad m] {α β : Type}

theorem allM_cons (f : α → m Bool) (x : α) (xs : List α) : (x :: xs).allM f = (f x <&&> xs.allM f) := by
  refine bind_congr fun answer => ?_
  cases answer with
  | true => rfl
  | false => rfl

theorem allM_congr {f g : α → m Bool} {xs : List α} (same : ∀ x ∈ xs, f x = g x) : xs.allM f = xs.allM g := by
  induction xs with
  | nil => rfl
  | cons x xs ih =>
    rw [allM_cons, allM_cons, same x List.mem_cons_self, ih fun y inside => same y (List.mem_cons_of_mem x inside)]

theorem allM_map (f : β → m Bool) (g : α → β) (xs : List α) : (xs.map g).allM f = xs.allM fun x => f (g x) := by
  induction xs with
  | nil => rfl
  | cons x xs ih => rw [List.map_cons, allM_cons, ih, allM_cons]

variable [LawfulMonad m]

theorem true_andM (y : m Bool) : (pure true <&&> y) = y := pure_bind _ _

theorem andM_true (x : m Bool) : (x <&&> pure true) = x := by
  refine (bind_congr fun answer => ?_).trans (bind_pure x)
  cases answer with
  | true => rfl
  | false => rfl

theorem andM_assoc (x y z : m Bool) : ((x <&&> y) <&&> z) = (x <&&> (y <&&> z)) := by
  refine (bind_assoc x _ _).trans (bind_congr fun answer => ?_)
  cases answer with
  | true => rfl
  | false => exact pure_bind _ _

theorem allM_append (f : α → m Bool) (xs ys : List α) : (xs ++ ys).allM f = (xs.allM f <&&> ys.allM f) := by
  induction xs with
  | nil => exact (true_andM _).symm
  | cons x xs ih => rw [List.cons_append, allM_cons, ih, allM_cons, andM_assoc]

theorem allM_flatMap (f : β → m Bool) (g : α → List β) (xs : List α) :
    (xs.flatMap g).allM f = xs.allM fun x => (g x).allM f := by
  induction xs with
  | nil => rfl
  | cons x xs ih => rw [List.flatMap_cons, allM_append, ih, allM_cons]

end Conjunction

/-- What a tour does at a step of a walk. -/
def Encounter.heed (visit : Visitor) : Encounter → Tour Bool
  | met place span => Tour.emit visit place.kind span
  | broken => throw .broken

namespace Builder

variable {b : Builder} {visit : Visitor}

open Encounter (heed)

theorem exprTourStep_eq (sub : Nat → Tour Bool) (id : Nat) :
    b.exprTourStep visit sub id =
      ((b.exprMeets id).allM (heed visit) <&&> ((b.exprs.find id).refs ExprData.parts).allM sub) := by
  unfold exprTourStep exprMeets
  generalize b.exprs.find id = found
  cases found with
  | missing => exact (true_andM _).symm
  | hollow s k =>
    simp only [allM_cons, apply_ite (List.allM (heed visit)), List.allM_nil, Pool.Found.refs, andM_true]
    rfl
  | node s x =>
    cases x <;> simp only [allM_cons, allM_map, List.allM_nil, Pool.Found.refs, ExprData.parts, andM_true] <;> rfl

theorem stmtTourStep_eq (sub : Nat → Tour Bool) (id : Nat) :
    b.stmtTourStep visit sub id =
      ((b.stmtMeets id).allM (heed visit) <&&> (((b.stmts.find id).refs StmtData.exprs).allM (b.exprTour visit) <&&>
        ((b.stmts.find id).refs StmtData.parts).allM sub)) := by
  unfold stmtTourStep stmtMeets
  generalize b.stmts.find id = found
  cases found with
  | missing => rw [List.allM_nil, true_andM]; exact (true_andM _).symm
  | hollow s k =>
    simp only [allM_cons, apply_ite (List.allM (heed visit)), List.allM_nil, Pool.Found.refs, andM_true]
    rfl
  | node s x =>
    cases x <;> simp only [allM_cons, List.allM_nil, Pool.Found.refs, StmtData.parts, StmtData.exprs,
      andM_true, true_andM, andM_assoc] <;> rfl

/-- A tour of an expression is the walk over it, heeded. -/
theorem exprTour_eq (acyclic : b.Acyclic) (id : Nat) : b.exprTour visit id = (b.exprWalk id).allM (heed visit) := by
  have unfolds : ∀ id, b.exprTour visit id = b.exprTourStep visit (b.exprTour visit) id := by
    refine unfolded_eq _ (fun _ _ part => Pool.refs_bounds part) acyclic.exprs fun f g id same => ?_
    rw [exprTourStep_eq, exprTourStep_eq, allM_congr same]
  induction id using parts_induction _ (fun _ _ part => Pool.refs_bounds part) acyclic.exprs with
  | _ id ih => rw [unfolds, exprTourStep_eq, exprWalk_eq acyclic, allM_append, allM_flatMap, allM_congr ih]

/-- A tour of a statement is the walk over it, heeded. -/
theorem stmtTour_eq (acyclic : b.Acyclic) (id : Nat) : b.stmtTour visit id = (b.stmtWalk id).allM (heed visit) := by
  have unfolds : ∀ id, b.stmtTour visit id = b.stmtTourStep visit (b.stmtTour visit) id := by
    refine unfolded_eq _ (fun _ _ part => Pool.refs_bounds part) acyclic.stmts fun f g id same => ?_
    rw [stmtTourStep_eq, stmtTourStep_eq, allM_congr same]
  induction id using parts_induction _ (fun _ _ part => Pool.refs_bounds part) acyclic.stmts with
  | _ id ih =>
    rw [unfolds, stmtTourStep_eq, stmtWalk_eq acyclic, allM_append, allM_append, allM_flatMap, allM_flatMap, allM_congr ih,
      allM_congr fun c _ => exprTour_eq acyclic c, andM_assoc]

theorem paramTour_eq (start : Nat) (ps : List ParamNode) :
    paramTour visit ps = (paramWalk start ps).allM (heed visit) := by
  induction ps generalizing start with
  | nil => rfl
  | cons p ps ih =>
    have later := ih (start + 1)
    rw [paramTour] at later ⊢
    rw [allM_cons, later, paramWalk, allM_cons, allM_cons, andM_assoc]
    rfl

theorem itemTour_eq (acyclic : b.Acyclic) (id : Nat) : b.itemTour visit id = (b.itemWalk id).allM (heed visit) := by
  unfold itemTour itemWalk
  generalize b.items.find id = found
  cases found with
  | missing => rfl
  | hollow s k =>
    simp only [allM_cons, apply_ite (List.allM (heed visit)), List.allM_nil, andM_true]
    rfl
  | node s x =>
    cases x with
    | fn d =>
      cases range : b.paramRange? d.params with
      | none =>
        simp only [range, allM_cons, List.allM_nil, andM_true]
        rfl
      | some ps =>
        simp only [range, allM_cons, paramTour_eq d.params.start, stmtTour_eq acyclic, allM_append]
        rfl
    | struct d =>
      cases range : b.paramRange? d.fields with
      | none =>
        simp only [range, allM_cons, List.allM_nil, andM_true]
        rfl
      | some fs =>
        simp only [range, allM_cons, paramTour_eq d.fields.start]
        rfl

theorem tour_eq (acyclic : b.Acyclic) (file : Nat) : b.tour visit file = (b.walk file).allM (heed visit) := by
  unfold tour walk
  cases b.files.get? file with
  | none => rfl
  | some f => 
    simp only [allM_cons, allM_flatMap]
    rw [allM_congr fun id _ => itemTour_eq acyclic id]
    rfl

end Builder

/-! ## Where a visitor stops -/

namespace Encounter

/-- The calls of a walk that nobody stops: one for each node, up to a node without content. -/
def calls : List Encounter → List Sighting
  | met place span :: later => ⟨place.kind, span⟩ :: calls later
  | _ => []

theorem calls_visits : ∀ {steps : List Encounter}, .broken ∉ steps →
    (calls steps).map (fun call => Visit.node call.kind call.span) = steps.map visit
  | [], _ => rfl
  | met _ _ :: _, whole => congrArg (_ :: ·) (calls_visits fun inside => whole (List.mem_cons_of_mem _ inside))
  | broken :: _, whole => absurd List.mem_cons_self whole

end Encounter

namespace Visitor

/-- The place of the first of `calls` that is answered with no. -/
def refusal? (visit : Visitor) (calls : List Sighting) : Option Nat :=
  (List.range calls.length).find? fun i => calls[i]?.any fun call => !visit (calls.take i) call

theorem refusal?_eq_some {visit : Visitor} {calls : List Sighting} {i : Nat} :
    visit.refusal? calls = some i ↔ ∃ inside : i < calls.length, visit (calls.take i) calls[i] = false ∧
      ∀ j, (lower : j < i) → visit (calls.take j) calls[j] = true := by
  have read : ∀ j, (inside : j < calls.length) →
      (calls[j]?.any fun call => !visit (calls.take j) call) = !visit (calls.take j) calls[j] := by
    intro j inside
    rw [List.getElem?_eq_getElem inside]
    rfl
  rw [refusal?, List.find?_range_eq_some]
  constructor
  · rintro ⟨refused, within, before⟩
    have inside := List.mem_range.mp within
    rw [read i inside] at refused
    refine ⟨inside, by simpa using refused, fun j lower => ?_⟩
    have accepted := before j lower
    rw [read j (by omega)] at accepted
    simpa using accepted
  · rintro ⟨inside, refused, before⟩
    refine ⟨by rw [read i inside, refused]; rfl, List.mem_range.mpr inside, fun j lower => ?_⟩
    rw [read j (by omega), before j lower]
    rfl

/-- A visitor who has had calls before. -/
def after (visit : Visitor) (earlier : List Sighting) : Visitor := fun calls => visit (earlier ++ calls)

theorem refusal?_cons (visit : Visitor) (call : Sighting) (calls : List Sighting) :
    visit.refusal? (call :: calls) =
      if visit [] call then ((visit.after [call]).refusal? calls).map (· + 1) else some 0 := by
  unfold refusal?
  rw [List.length_cons, List.range_succ_eq_map, List.find?_cons, List.find?_map]
  cases answer : visit [] call with
  | true => simp [answer, Function.comp_def, after]
  | false => simp [answer]

theorem after_after (visit : Visitor) (earlier later : List Sighting) :
    (visit.after earlier).after later = visit.after (earlier ++ later) := by
  funext calls call
  rw [after, after, after, List.append_assoc]

end Visitor

namespace Tour

theorem emit_run (visit : Visitor) (kind : NodeKind) (span : Span) (earlier : List Sighting) :
    (emit visit kind span).run.run earlier = (.ok (visit earlier ⟨kind, span⟩), earlier ++ [⟨kind, span⟩]) := rfl

theorem andM_run (first second : Tour Bool) (earlier : List Sighting) :
    (first <&&> second).run.run earlier = match first.run.run earlier with
      | (.ok true, calls) => second.run.run calls
      | stopped => stopped := by
  rw [andM, ExceptT.run_bind, StateT.run_bind]
  obtain ⟨result, calls⟩ := first.run.run earlier
  cases result with
  | error fault => rfl
  | ok answer =>
    cases answer with
    | true => rfl
    | false => rfl

end Tour

/-- How a tour of the nodes in `steps` comes out, and the calls it makes: all of them where the visitor says yes to each,
    and those up to the first that gets a no otherwise. -/
def tourOutcome (visit : Visitor) (steps : List Encounter) : Except TourFault Bool × List Sighting :=
  let calls := Encounter.calls steps
  match visit.refusal? calls with
  | some i => (.ok false, calls.take (i + 1))
  | none => (if .broken ∈ steps then .error .broken else .ok true, calls)

theorem tourOutcome_met (visit : Visitor) (place : Place) (span : Span) (later : List Encounter) :
    tourOutcome visit (.met place span :: later) =
      if visit [] ⟨place.kind, span⟩ then
        ((tourOutcome (visit.after [⟨place.kind, span⟩]) later).1,
          ⟨place.kind, span⟩ :: (tourOutcome (visit.after [⟨place.kind, span⟩]) later).2)
      else (.ok false, [⟨place.kind, span⟩]) := by
  simp only [tourOutcome, Encounter.calls, Visitor.refusal?_cons]
  cases visit [] ⟨place.kind, span⟩ with
  | false => rfl
  | true =>
    cases refusal : (visit.after [⟨place.kind, span⟩]).refusal? (Encounter.calls later) with
    | none => simp
    | some i => simp

/-- A tour that heeds the steps of a walk comes out as it should. -/
theorem heed_run (visit : Visitor) (earlier : List Sighting) (steps : List Encounter) :
    (steps.allM (Encounter.heed visit)).run.run earlier =
      ((tourOutcome (visit.after earlier) steps).1, earlier ++ (tourOutcome (visit.after earlier) steps).2) := by
  induction steps generalizing earlier with
  | nil => 
    show (_, _) = (_, earlier ++ [])
    rw [List.append_nil]
    rfl
  | cons step later ih =>
    rw [allM_cons, Tour.andM_run]
    cases step with
    | broken => 
      show (_, _) = (_, earlier ++ [])
      rw [List.append_nil]
      rfl
    | met place span =>
      rw [tourOutcome_met, Encounter.heed, Tour.emit_run, Visitor.after_after]
      have same : visit.after earlier [] ⟨place.kind, span⟩ = visit earlier ⟨place.kind, span⟩ := by
        rw [Visitor.after, List.append_nil]
      rw [same]
      cases visit earlier ⟨place.kind, span⟩ with
      | false => rfl
      | true => simp [ih]


namespace Builder

variable {b : Builder}

/-- The calls that a visitor of a file gets who never says no. -/
def preorder (b : Builder) (file : Nat) : List Sighting := Encounter.calls (b.walk file)

/-- Nobody is called for more or for less than the nodes of the tree. -/
theorem Tidy.preorder_visits {loose : List NodeId} (tidy : b.Tidy loose) (lined : b.Lined) {file : Nat} {tree : File}
    (read : b.file? file = some tree) : (b.preorder file).map (fun call => .node call.kind call.span) = tree.walk := by
  rw [← tidy.walk_visits lined read]
  exact Encounter.calls_visits (tidy.walk_whole file)

/-- A tour of a file makes the calls of the whole walk up to the first that the visitor answers with no, and that one is
    the last. Where there is none, it makes them all, and then is done or is at a node without content. -/
theorem tour_stops (acyclic : b.Acyclic) (file : Nat) (visit : Visitor) :
    (b.tour visit file).run.run [] = match visit.refusal? (b.preorder file) with
      | some i => (.ok false, (b.preorder file).take (i + 1))
      | none => (if .broken ∈ b.walk file then .error .broken else .ok true, b.preorder file) := by
  rw [tour_eq acyclic, heed_run]
  rfl

/-- A function whose body has a branch and the block in that branch once more. -/
def forking : Builder :=
  let b : Builder := {}
  let b := (b.newExpr {} (.ident 0)).2
  let b := (b.newStmt {} (.block [])).2
  let b := (b.newStmt {} (.cond 1 1 0)).2
  let b := (b.newStmt {} (.block [2, 1])).2
  let b := (b.newFn 0 {} [] ⟨0, 0, {}⟩ 3 {}).2
  let b := (b.newFile {}).2
  (b.pushItem? 1 1).getD b

theorem tour_stops_forking :
    forking.Acyclic ∧ (forking.tour (fun _ call => call.kind ≠ .expr) 1).run.run [] =
      (.ok false, [⟨.file, {}⟩, ⟨.item, {}⟩, ⟨.type, {}⟩, ⟨.stmt, {}⟩, ⟨.stmt, {}⟩, ⟨.expr, {}⟩]) := by
  have acyclic : forking.Acyclic := by
    refine acyclic_of_earlier (fun id c part => ?_) (fun id c part => ?_)
    · have bounds := Finset.mem_Icc.mp (Pool.refs_bounds part)
      have one : forking.exprs.heads.size = 1 := rfl
      obtain rfl : id = 1 := by omega
      cases part
    · have bounds := Finset.mem_Icc.mp (Pool.refs_bounds part)
      have three : forking.stmts.heads.size = 3 := rfl
      have each : ∀ id ∈ [1, 2, 3], ∀ c ∈ (forking.stmts.find id).refs StmtData.parts, c < id := by decide
      refine each id ?_ c part
      simp only [List.mem_cons, List.not_mem_nil]
      omega
  exact ⟨acyclic, (tour_stops acyclic 1 _).trans rfl⟩

end Builder
end PineLang
