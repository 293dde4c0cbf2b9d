import PineLang.Proofs.NodeGraphs
import PineLang.Syntax.Holes

/-!
# Trees from typed constructors

Nodes made by the constructors for their kinds always have their content: a payload once put into its arena
stays there, and so do parameters. Whatever numbers are handed to the constructors, a tree that is read out
has no hollow nodes, and its only holes are numbers without a node (`Builder.file_holes`).
-/
namespace PineLang

/-! ## Arenas and pools -/

namespace Arena

variable {α : Type}

@[simp] theorem size_alloc (a : Arena α) (x : α) : (a.alloc x).2.size = a.size + 1 := Array.size_push x

theorem get?_alloc (a : Arena α) (x : α) (id : Nat) :
    (a.alloc x).2.get? id = if id = a.size + 1 then some x else a.get? id := by
  unfold get? alloc size
  by_cases zero : id = 0
  · subst zero
    simp
  · simp only [zero, if_false, Array.getElem?_push]
    by_cases new : id = a.nodes.size + 1
    · simp [new]
    · rw [if_neg (by omega), if_neg new]

/-- What was put in stays. -/
theorem get?_mono {a : Arena α} {id : Nat} {x : α} (found : a.get? id = some x) (y : α) :
    (a.alloc y).2.get? id = some x := by
  have low := Finset.mem_Icc.mp (get?_bounds found)
  rw [get?_alloc, if_neg (by omega), found]

end Arena

namespace Pool

variable {κ : Type} {Data : κ → Type} {p : Pool κ Data}

/-- Every head has its content in the arena of its kind, but for heads of kinds that need none. -/
def Whole (p : Pool κ Data) (plain : κ → Prop) : Prop :=
  ∀ id h, p.heads.get? id = some h → ((p.data h.kind).get? h.payload).isSome ∨ (h.payload = 0 ∧ plain h.kind)

theorem Whole.hollow {plain : κ → Prop} (whole : p.Whole plain) {id : Nat} {s : Span} {k : κ}
    (found : p.find id = .hollow s k) : plain k := by
  unfold find at found
  split at found
  · cases found
  · next h here =>
    rcases whole id h here with content | ⟨_, isPlain⟩
    · split at found
      · next nothing =>
        rw [nothing] at content
        cases content
      · cases found
    · split at found
      · cases found
        exact isPlain
      · cases found

theorem heads_empty (id : Nat) : ({} : Pool κ Data).heads.get? id = none := by simp [Arena.get?]

theorem find_empty (id : Nat) : ({} : Pool κ Data).find id = .missing := by
  rw [find, heads_empty]

theorem whole_empty (plain : κ → Prop) : ({} : Pool κ Data).Whole plain := by
  intro id h found
  rw [heads_empty] at found
  cases found

theorem find_bare (p : Pool κ Data) (s : Span) (k : κ) (id : Nat) :
    (p.bare s k).2.find id = if id = p.heads.size + 1 then .hollow s k else p.find id := by
  unfold find bare
  simp only [Arena.get?_alloc]
  by_cases new : id = p.heads.size + 1
  · simp [new, Arena.get?]
  · simp only [new, if_false]

theorem whole_bare {plain : κ → Prop} (whole : p.Whole plain) (s : Span) {k : κ} (isPlain : plain k) :
    (p.bare s k).2.Whole plain := by
  intro id h found
  unfold bare at found
  simp only [Arena.get?_alloc] at found
  split at found
  · cases found
    exact .inr ⟨rfl, isPlain⟩
  · exact whole id h found

variable [DecidableEq κ]

/-- Content stays where it is when another node is made. -/
theorem data_make (p : Pool κ Data) (s : Span) {k : κ} (x : Data k) {j : κ} {payload : Nat} {y : Data j}
    (found : (p.data j).get? payload = some y) : ((p.make s x).2.data j).get? payload = some y := by
  unfold make
  simp only
  by_cases same : k = j
  · subst same
    simp only [dif_pos]
    exact Arena.get?_mono found x
  · simp only [same, dif_neg, not_false_eq_true]
    exact found

theorem data_make_self (p : Pool κ Data) (s : Span) {k : κ} (x : Data k) :
    ((p.make s x).2.data k).get? ((p.data k).size + 1) = some x := by
  unfold make
  simp only [dif_pos, Arena.get?_alloc, if_true]

theorem heads_make (p : Pool κ Data) (s : Span) {k : κ} (x : Data k) (id : Nat) :
    (p.make s x).2.heads.get? id =
      if id = p.heads.size + 1 then some ⟨k, s, (p.data k).size + 1⟩ else p.heads.get? id :=
  Arena.get?_alloc ..

theorem find_make {plain : κ → Prop} (whole : p.Whole plain) (s : Span) {k : κ} (x : Data k) (id : Nat) :
    (p.make s x).2.find id = if id = p.heads.size + 1 then .node s x else p.find id := by
  unfold find
  rw [heads_make]
  by_cases new : id = p.heads.size + 1
  · simp only [new, if_true, data_make_self]
  · simp only [new, if_false]
    cases here : p.heads.get? id with
    | none => rfl
    | some h =>
      rcases whole id h here with content | ⟨zero, _⟩
      · obtain ⟨y, found⟩ := Option.isSome_iff_exists.mp content
        simp only [found, data_make p s x found]
      · simp only [zero, Arena.get?, if_true]

theorem whole_make {plain : κ → Prop} (whole : p.Whole plain) (s : Span) {k : κ} (x : Data k) :
    (p.make s x).2.Whole plain := by
  intro id h found
  rw [heads_make] at found
  split at found
  · cases found
    exact .inl (by rw [data_make_self]; rfl)
  · rcases whole id h found with content | isPlain
    · obtain ⟨y, there⟩ := Option.isSome_iff_exists.mp content
      exact .inl (by rw [data_make p s x there]; rfl)
    · exact .inr isPlain

end Pool

/-! ## Builders -/

namespace Builder

/-- A statement that is no more than a head. -/
def Plain (k : StmtKind) : Prop := k = .brk ∨ k = .empty

/-- The parameters of an item. -/
def rangeOf {k : ItemKind} : ItemData k → ParamRange
  | .fn d => d.params
  | .struct d => d.fields

/-- Nodes have what they need: their content, and items their parameters. -/
structure Sound (b : Builder) : Prop where
  exprs : b.exprs.Whole fun _ => False
  stmts : b.stmts.Whole Plain
  items : b.items.Whole fun _ => False
  params : ∀ id s k (x : ItemData k), b.items.find id = .node s x → (b.paramRange? (rangeOf x)).isSome

/-- Builders filled by the constructors for the kinds of nodes, from any interner and with any numbers. -/
inductive Built : Builder → Prop where
  | start (strings : Interner) : Built { strings }
  | intern {b : Builder} (built : Built b) (name : String) : Built (b.intern name).2
  | expr {b : Builder} (built : Built b) (s : Span) {k : ExprKind} (x : ExprData k) : Built (b.newExpr s x).2
  | stmt {b : Builder} (built : Built b) (s : Span) {k : StmtKind} (x : StmtData k) : Built (b.newStmt s x).2
  | brk {b : Builder} (built : Built b) (s : Span) : Built (b.newBreak s).2
  | empty {b : Builder} (built : Built b) (s : Span) : Built (b.newEmpty s).2
  | fn {b : Builder} (built : Built b) (name : Nat) (ns : Span) (ps : List ParamNode) (ret : TypeNode) (body : Nat)
    (s : Span) : Built (b.newFn name ns ps ret body s).2
  | struct {b : Builder} (built : Built b) (name : Nat) (ns : Span) (fs : List ParamNode) (s : Span) :
    Built (b.newStruct name ns fs s).2
  | file {b : Builder} (built : Built b) (s : Span) : Built (b.newFile s).2
  | push {b b' : Builder} (built : Built b) {file item : Nat} (pushed : b.pushItem? file item = some b') : Built b'

variable {b : Builder}

theorem size_allocParams (b : Builder) (ps : List ParamNode) :
    (b.allocParams ps).2.params.size = b.params.size + ps.length := by
  have sizes : ∀ (qs : List ParamNode) (a : Arena ParamNode),
      (qs.foldl (fun a p => (a.alloc p).2) a).size = a.size + qs.length := by
    intro qs
    induction qs with
    | nil => intro a; rfl
    | cons q qs ih =>
      intro a
      rw [List.foldl_cons, ih, Arena.size_alloc, List.length_cons]
      omega
  unfold allocParams
  split
  · next none =>
    rw [List.isEmpty_iff.mp none]
    rfl
  · exact sizes ps b.params

theorem paramRange?_isSome {r : ParamRange} :
    (b.paramRange? r).isSome ↔ r.start = 0 ∨ r.count = 0 ∨ r.start - 1 + r.count ≤ b.params.size := by
  unfold paramRange?
  split
  · next none => simpa [or_assoc] using Or.inl none
  · next some =>
    split
    · next fits => simp [fits]
    · next beyond =>
      simp only [Option.isSome_none, Bool.false_eq_true, false_iff]
      omega

/-- Parameters stay where they are when more are put in, and the new ones are there. -/
theorem allocParams_fits (b : Builder) (ps : List ParamNode) :
    ((b.allocParams ps).2.paramRange? (b.allocParams ps).1).isSome ∧
      ∀ r, (b.paramRange? r).isSome → ((b.allocParams ps).2.paramRange? r).isSome := by
  have size := size_allocParams b ps
  constructor
  · rw [paramRange?_isSome, size]
    unfold allocParams
    split
    · exact .inl rfl
    · right; right
      simp
  · intro r fits
    rw [paramRange?_isSome] at fits ⊢
    omega

theorem allocParams_rest (b : Builder) (ps : List ParamNode) :
    (b.allocParams ps).2 = { b with params := (b.allocParams ps).2.params } := by
  unfold allocParams
  split
  · rfl
  · rfl

/-- An item with its own parameters leaves everything sound. -/
theorem Sound.item (sound : b.Sound) (ps : List ParamNode) (s : Span) {k : ItemKind} (x : ItemData k)
    (range : rangeOf x = (b.allocParams ps).1) :
    Sound { (b.allocParams ps).2 with items := ((b.allocParams ps).2.items.make s x).2 } := by
  obtain ⟨own, old⟩ := allocParams_fits b ps
  rw [allocParams_rest] at own old ⊢
  refine ⟨sound.exprs, sound.stmts, Pool.whole_make sound.items s x, ?_⟩
  intro id s' k' y found
  rw [Pool.find_make sound.items] at found
  split at found
  · cases found
    rw [range]
    exact own
  · exact old _ (sound.params id s' k' y found)

theorem Built.sound (built : Built b) : b.Sound := by
  induction built with
  | start strings =>
    refine ⟨Pool.whole_empty _, Pool.whole_empty _, Pool.whole_empty _, ?_⟩
    intro id s k x found
    rw [Pool.find_empty] at found
    cases found
  | intern _ name ih => exact ⟨ih.exprs, ih.stmts, ih.items, ih.params⟩
  | expr _ s x ih => exact ⟨Pool.whole_make ih.exprs s x, ih.stmts, ih.items, ih.params⟩
  | stmt _ s x ih => exact ⟨ih.exprs, Pool.whole_make ih.stmts s x, ih.items, ih.params⟩
  | brk _ s ih => exact ⟨ih.exprs, Pool.whole_bare ih.stmts s (.inl rfl), ih.items, ih.params⟩
  | empty _ s ih => exact ⟨ih.exprs, Pool.whole_bare ih.stmts s (.inr rfl), ih.items, ih.params⟩
  | fn _ name ns ps ret body s ih => exact ih.item ps s _ rfl
  | struct _ name ns fs s ih => exact ih.item fs s _ rfl
  | file _ s ih => exact ⟨ih.exprs, ih.stmts, ih.items, ih.params⟩
  | push _ pushed ih =>
    obtain ⟨f, _, rfl⟩ := Option.map_eq_some_iff.mp pushed
    exact ⟨ih.exprs, ih.stmts, ih.items, ih.params⟩

end Builder

/-! ## Holes of lists -/

theorem mem_exprHoles {h : Hole} : ∀ {xs : List Expr}, h ∈ exprHoles xs ↔ ∃ x ∈ xs, h ∈ x.holes
  | [] => by simp [exprHoles]
  | x :: xs => by
    rw [exprHoles, List.mem_append, mem_exprHoles]
    simp only [List.mem_cons, or_and_right, exists_or, exists_eq_left]

theorem mem_fieldHoles {h : Hole} : ∀ {fs : List FieldInit}, h ∈ fieldHoles fs ↔ ∃ f ∈ fs, h ∈ f.value.holes
  | [] => by simp [fieldHoles]
  | .mk n s v :: fs => by
    rw [fieldHoles, FieldInit.holes, List.mem_append, mem_fieldHoles]
    simp only [List.mem_cons, or_and_right, exists_or, exists_eq_left, FieldInit.value]

theorem mem_stmtHoles {h : Hole} : ∀ {ss : List Stmt}, h ∈ stmtHoles ss ↔ ∃ s ∈ ss, h ∈ s.holes
  | [] => by simp [stmtHoles]
  | s :: ss => by
    rw [stmtHoles, List.mem_append, mem_stmtHoles]
    simp only [List.mem_cons, or_and_right, exists_or, exists_eq_left]

namespace Builder

theorem bodyOf_holes (id : Nat) (s : Stmt) : (bodyOf id s).holes = s.holes := by
  cases s <;> simp only [bodyOf, Body.holes, Stmt.holes]

/-! ## Holes of unfoldings -/

/-- The hole is a number without a node. -/
def Missing (b : Builder) : Hole → Prop
  | .expr id => b.exprs.kind? id = none
  | .stmt id => b.stmts.kind? id = none
  | .item id => b.items.kind? id = none
  | .hollowExpr _ | .hollowStmt _ | .hollowItem _ => False

/-- All holes are numbers without a node. -/
def OnlyMissing (b : Builder) (hs : List Hole) : Prop := ∀ h ∈ hs, b.Missing h

variable {b : Builder}

theorem onlyMissing_nil : b.OnlyMissing [] := by
  intro h member
  cases member

theorem onlyMissing_append {hs hs' : List Hole} (first : b.OnlyMissing hs) (second : b.OnlyMissing hs') :
    b.OnlyMissing (hs ++ hs') := by
  intro h member
  rcases List.mem_append.mp member with left | right
  · exact first h left
  · exact second h right

theorem kind?_of_missing {κ : Type} {Data : κ → Type} {p : Pool κ Data} {id : Nat} (found : p.find id = .missing) :
    p.kind? id = none := by
  unfold Pool.find at found
  unfold Pool.kind?
  split at found
  · next none => rw [none]; rfl
  · split at found <;> cases found

theorem expr_holes (sound : b.Sound) (acyclic : b.Acyclic) (id : Nat) : b.OnlyMissing (b.expr id).holes := by
  induction id using parts_induction _ (fun _ _ part => Pool.refs_bounds part) acyclic.exprs with
  | _ id ih =>
    rw [expr_eq acyclic]
    unfold exprStep
    cases found : b.exprs.find id with
    | missing =>
      intro h member
      rw [Expr.holes, List.mem_singleton] at member
      rw [member]
      exact kind?_of_missing found
    | hollow s k => exact (sound.exprs.hollow found).elim
    | node s x =>
      rw [found] at ih
      have ih : ∀ c ∈ x.parts, b.OnlyMissing (b.expr c).holes := ih
      cases x with
      | ident n => exact onlyMissing_nil
      | lit v => exact onlyMissing_nil
      | assign t v =>
        simp only [Expr.holes]
        exact onlyMissing_append (ih t (by simp [ExprData.parts])) (ih v (by simp [ExprData.parts]))
      | call c xs =>
        simp only [Expr.holes]
        refine onlyMissing_append (ih c (by simp [ExprData.parts])) ?_
        intro h member
        obtain ⟨_, inArgs, inside⟩ := mem_exprHoles.mp member
        obtain ⟨x, isArg, rfl⟩ := List.mem_map.mp inArgs
        exact ih x (List.mem_cons_of_mem c isArg) h inside
      | member t n fs =>
        simp only [Expr.holes]
        exact ih t (by simp [ExprData.parts])
      | unary op x =>
        simp only [Expr.holes]
        exact ih x (by simp [ExprData.parts])
      | binary op x y =>
        simp only [Expr.holes]
        exact onlyMissing_append (ih x (by simp [ExprData.parts])) (ih y (by simp [ExprData.parts]))
      | group x =>
        simp only [Expr.holes]
        exact ih x (by simp [ExprData.parts])
      | structLit n ns fs =>
        simp only [Expr.holes]
        intro h member
        obtain ⟨_, inFields, inside⟩ := mem_fieldHoles.mp member
        obtain ⟨f, isField, rfl⟩ := List.mem_map.mp inFields
        exact ih f.value (List.mem_map_of_mem isField) h inside

theorem stmt_holes (sound : b.Sound) (acyclic : b.Acyclic) (id : Nat) : b.OnlyMissing (b.stmt id).holes := by
  have exprs := expr_holes sound acyclic
  induction id using parts_induction _ (fun _ _ part => Pool.refs_bounds part) acyclic.stmts with
  | _ id ih =>
    rw [stmt_eq acyclic]
    unfold stmtStep
    cases found : b.stmts.find id with
    | missing =>
      intro h member
      rw [Stmt.holes, List.mem_singleton] at member
      rw [member]
      exact kind?_of_missing found
    | hollow s k =>
      rcases sound.stmts.hollow found with rfl | rfl
      · exact onlyMissing_nil
      · exact onlyMissing_nil
    | node s x =>
      rw [found] at ih
      have ih : ∀ c ∈ x.parts, b.OnlyMissing (b.stmt c).holes := ih
      cases x with
      | block ss =>
        simp only [Stmt.holes]
        intro h member
        obtain ⟨_, inBlock, inside⟩ := mem_stmtHoles.mp member
        obtain ⟨c, isPart, rfl⟩ := List.mem_map.mp inBlock
        exact ih c isPart h inside
      | expr x => exact exprs x
      | cond t y n =>
        simp only [Stmt.holes, bodyOf_holes]
        refine onlyMissing_append (onlyMissing_append (exprs t) (ih y (by simp [StmtData.parts]))) ?_
        split
        · exact onlyMissing_nil
        · rw [elseHoles, bodyOf_holes]
          exact ih n (by simp [StmtData.parts])
      | ret x =>
        simp only [Stmt.holes]
        split
        · exact onlyMissing_nil
        · exact exprs x
      | bind n ns t x => exact exprs x
      | loop y =>
        simp only [Stmt.holes, bodyOf_holes]
        exact ih y (by simp [StmtData.parts])

/-- A function that was made with its parameters is read with them. -/
theorem item_fn (sound : b.Sound) {id : Nat} {s : Span} {d : FnNode} (found : b.items.find id = .node s (.fn d)) :
    ∃ ps, b.paramRange? d.params = some ps ∧ b.item id =
      .fn ⟨b.name d.name, d.nameSpan, ps.map b.param, b.typeRef d.ret, bodyOf d.body (b.stmt d.body), d.span⟩ := by
  obtain ⟨ps, range⟩ := Option.isSome_iff_exists.mp (sound.params id s _ _ found)
  have range : b.paramRange? d.params = some ps := range
  refine ⟨ps, range, ?_⟩
  simp only [item, found, range]

/-- A struct that was made with its fields is read with them. -/
theorem item_struct (sound : b.Sound) {id : Nat} {s : Span} {d : StructNode}
    (found : b.items.find id = .node s (.struct d)) :
    ∃ fs, b.paramRange? d.fields = some fs ∧
      b.item id = .struct ⟨b.name d.name, d.nameSpan, fs.map b.param, d.span⟩ := by
  obtain ⟨fs, range⟩ := Option.isSome_iff_exists.mp (sound.params id s _ _ found)
  have range : b.paramRange? d.fields = some fs := range
  refine ⟨fs, range, ?_⟩
  simp only [item, found, range]

theorem item_holes (sound : b.Sound) (acyclic : b.Acyclic) (id : Nat) : b.OnlyMissing (b.item id).holes := by
  cases found : b.items.find id with
  | missing =>
    have absent : b.item id = .absent id := by simp only [item, found]
    intro h member
    rw [absent, Item.holes, List.mem_singleton] at member
    rw [member]
    exact kind?_of_missing found
  | hollow s k => exact (sound.items.hollow found).elim
  | node s x =>
    cases x with
    | fn d =>
      obtain ⟨ps, _, read⟩ := item_fn sound found
      rw [read]
      simp only [Item.holes, bodyOf_holes]
      exact stmt_holes sound acyclic d.body
    | struct d =>
      obtain ⟨fs, _, read⟩ := item_struct sound found
      rw [read]
      exact onlyMissing_nil

/-- The holes of a file that was put together by the constructors are numbers without a node. -/
theorem file_holes (sound : b.Sound) (acyclic : b.Acyclic) {id : Nat} {f : File} (read : b.file? id = some f) :
    b.OnlyMissing f.holes := by
  obtain ⟨node, _, rfl⟩ := Option.map_eq_some_iff.mp read
  intro h member
  obtain ⟨_, inFile, inside⟩ := List.mem_flatMap.mp member
  obtain ⟨i, _, rfl⟩ := List.mem_map.mp inFile
  exact item_holes sound acyclic i h inside

end Builder
end PineLang
