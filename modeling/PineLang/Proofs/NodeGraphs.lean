import Mathlib.Data.Finset.Card
import Mathlib.Data.Prod.Lex
import Mathlib.Order.Interval.Finset.Nat
import PineLang.Syntax.Arena

/-!
# Builders as graphs

The nodes of a builder refer to one another. Where no node can be reached from itself, unfolding the
references comes to an end before the bound on their depth does: what a number stands for is then made
of what the numbers in its node stand for (`Builder.expr_eq`, `Builder.stmt_eq`), so the bound never shows.
-/
namespace PineLang

/-! ## Ranks -/

open Relation (TransGen ReflTransGen)

open Classical in
/-- In a finite graph without cycles every node has a rank, at most the number of nodes that refer to others, and
    references go down. -/
theorem exists_rank {V : Type} {R : V → V → Prop} (nodes : Finset V) (inside : ∀ a b, R a b → a ∈ nodes)
    (acyclic : ∀ a, ¬ TransGen R a a) :
    ∃ rank : V → Nat, (∀ a, rank a ≤ nodes.card) ∧ ∀ a b, R a b → rank b < rank a := by
  refine ⟨fun a => (nodes.filter (ReflTransGen R a ·)).card, fun a => Finset.card_filter_le .., ?_⟩
  intro a b edge
  apply Finset.card_lt_card
  rw [Finset.ssubset_iff_of_subset]
  · refine ⟨a, Finset.mem_filter.mpr ⟨inside a b edge, .refl⟩, ?_⟩
    intro reached
    exact acyclic a (TransGen.head' edge (Finset.mem_filter.mp reached).2)
  · intro c reached
    obtain ⟨known, path⟩ := Finset.mem_filter.mp reached
    exact Finset.mem_filter.mpr ⟨known, .head edge path⟩

/-- Where references go down in some order, no node is reached from itself. -/
theorem acyclic_of_rank {V W : Type} [Preorder W] {R : V → V → Prop} (rank : V → W)
    (down : ∀ a b, R a b → rank b < rank a) (a : V) : ¬ TransGen R a a := by
  have below : ∀ {b}, TransGen R a b → rank b < rank a := by
    intro b path
    induction path with
    | single edge => exact down _ _ edge
    | tail _ edge ih => exact lt_trans (down _ _ edge) ih
  exact fun cycle => lt_irrefl _ (below cycle)

/-! ## Unfolding -/

section Unfolding

variable {α : Type} {step : (Nat → α) → Nat → α} {stop : Nat → α} {parts : Nat → List Nat}

/-- Two bounds beyond the rank make no difference. -/
theorem unfolded_rank (only : ∀ f g id, (∀ c ∈ parts id, f c = g c) → step f id = step g id) {rank : Nat → Nat}
    (down : ∀ id c, c ∈ parts id → rank c < rank id) : ∀ {n m id : Nat}, rank id < n → rank id < m →
      unfolded step stop n id = unfolded step stop m id
  | n + 1, m + 1, id, enough, enough' => by
    refine only _ _ id fun c part => ?_
    have lower := down id c part
    exact unfolded_rank only down (by omega) (by omega)

variable (size : Nat) (inside : ∀ id c, c ∈ parts id → id ∈ Finset.Icc 1 size)
  (acyclic : ∀ id, ¬ TransGen (fun m n => n ∈ parts m) id id)

include inside acyclic

/-- What a number stands for is made of what its parts stand for. -/
theorem unfolded_eq (only : ∀ f g id, (∀ c ∈ parts id, f c = g c) → step f id = step g id) (id : Nat) :
    unfolded step stop (size + 1) id = step (unfolded step stop (size + 1)) id := by
  obtain ⟨rank, bound, down⟩ := exists_rank _ inside acyclic
  rw [unfolded]
  refine only _ _ id fun c part => ?_
  have lower := down id c part
  have most := bound id
  rw [Nat.card_Icc] at most
  exact unfolded_rank only down (by omega) (by omega)

/-- What holds of a number if it holds of its parts holds of every number. -/
theorem parts_induction {P : Nat → Prop} (each : ∀ id, (∀ c ∈ parts id, P c) → P id) (id : Nat) : P id := by
  obtain ⟨rank, -, down⟩ := exists_rank _ inside acyclic
  induction h : rank id using Nat.strong_induction_on generalizing id with
  | _ n ih =>
    refine each id fun c part => ?_
    have lower := down id c part
    exact ih (rank c) (by omega) c rfl

end Unfolding

/-! ## References -/

/-- The expressions that an expression refers to. -/
@[grind =] def ExprData.parts {kind : ExprKind} : ExprData kind → List Nat
  | .ident _ => []
  | .lit _ => []
  | .assign target value => [target, value]
  | .call callee args => callee :: args
  | .member target _ _ => [target]
  | .unary _ operand => [operand]
  | .binary _ left right => [left, right]
  | .group inner => [inner]
  | .structLit _ _ fields => fields.map (·.value)

/-- The statements that a statement refers to. -/
@[grind =] def StmtData.parts {kind : StmtKind} : StmtData kind → List Nat
  | .block stmts => stmts
  | .cond _ yes no => [yes, no]
  | .loop body => [body]
  | _ => []

/-- The expressions that a statement refers to. -/
@[grind =] def StmtData.exprs {kind : StmtKind} : StmtData kind → List Nat
  | .expr x => [x]
  | .cond test _ _ => [test]
  | .ret value => [value]
  | .bind _ _ _ value => [value]
  | _ => []

/-- The body that an item refers to. -/
def ItemData.bodies {kind : ItemKind} : ItemData kind → List Nat
  | .fn d => [d.body]
  | .struct _ => []

/-- Something about the node of a number; nothing, where there is no node or no content. -/
def Pool.Found.refs {κ : Type} {Data : κ → Type} (parts : ∀ {kind : κ}, Data kind → List Nat) :
    Pool.Found κ Data → List Nat
  | .node _ x => parts x
  | _ => []

theorem Arena.get?_bounds {α : Type} {a : Arena α} {id : Nat} {x : α} (found : a.get? id = some x) :
    id ∈ Finset.Icc 1 a.size := by
  unfold get? at found
  split at found
  · cases found
  · have low := (Array.getElem?_eq_some_iff.mp found).1
    rw [Finset.mem_Icc, size]
    omega

theorem Pool.refs_bounds {κ : Type} {Data : κ → Type} {p : Pool κ Data} {id c : Nat}
    {parts : ∀ {kind : κ}, Data kind → List Nat} (part : c ∈ (p.find id).refs parts) :
    id ∈ Finset.Icc 1 p.heads.size := by
  unfold find at part
  split at part
  · cases part
  · next h found => exact Arena.get?_bounds found

/-- A node of a builder, by its number. -/
inductive NodeId where
  | file (id : Nat)
  | item (id : Nat)
  | stmt (id : Nat)
  | expr (id : Nat)
  deriving DecidableEq, Repr

namespace Builder

/-- The nodes that a node refers to, whether they are there or not. -/
def children (b : Builder) : NodeId → List NodeId
  | .file id => ((b.files.get? id).elim [] (·.items)).map .item
  | .item id => ((b.items.find id).refs ItemData.bodies).map .stmt
  | .stmt id =>
    ((b.stmts.find id).refs StmtData.parts).map .stmt ++ ((b.stmts.find id).refs StmtData.exprs).map .expr
  | .expr id => ((b.exprs.find id).refs ExprData.parts).map .expr

/-- No node can be reached from itself. -/
def Acyclic (b : Builder) : Prop := ∀ n, ¬ TransGen (fun m n => n ∈ b.children m) n n

variable {b : Builder}

theorem Acyclic.exprs (acyclic : b.Acyclic) (id : Nat) :
    ¬ TransGen (fun m n => n ∈ (b.exprs.find m).refs ExprData.parts) id id := by
  intro cycle
  refine acyclic (.expr id) (TransGen.lift NodeId.expr (fun m n part => ?_) _ _ cycle)
  exact List.mem_map_of_mem part

theorem Acyclic.stmts (acyclic : b.Acyclic) (id : Nat) :
    ¬ TransGen (fun m n => n ∈ (b.stmts.find m).refs StmtData.parts) id id := by
  intro cycle
  refine acyclic (.stmt id) (TransGen.lift NodeId.stmt (fun m n part => ?_) _ _ cycle)
  exact List.mem_append_left _ (List.mem_map_of_mem part)

/-- The place of a node where each is made after those it refers to: items come after statements and these after
    expressions, and within a sort the numbers grow. -/
def turn : NodeId → Nat ×ₗ Nat
  | .file _ => toLex (3, 0)
  | .item _ => toLex (2, 0)
  | .stmt id => toLex (1, id)
  | .expr id => toLex (0, id)

/-- Nodes that only refer to earlier ones are in no circle. -/
theorem acyclic_of_earlier (exprs : ∀ id, ∀ c ∈ (b.exprs.find id).refs ExprData.parts, c < id)
    (stmts : ∀ id, ∀ c ∈ (b.stmts.find id).refs StmtData.parts, c < id) : b.Acyclic := by
  refine acyclic_of_rank turn fun m n child => ?_
  cases m with
  | file id =>
    obtain ⟨c, _, rfl⟩ := List.mem_map.mp child
    exact Prod.Lex.toLex_lt_toLex.mpr (.inl (by decide))
  | item id =>
    obtain ⟨c, _, rfl⟩ := List.mem_map.mp child
    exact Prod.Lex.toLex_lt_toLex.mpr (.inl (by simp))
  | stmt id =>
    rcases List.mem_append.mp child with inner | inner
    · obtain ⟨c, part, rfl⟩ := List.mem_map.mp inner
      exact Prod.Lex.toLex_lt_toLex.mpr (.inr ⟨rfl, stmts id c part⟩)
    · obtain ⟨c, _, rfl⟩ := List.mem_map.mp inner
      exact Prod.Lex.toLex_lt_toLex.mpr (.inl (by simp))
  | expr id =>
    obtain ⟨c, part, rfl⟩ := List.mem_map.mp child
    exact Prod.Lex.toLex_lt_toLex.mpr (.inr ⟨rfl, exprs id c part⟩)

/-- An expression is made of those it refers to, and of no others. -/
theorem exprStep_congr (b : Builder) (f g : Nat → Expr) (id : Nat)
    (same : ∀ c ∈ (b.exprs.find id).refs ExprData.parts, f c = g c) : b.exprStep f id = b.exprStep g id := by
  unfold exprStep
  generalize b.exprs.find id = found at same
  cases found with
  | missing => rfl
  | hollow s k => rfl
  | node s x =>
    have same : ∀ c ∈ x.parts, f c = g c := same
    cases x with
    | ident n => rfl
    | lit v => rfl
    | assign t v => simp only [same t (by simp [ExprData.parts]), same v (by simp [ExprData.parts])]
    | call c xs =>
      have args : xs.map f = xs.map g := List.map_congr_left fun x inside => same x (List.mem_cons_of_mem c inside)
      simp only [same c (by simp [ExprData.parts]), args]
    | member t n fs => simp only [same t (by simp [ExprData.parts])]
    | unary op x => simp only [same x (by simp [ExprData.parts])]
    | binary op x y => simp only [same x (by simp [ExprData.parts]), same y (by simp [ExprData.parts])]
    | group x => simp only [same x (by simp [ExprData.parts])]
    | structLit n ns fs =>
      simp only [Expr.structLit.injEq, true_and]
      exact List.map_congr_left fun field inside => congrArg _ (same field.value (List.mem_map_of_mem inside))

/-- A statement is made of the statements it refers to, and of no others. -/
theorem stmtStep_congr (b : Builder) (f g : Nat → Stmt) (id : Nat)
    (same : ∀ c ∈ (b.stmts.find id).refs StmtData.parts, f c = g c) : b.stmtStep f id = b.stmtStep g id := by
  unfold stmtStep
  generalize b.stmts.find id = found at same
  cases found with
  | missing => rfl
  | hollow s k => cases k <;> rfl
  | node s x =>
    have same : ∀ c ∈ x.parts, f c = g c := same
    cases x with
    | block ss =>
      have stmts : ss.map f = ss.map g := List.map_congr_left same
      simp only [stmts]
    | expr x => rfl
    | cond t y n => simp only [same y (by simp [StmtData.parts]), same n (by simp [StmtData.parts])]
    | ret x => rfl
    | bind n ns t x => rfl
    | loop y => simp only [same y (by simp [StmtData.parts])]

theorem expr_eq (acyclic : b.Acyclic) (id : Nat) : b.expr id = b.exprStep b.expr id :=
  unfolded_eq _ (fun _ _ part => Pool.refs_bounds part) acyclic.exprs (exprStep_congr b) id

theorem stmt_eq (acyclic : b.Acyclic) (id : Nat) : b.stmt id = b.stmtStep b.stmt id :=
  unfolded_eq _ (fun _ _ part => Pool.refs_bounds part) acyclic.stmts (stmtStep_congr b) id

end Builder
end PineLang
