import Mathlib.Data.List.Induction
import Mathlib.Data.List.TakeWhile
import PineLang.Proofs.Decompositions

/-!
The composed normal form is stable. Composing what is in order gives code points that decompose into what was composed,
up to the order in which marks of different classes stand (`composeAll_order`), so decomposing and ordering them again
leads back (`canonical_composeAll`). Nor does decomposing change how many marks follow one another
(`runLength_decompose`), by which long runs of marks are parted.
-/
namespace PineLang.Text

/-! ## The order of marks -/

/-- Code points with their combining classes. -/
def classed (ns : List Nat) : List (Nat × Nat) := ns.map fun n => (n, combiningClass n)

@[simp] theorem classed_nil : classed [] = [] := rfl

@[simp] theorem classed_cons (n : Nat) (ns : List Nat) : classed (n :: ns) = (n, combiningClass n) :: classed ns := rfl

@[simp] theorem classed_append (ns ms : List Nat) : classed (ns ++ ms) = classed ns ++ classed ms := List.map_append

/-- The two are sorted to the same, whatever marks are before them. -/
def SameOrder (xs ys : List (Nat × Nat)) : Prop := ∀ run, orderMarks run xs = orderMarks run ys

theorem insertMark_comm {a b : Nat × Nat} (apart : a.2 ≠ b.2) : ∀ run,
    insertMark a (insertMark b run) = insertMark b (insertMark a run)
  | [] => by
    simp only [insertMark]
    split <;> split <;> first | rfl | omega
  | x :: run => by
    by_cases first : a.2 < x.2 <;> by_cases second : b.2 < x.2 <;> by_cases order : a.2 < b.2 <;>
      by_cases order' : b.2 < a.2 <;>
      first
      | omega
      | simp [insertMark, first, second, order, order', insertMark_comm apart run]

namespace SameOrder

variable {xs ys zs : List (Nat × Nat)} {a : Nat × Nat}

theorem trans (first : SameOrder xs ys) (second : SameOrder ys zs) : SameOrder xs zs :=
  fun run => (first run).trans (second run)

theorem append_left (same : SameOrder xs ys) : ∀ ws, SameOrder (ws ++ xs) (ws ++ ys)
  | [] => same
  | w :: ws => fun run => by
    rw [List.cons_append, List.cons_append, orderMarks, orderMarks]
    split
    · rw [same.append_left ws]
    · exact same.append_left ws _

/-- A mark moves behind marks of other classes. -/
theorem move (combines : a.2 ≠ 0) : ∀ {bs : List (Nat × Nat)}, (∀ b ∈ bs, b.2 ≠ 0 ∧ a.2 ≠ b.2) →
    SameOrder (a :: (bs ++ xs)) (bs ++ a :: xs)
  | [], _ => fun _ => rfl
  | b :: bs, apart => by
    rw [List.forall_mem_cons] at apart
    obtain ⟨⟨mark, other⟩, later⟩ := apart
    have swap : SameOrder (a :: b :: (bs ++ xs)) (b :: a :: (bs ++ xs)) := by
      intro run
      simp only [orderMarks, beq_false_of_ne combines, beq_false_of_ne mark, Bool.false_eq_true, if_false]
      rw [insertMark_comm other]
    exact swap.trans ((move combines later).append_left [b])

end SameOrder

/-- The marks behind a mark of class `k` are in order. -/
def InOrder (k : Nat) : List (Nat × Nat) → Prop
  | [] => True
  | x :: xs => (x.2 = 0 ∨ k ≤ x.2) ∧ InOrder x.2 xs

theorem InOrder.mono {j k : Nat} {xs : List (Nat × Nat)} (sorted : InOrder k xs) (least : j ≤ k) : InOrder j xs := by
  cases xs with
  | nil => trivial
  | cons x xs => exact ⟨sorted.1.imp_right least.trans, sorted.2⟩

theorem insertMark_inOrder {x : Nat × Nat} : ∀ {run : List (Nat × Nat)} {k : Nat}, k ≤ x.2 → InOrder k run →
    InOrder k (insertMark x run)
  | [], _, least, _ => ⟨.inr least, trivial⟩
  | y :: run, k, least, sorted => by
    unfold insertMark
    split
    · next before => exact ⟨.inr least, .inr (Nat.le_of_lt before), sorted.2⟩
    · next behind => exact ⟨sorted.1, insertMark_inOrder (Nat.le_of_not_lt behind) sorted.2⟩

theorem InOrder.append {y : Nat × Nat} {ys : List (Nat × Nat)} (starter : y.2 = 0) (later : InOrder 0 ys) :
    ∀ {k : Nat} {xs : List (Nat × Nat)}, InOrder k xs → InOrder k (xs ++ y :: ys)
  | _, [], _ => ⟨.inl starter, starter.symm ▸ later⟩
  | _, _ :: _, sorted => ⟨sorted.1, append starter later sorted.2⟩

/-- Sorting puts the marks in order. -/
theorem orderMarks_inOrder : ∀ {xs run : List (Nat × Nat)}, InOrder 0 run → InOrder 0 (orderMarks run xs)
  | [], _, sorted => sorted
  | x :: xs, run, sorted => by
    unfold orderMarks
    split
    · next starter => exact .append (eq_of_beq starter) (@orderMarks_inOrder xs [] trivial) sorted
    · exact orderMarks_inOrder (insertMark_inOrder (Nat.zero_le _) sorted)

theorem insertMark_last {x : Nat × Nat} : ∀ {run : List (Nat × Nat)}, (∀ y ∈ run, y.2 ≤ x.2) → insertMark x run = run ++ [x]
  | [], _ => rfl
  | y :: run, most => by
    rw [List.forall_mem_cons] at most
    rw [insertMark, if_neg (Nat.not_lt.mpr most.1), insertMark_last most.2, List.cons_append]

/-- What is in order stays as it is. -/
theorem orderMarks_of_inOrder : ∀ {xs run : List (Nat × Nat)} {k : Nat}, InOrder k xs → (∀ y ∈ run, y.2 ≤ k) →
    orderMarks run xs = run ++ xs
  | [], run, _, _, _ => by rw [orderMarks, List.append_nil]
  | x :: xs, run, k, sorted, most => by
    unfold orderMarks
    split
    · rw [orderMarks_of_inOrder sorted.2 (List.forall_mem_nil _), List.nil_append]
    · next combines =>
      have least : k ≤ x.2 := sorted.1.resolve_left fun starter => combines (beq_iff_eq.mpr starter)
      have behind : ∀ y ∈ run, y.2 ≤ x.2 := fun y member => Nat.le_trans (most y member) least
      rw [insertMark_last behind, orderMarks_of_inOrder sorted.2 ?_, List.append_assoc, List.singleton_append]
      exact List.forall_mem_append.mpr ⟨behind, List.forall_mem_singleton.mpr (Nat.le_refl _)⟩

/-! ## Composition -/

section
variable {starter n k m : Nat} {left : List Nat} {last : Option Nat} {rest : List (Nat × Nat)}

/-- A starter that does not compose with the one before it is the next to be composed into. -/
theorem composeFrom_starter (starts : k = 0) (apart : compose? starter n = none) :
    composeFrom starter left last ((n, k) :: rest) = starter :: left.reverse ++ composeFrom n [] none rest := by
  conv_lhs => unfold composeFrom
  simp only
  split
  · next composite composed => cases apart.symm.trans (Option.ite_none_left_eq_some.mp composed).2
  · rw [starts, beq_self_eq_true, if_pos rfl]

theorem composeFrom_joins (composed : compose? starter n = some m) :
    composeFrom starter left none ((n, k) :: rest) = composeFrom m left none rest := by
  conv_lhs => unfold composeFrom
  simp only [composed, Bool.false_eq_true, if_false]
end

/-- The code point has no mapping. -/
def IsFull (n : Nat) : Prop := mapping? n = none

theorem flatMap_full : ∀ {ns : List Nat}, (∀ n ∈ ns, IsFull n) → ns.flatMap decompose = ns
  | [], _ => rfl
  | n :: ns, full => by
    rw [List.forall_mem_cons] at full
    rw [List.flatMap_cons, decompose_whole full.1, flatMap_full full.2, List.singleton_append]

/-- What is composed decomposes into what was there, up to the order of the marks. The marks that stayed behind the starter
    have classes, the last of which is the greatest. -/
theorem composeFrom_order : ∀ {rest : List Nat} {starter : Nat} {left : List Nat} {k : Option Nat},
    (∀ n ∈ rest, IsFull n) → (∀ n ∈ left, IsFull n ∧ combiningClass n ≠ 0 ∧ ∃ last ∈ k, combiningClass n ≤ last) →
      InOrder (k.getD 0) (classed rest) →
        SameOrder (classed ((composeFrom starter left k (classed rest)).flatMap decompose))
          (classed (decompose starter ++ (left.reverse ++ rest)))
  | [], starter, left, k, _, behind, _ => by
    have full : ∀ n ∈ left.reverse, IsFull n := fun n member => (behind n (List.mem_reverse.mp member)).1
    rw [classed_nil, composeFrom, List.flatMap_cons, flatMap_full full, List.append_nil]
    exact fun _ => rfl
  | n :: rest, starter, left, k, full, behind, sorted => by
    rw [List.forall_mem_cons] at full
    have unmoved : ∀ n ∈ left.reverse, IsFull n := fun n member => (behind n (List.mem_reverse.mp member)).1
    have later : InOrder (combiningClass n) (classed rest) := sorted.2
    unfold composeFrom
    simp only [classed_cons]
    split
    · next composite composed =>
      obtain ⟨passes, composed⟩ := Option.ite_none_left_eq_some.mp composed
      have above : ∀ last ∈ k, last < combiningClass n := by
        rintro last rfl
        exact Nat.lt_of_not_le (by simpa using passes)
      have order : InOrder (k.getD 0) (classed rest) := by
        cases k with
        | none => exact later.mono (Nat.zero_le _)
        | some last => exact later.mono (Nat.le_of_lt (above last rfl))
      have rest' := @composeFrom_order rest composite left k full.2 behind order
      rw [decompose_composite composed, decompose_whole full.1, List.append_assoc, List.singleton_append, classed_append,
        classed_cons, classed_append] at rest'
      rw [classed_append, classed_append, classed_cons]
      refine rest'.trans (SameOrder.append_left ?_ _)
      -- The second of the pair moves back over the marks that stayed behind, whose classes are lower.
      cases left with
      | nil => exact fun _ => rfl
      | cons m left =>
        obtain ⟨-, -, last, isLast, -⟩ := behind m (List.mem_cons_self ..)
        have higher := above last isLast
        refine .move (Nat.ne_of_gt (Nat.zero_lt_of_lt higher)) fun b member => ?_
        obtain ⟨x, inside, rfl⟩ := List.mem_map.mp member
        obtain ⟨-, mark, last', isLast', least⟩ := behind x (List.mem_reverse.mp inside)
        exact ⟨mark, Nat.ne_of_gt (Nat.lt_of_le_of_lt least (above last' isLast'))⟩
    · split
      · next starts =>
        have none : combiningClass n = 0 := eq_of_beq starts
        have others := @composeFrom_order rest n [] Option.none full.2 (List.forall_mem_nil _) (none ▸ later)
        rw [decompose_whole full.1, List.reverse_nil, List.nil_append, List.singleton_append, classed_cons] at others
        rw [List.cons_append, List.flatMap_cons, List.flatMap_append, flatMap_full unmoved, classed_append, classed_append,
          classed_append, classed_append, classed_cons]
        exact (others.append_left _).append_left _
      · next combines =>
        have marks : ∀ m ∈ n :: left, IsFull m ∧ combiningClass m ≠ 0 ∧ ∃ last ∈ some (combiningClass n), combiningClass m ≤ last := by
          refine List.forall_mem_cons.mpr ⟨⟨full.1, fun none => combines (beq_iff_eq.mpr none), _, rfl, Nat.le_refl _⟩, fun m member => ?_⟩
          obtain ⟨isFull, mark, last, isLast, least⟩ := behind m member
          have above : k.getD 0 ≤ combiningClass n := sorted.1.resolve_left fun none => combines (beq_iff_eq.mpr none)
          rw [isLast, Option.getD_some] at above
          exact ⟨isFull, mark, _, rfl, Nat.le_trans least above⟩
        have others := @composeFrom_order rest starter (n :: left) (some (combiningClass n)) full.2 marks later
        rwa [List.reverse_cons, List.append_assoc, List.singleton_append] at others

theorem composeAll_order : ∀ {ns : List Nat}, (∀ n ∈ ns, IsFull n) → InOrder 0 (classed ns) →
    SameOrder (classed ((composeAll (classed ns)).flatMap decompose)) (classed ns)
  | [], _, _ => fun _ => rfl
  | n :: ns, full, sorted => by
    rw [List.forall_mem_cons] at full
    have later : InOrder (combiningClass n) (classed ns) := sorted.2
    have one : decompose n = [n] := decompose_whole full.1
    unfold composeAll
    simp only [classed_cons]
    split
    · have whole := @composeFrom_order ns n [] none full.2 (List.forall_mem_nil _) (later.mono (Nat.zero_le _))
      rwa [one, List.reverse_nil, List.nil_append, List.singleton_append, classed_cons] at whole
    · rw [List.flatMap_cons, one, List.singleton_append, classed_cons]
      exact (composeAll_order full.2 (later.mono (Nat.zero_le _))).append_left [_]

/-- The code points in full decomposition and in order. -/
def canonical (ns : List Nat) : List Nat := (orderMarks [] (classed (ns.flatMap decompose))).map Prod.fst

theorem classed_canonical (ns : List Nat) : classed (canonical ns) = orderMarks [] (classed (ns.flatMap decompose)) := by
  have same : ∀ p ∈ orderMarks [] (classed (ns.flatMap decompose)), (p.1, combiningClass p.1) = p := by
    intro p member
    obtain none | given := mem_orderMarks.mp member
    · cases none
    · obtain ⟨n, -, rfl⟩ := List.mem_map.mp given
      rfl
  rw [canonical, classed, List.map_map]
  exact (List.map_congr_left same).trans (List.map_id _)

theorem mem_canonical {n : Nat} {ns : List Nat} : n ∈ canonical ns ↔ ∃ m ∈ ns, n ∈ decompose m := by
  rw [canonical, List.mem_map, ← List.mem_flatMap]
  constructor
  · rintro ⟨p, member, rfl⟩
    obtain none | given := mem_orderMarks.mp member
    · cases none
    · obtain ⟨n, inside, rfl⟩ := List.mem_map.mp given
      exact inside
  · exact fun inside => ⟨(n, combiningClass n), mem_orderMarks.mpr (.inr (List.mem_map_of_mem inside)), rfl⟩

theorem canonical_full {ns : List Nat} : ∀ n ∈ canonical ns, IsFull n := by
  intro n member
  obtain ⟨m, -, inside⟩ := mem_canonical.mp member
  exact decompose_full m n inside

/-- Composing and decomposing again leads back to what was in order. -/
theorem canonical_composeAll (ns : List Nat) : canonical (composeAll (classed (canonical ns))) = canonical ns := by
  have sorted : InOrder 0 (classed (canonical ns)) := by
    rw [classed_canonical]
    exact orderMarks_inOrder trivial
  rw [canonical, composeAll_order canonical_full sorted [], orderMarks_of_inOrder sorted (List.forall_mem_nil _),
    List.nil_append, classed, List.map_map]
  exact List.map_id _

theorem normalCodes_eq (ns : List Nat) : normalCodes ns = composeAll (classed (canonical (partRuns 0 ns))) := by
  rw [classed_canonical]
  rfl

/-! ## Runs of marks -/

/-- The length of a run of attaching characters behind one more code point, unless it is too long. -/
def runStep (attached n : Nat) : Option Nat :=
  let (leading, trailing) := attachedEnds n
  if leading == 0 then some trailing
  else if attached + leading > maxAttached then none else some (attached + leading)

/-- The length of the run at the end of a text, unless a run in it is too long. -/
def runLength (attached : Nat) (ns : List Nat) : Option Nat := ns.foldlM runStep attached

section Runs

variable {ns ms : List Nat} {n k : Nat}

theorem runLength_cons (n : Nat) (ns : List Nat) (k : Nat) : runLength k (n :: ns) = (runStep k n).bind fun j => runLength j ns :=
  List.foldlM_cons ..

theorem runLength_append (ns ms : List Nat) (k : Nat) : runLength k (ns ++ ms) = (runLength k ns).bind fun j => runLength j ms :=
  List.foldlM_append ..

theorem runLength_single (n k : Nat) : runLength k [n] = runStep k n := by
  rw [runLength_cons]
  exact Option.bind_fun_some _

theorem runStep_plain (plain : (attachedEnds n).1 = 0) (k : Nat) : runStep k n = some (attachedEnds n).2 := by
  simp only [runStep, plain, beq_self_eq_true, if_true]

theorem runStep_marks (marks : (attachedEnds n).1 ≠ 0) (k : Nat) :
    runStep k n = if k + (attachedEnds n).1 > maxAttached then none else some (k + (attachedEnds n).1) := by
  simp only [runStep, beq_false_of_ne marks, Bool.false_eq_true, if_false]

/-- A text without a long run is not parted. -/
theorem partRuns_of_short : ∀ {ns : List Nat} {k : Nat}, (runLength k ns).isSome = true → partRuns k ns = ns
  | [], _, _ => rfl
  | n :: ns, k, short => by
    rw [runLength_cons] at short
    unfold partRuns
    by_cases plain : (attachedEnds n).1 = 0
    · rw [runStep_plain plain, Option.bind_some] at short
      simp only [plain, beq_self_eq_true, if_true, partRuns_of_short short]
    · rw [runStep_marks plain] at short
      split at short
      · cases short
      · next within =>
        rw [Option.bind_some] at short
        simp only [beq_false_of_ne plain, Bool.false_eq_true, if_false, within, partRuns_of_short short]

/-- A parted text has no long run. -/
theorem partRuns_short (joiner : attachedEnds graphemeJoiner = (0, 0)) : ∀ {ns : List Nat} {k : Nat},
    (∀ n ∈ ns, (attachedEnds n).1 ≤ maxAttached) → (runLength k (partRuns k ns)).isSome = true
  | [], _, _ => rfl
  | n :: ns, k, least => by
    rw [List.forall_mem_cons] at least
    unfold partRuns
    by_cases plain : (attachedEnds n).1 = 0
    · simp only [plain, beq_self_eq_true, if_true]
      rw [runLength_cons, runStep_plain plain, Option.bind_some]
      exact partRuns_short joiner least.2
    · simp only [beq_false_of_ne plain, Bool.false_eq_true, if_false]
      split
      · have start : runStep k graphemeJoiner = some 0 := by rw [runStep_plain (by rw [joiner]), joiner]
        rw [runLength_cons, start, Option.bind_some, runLength_cons, runStep_marks plain, Nat.zero_add,
          if_neg (Nat.not_lt.mpr least.1), Option.bind_some]
        exact partRuns_short joiner least.2
      · next within =>
        rw [runLength_cons, runStep_marks plain, if_neg within, Option.bind_some]
        exact partRuns_short joiner least.2

/-- The code point is read as a run of marks reads it: by itself it is one mark, or none. -/
def IsSingle (n : Nat) : Prop := attachedEnds n = if attaches n then (1, 1) else (0, 0)

/-- Marks can be exchanged, as long as there are as many. -/
theorem runLength_marks : ∀ {ns ms : List Nat} {k : Nat}, (∀ n ∈ ns, attachedEnds n = (1, 1)) → (∀ n ∈ ms, attachedEnds n = (1, 1)) →
    ns.length = ms.length → runLength k ns = runLength k ms
  | [], [], _, _, _, _ => rfl
  | n :: ns, m :: ms, k, first, second, same => by
    rw [List.forall_mem_cons] at first second
    rw [runLength_cons, runLength_cons, runStep_marks (by simp [first.1]), runStep_marks (by simp [second.1]), first.1, second.1]
    exact congrArg _ (funext fun j => runLength_marks first.2 second.2 (Nat.succ.inj same))

theorem length_insertMark (x : Nat × Nat) : ∀ run : List (Nat × Nat), (insertMark x run).length = run.length + 1
  | [] => rfl
  | y :: run => by
    unfold insertMark
    split
    · rfl
    · rw [List.length_cons, length_insertMark x run, List.length_cons]

/-- Sorting keeps the lengths of runs. -/
theorem runLength_orderMarks : ∀ {xs run : List (Nat × Nat)} {k : Nat}, (∀ p ∈ run, attachedEnds p.1 = (1, 1)) →
    (∀ p ∈ xs, p.2 ≠ 0 → attachedEnds p.1 = (1, 1)) →
      runLength k ((orderMarks run xs).map Prod.fst) = runLength k ((run ++ xs).map Prod.fst)
  | [], run, _, _, _ => by rw [orderMarks, List.append_nil]
  | x :: xs, run, k, marks, later => by
    rw [List.forall_mem_cons] at later
    unfold orderMarks
    split
    · simp only [List.map_append, List.map_cons, runLength_append, runLength_cons]
      refine congrArg _ (funext fun j => congrArg _ (funext fun i => ?_))
      exact runLength_orderMarks (List.forall_mem_nil _) later.2
    · next combines =>
      have mark : attachedEnds x.1 = (1, 1) := later.1 fun none => combines (beq_iff_eq.mpr none)
      have inserted : ∀ p ∈ insertMark x run, attachedEnds p.1 = (1, 1) := by
        intro p member
        obtain rfl | old := mem_insertMark.mp member
        · exact mark
        · exact marks p old
      have behind : ∀ p ∈ run ++ [x], attachedEnds p.1 = (1, 1) :=
        List.forall_mem_append.mpr ⟨marks, List.forall_mem_singleton.mpr mark⟩
      have exchanged : runLength k ((insertMark x run).map Prod.fst) = runLength k ((run ++ [x]).map Prod.fst) := by
        refine runLength_marks (List.forall_mem_map.mpr inserted) (List.forall_mem_map.mpr behind) ?_
        rw [List.length_map, List.length_map, length_insertMark, List.length_append, List.length_singleton]
      rw [runLength_orderMarks inserted later.2, List.map_append, runLength_append, exchanged, ← runLength_append, ← List.map_append,
        List.append_assoc, List.singleton_append]

/-- A run of marks is as long as there are marks. -/
theorem runLength_attaching : ∀ {ns : List Nat} {k : Nat}, (∀ n ∈ ns, attachedEnds n = (1, 1)) → ns ≠ [] →
    runLength k ns = if k + ns.length > maxAttached then none else some (k + ns.length)
  | [n], k, marks, _ => by
    have mark := marks n (List.mem_cons_self ..)
    rw [runLength_single, runStep_marks (by simp [mark]), mark]
    rfl
  | n :: m :: ns, k, marks, _ => by
    rw [List.forall_mem_cons] at marks
    have others := @runLength_attaching (m :: ns) (k + 1) marks.2 (List.cons_ne_nil _ _)
    have length : k + (n :: m :: ns).length = k + 1 + (m :: ns).length := by
      rw [List.length_cons]
      omega
    rw [runLength_cons, runStep_marks (by simp [marks.1]), marks.1, length]
    split
    · next beyond =>
      rw [if_pos (by omega)]
      rfl
    · exact others

/-- How many attaching code points a text ends with. -/
def trailing (k : Nat) (ns : List Nat) : Nat := ns.foldl (fun j n => if attaches n then j + 1 else 0) k

theorem trailing_eq (ns : List Nat) : (ns.reverse.takeWhile attaches).length = trailing 0 ns := by
  induction ns using List.reverseRecOn with
  | nil => rfl
  | append_singleton ns n ih =>
    rw [List.reverse_append, List.reverse_singleton, List.singleton_append, List.takeWhile_cons, trailing, List.foldl_append,
      List.foldl_cons, List.foldl_nil]
    split
    · rw [List.length_cons, ih, trailing]
    · rfl

theorem runLength_short : ∀ {ns : List Nat} {k : Nat}, (∀ n ∈ ns, IsSingle n) → k + ns.length ≤ maxAttached →
    runLength k ns = some (trailing k ns)
  | [], _, _, _ => rfl
  | n :: ns, k, single, short => by
    rw [List.forall_mem_cons] at single
    rw [List.length_cons] at short
    have ends : attachedEnds n = if attaches n then (1, 1) else (0, 0) := single.1
    have first : runStep k n = some (if attaches n then k + 1 else 0) := by
      cases mark : attaches n with
      | false =>
        rw [mark] at ends
        rw [runStep_plain (by rw [ends]; rfl), ends]
        rfl
      | true =>
        rw [mark, if_pos rfl] at ends
        rw [runStep_marks (by simp [ends]), ends, if_neg (by dsimp only; omega)]
        rfl
    have room : (if attaches n then k + 1 else 0) + ns.length ≤ maxAttached := by
      split <;> omega
    rw [runLength_cons, first, Option.bind_some, runLength_short single.2 room]
    rfl

/-- Decomposing keeps the lengths of runs, if a decomposition that begins with a mark is all marks. -/
theorem runLength_decompose (single : ∀ p ∈ decompose n, IsSingle p)
    (ends : attachedEnds n = (((decompose n).takeWhile attaches).length, ((decompose n).reverse.takeWhile attaches).length))
    (shape : (∀ p ∈ decompose n, attaches p = true) ∨ ∃ p ∈ (decompose n).head?, attaches p = false) :
    runLength k (decompose n) = runStep k n := by
  have short := decompose_length n
  have nonempty := decompose_ne_nil n
  generalize decompose n = ps at single ends shape short nonempty
  obtain all | ⟨p, first, plain⟩ := shape
  · have marks : ∀ p ∈ ps, attachedEnds p = (1, 1) := by
      intro p member
      have known := single p member
      rwa [IsSingle, if_pos (all p member)] at known
    have leading : (attachedEnds n).1 = ps.length := by rw [ends, List.takeWhile_eq_self_iff.mpr all]
    have some : (attachedEnds n).1 ≠ 0 := by
      rw [leading]
      exact fun none => nonempty (List.length_eq_zero_iff.mp none)
    rw [runLength_attaching marks nonempty, runStep_marks some, leading]
  · obtain ⟨ps, rfl⟩ := List.head?_eq_some_iff.mp first
    rw [List.forall_mem_cons] at single
    rw [List.length_cons] at short
    rw [trailing_eq, List.takeWhile_cons_of_neg (Bool.eq_false_iff.mp plain), trailing, List.foldl_cons, plain] at ends
    have first : attachedEnds p = (0, 0) := by
      have known := single.1
      rwa [IsSingle, plain] at known
    have start : runStep k p = some 0 := by rw [runStep_plain (by rw [first]), first]
    rw [runLength_cons, start, Option.bind_some, runLength_short single.2 (by rw [maxAttached]; omega), runStep_plain (by rw [ends]; rfl),
      ends]
    rfl

end Runs

end PineLang.Text
