import Mathlib.Data.List.Sort
import Mathlib.Data.Prod.Lex
import PineLang.Diag.Bag

/-!
# Bags in canonical form

Sorting a bag and then freeing it of repeats leaves one diagnostic for every code and span: of those that share both, the
earliest among the most severe (`sort_dedup_canonical`). Sorting keeps the order of what it does not tell apart, so the first
of a group in the sorted list is also the first of its rank in the list before. What is left therefore depends on the order
of the reports only among repeats of one severity.
-/
namespace PineLang

/-! ## The order of the source -/

namespace Diagnostic

/-- Where a diagnostic stands in the order of the source: by file, start, end, severity from high to low, and code. -/
def rank (d : Diagnostic) : Nat ×ₗ Nat ×ₗ Nat ×ₗ Natᵒᵈ ×ₗ Nat :=
  toLex (d.span.file, toLex (d.span.start, toLex (d.span.stop,
    toLex (OrderDual.toDual d.severity.level, d.code.number))))

/-- What repeats have in common. -/
def subject (d : Diagnostic) : Code × Span := (d.code, d.span)

variable {d e : Diagnostic}

theorem rank_le_iff : d.rank ≤ e.rank ↔
    d.span.file < e.span.file ∨ d.span.file = e.span.file ∧
      (d.span.start < e.span.start ∨ d.span.start = e.span.start ∧
        (d.span.stop < e.span.stop ∨ d.span.stop = e.span.stop ∧
          (e.severity.level < d.severity.level ∨ d.severity.level = e.severity.level ∧
            d.code.number ≤ e.code.number))) := by
  simp only [rank, Prod.Lex.toLex_le_toLex, OrderDual.toDual_lt_toDual, OrderDual.toDual_inj]

/-- The rank tells apart whatever differs in more than its message and its notes. -/
theorem rank_eq_iff : d.rank = e.rank ↔ d.subject = e.subject ∧ d.severity = e.severity := by
  obtain ⟨⟨level⟩, ⟨code⟩, message, ⟨file, start, stop⟩, notes⟩ := d
  obtain ⟨⟨level'⟩, ⟨code'⟩, message', ⟨file', start', stop'⟩, notes'⟩ := e
  simp only [rank, subject, toLex_inj, Prod.mk.injEq, OrderDual.toDual_inj, Code.mk.injEq, Span.mk.injEq, Severity.mk.injEq]
  tauto

/-- Of two diagnostics with one subject, the one that comes first is at least as severe. -/
theorem severity_of_rank_le (before : d.rank ≤ e.rank) (same : d.subject = e.subject) :
    e.severity.level ≤ d.severity.level := by
  have spans : d.span = e.span := congrArg Prod.snd same
  rw [rank_le_iff, spans] at before
  omega

end Diagnostic

namespace Bag

variable {b : Bag} {d e : Diagnostic}

theorem before_iff : before d e = true ↔ d.rank ≤ e.rank := by
  rw [Diagnostic.rank_le_iff]
  unfold before
  by_cases file : d.span.file = e.span.file
  · by_cases start : d.span.start = e.span.start
    · by_cases stop : d.span.stop = e.span.stop
      · by_cases level : d.severity.level = e.severity.level
        · simp [file, start, stop, level]
        · simp [file, start, stop, level]
      · simp [file, start, stop]
    · simp [file, start]
  · simp [file]

/-! ## Sorting -/

theorem before_trans (d e f : Diagnostic) (first : before d e = true) (second : before e f = true) :
    before d f = true :=
  before_iff.2 (le_trans (before_iff.1 first) (before_iff.1 second))

theorem before_total (d e : Diagnostic) : (before d e || before e d) = true := by
  rw [Bool.or_eq_true, before_iff, before_iff]
  exact le_total d.rank e.rank

theorem sort_perm (b : Bag) : b.sort.items.Perm b.items := List.mergeSort_perm b.items before

theorem sort_pairwise (b : Bag) : b.sort.items.Pairwise (·.rank ≤ ·.rank) :=
  (List.pairwise_mergeSort before_trans before_total b.items).imp before_iff.1

/-- Sorting keeps the order of what has one rank. -/
theorem sort_filter_rank (b : Bag) (d : Diagnostic) :
    b.sort.items.filter (·.rank = d.rank) = b.items.filter (·.rank = d.rank) := by
  have alike : (b.items.filter (·.rank = d.rank)).Pairwise fun e f => before e f = true := by
    refine List.pairwise_of_forall_mem_list fun e inE f inF => before_iff.2 (le_of_eq ?_)
    have ofE := (List.mem_filter.mp inE).2
    have ofF := (List.mem_filter.mp inF).2
    exact (of_decide_eq_true ofE).trans (of_decide_eq_true ofF).symm
  have kept := (List.sublist_mergeSort before_trans before_total alike List.filter_sublist).filter (·.rank = d.rank)
  simp only [List.filter_filter, Bool.and_self] at kept
  exact (kept.eq_of_length ((sort_perm b).filter _).length_eq.symm).symm

/-- The first of a rank is the same before and after sorting. -/
theorem sort_find?_rank (b : Bag) (d : Diagnostic) :
    b.sort.items.find? (·.rank = d.rank) = b.items.find? (·.rank = d.rank) := by
  rw [← List.head?_filter, ← List.head?_filter, sort_filter_rank]

/-! ## Freeing of repeats -/

variable {seen : List (Code × Span)} {ds : List Diagnostic}

theorem dedupFrom_sublist : ∀ (seen : List (Code × Span)) (ds : List Diagnostic), (dedupFrom seen ds).Sublist ds
  | _, [] => .slnil
  | seen, d :: ds => by
    rw [dedupFrom]
    split
    · exact (dedupFrom_sublist seen ds).cons d
    · exact (dedupFrom_sublist _ ds).cons_cons d

/-- A diagnostic is kept if it is the first of its subject. -/
theorem mem_dedupFrom : d ∈ dedupFrom seen ds ↔
    d.subject ∉ seen ∧ ds.find? (·.subject = d.subject) = some d := by
  induction ds generalizing seen with
  | nil => simp [dedupFrom]
  | cons e ds ih =>
    have known : seen.contains (e.code, e.span) = true ↔ e.subject ∈ seen := List.contains_iff_mem
    rw [dedupFrom]
    by_cases same : e.subject = d.subject
    · rw [List.find?_cons_of_pos (by simpa using same), Option.some.injEq]
      split
      · next old =>
        rw [known, same] at old
        simp [ih, old]
      · next new =>
        rw [known, same] at new
        have more : d ∉ dedupFrom ((e.code, e.span) :: seen) ds := by
          rw [ih]
          intro inside
          exact inside.1 (List.mem_cons.mpr (.inl same.symm))
        simp [more, new, eq_comm]
    · have other : d ≠ e := fun alike => same (congrArg Diagnostic.subject alike.symm)
      rw [List.find?_cons_of_neg (by simpa using same)]
      split
      · exact ih
      · have apart : d.subject ≠ (e.code, e.span) := fun alike => same alike.symm
        simp [ih, other, apart]

theorem dedupFrom_subjects : ((dedupFrom seen ds).map Diagnostic.subject).Nodup := by
  induction ds generalizing seen with
  | nil => exact List.nodup_nil
  | cons d ds ih =>
    rw [dedupFrom]
    split
    · exact ih
    · refine List.nodup_cons.mpr ⟨?_, ih⟩
      intro again
      obtain ⟨e, inside, same⟩ := List.mem_map.mp again
      exact (mem_dedupFrom.1 inside).1 (List.mem_cons.mpr (.inl same))

/-- Freeing an array of repeats in its own place: what is kept moves to the front, over what was looked at before. The answer
    is the array and how many were kept. -/
def dedupInPlace (seen : List (Code × Span)) (ds : Array Diagnostic) (kept read : Nat) : Array Diagnostic × Nat :=
  if inside : read < ds.size then
    let d := ds[read]
    if seen.contains d.subject then dedupInPlace seen ds kept (read + 1)
    else dedupInPlace (d.subject :: seen) (ds.setIfInBounds kept d) (kept + 1) (read + 1)
  else (ds, kept)
termination_by ds.size - read

/-- What is written in place is behind what is read, so that nothing is lost. -/
theorem dedupInPlace_eq (seen : List (Code × Span)) (ds : Array Diagnostic) (kept read : Nat) (behind : kept ≤ read) :
    let done := dedupInPlace seen ds kept read
    done.1.toList.take done.2 = ds.toList.take kept ++ dedupFrom seen (ds.toList.drop read) := by
  fun_induction dedupInPlace seen ds kept read with
  | case1 seen ds kept read inside d old ih =>
    have next : ds.toList.drop read = d :: ds.toList.drop (read + 1) := List.drop_eq_getElem_cons (by simpa using inside)
    have known : seen.contains (d.code, d.span) = true := old
    rw [next, dedupFrom, if_pos known]
    exact ih (by omega)
  | case2 seen ds kept read inside d new ih =>
    have next : ds.toList.drop read = d :: ds.toList.drop (read + 1) := List.drop_eq_getElem_cons (by simpa using inside)
    have unread : (ds.toList.set kept d).drop (read + 1) = ds.toList.drop (read + 1) := by
      rw [List.drop_set, if_pos (by omega)]
    have front : (ds.toList.set kept d).take (kept + 1) = ds.toList.take kept ++ [d] := by
      rw [List.take_succ_eq_append_getElem (by simpa using by omega), List.take_set, List.getElem_set_self,
        List.set_eq_of_length_le (List.length_take_le kept ds.toList)]
    have unknown : ¬seen.contains (d.code, d.span) = true := new
    rw [next, dedupFrom, if_neg unknown]
    have moved := ih (by omega)
    simp only [Array.toList_setIfInBounds, unread, front, List.append_assoc] at moved
    exact moved
  | case3 seen ds kept read ended =>
    have none : ds.toList.drop read = [] := List.drop_eq_nil_of_le (by simpa using ended)
    simp [none, dedupFrom]

/-! ## Both -/

/-- What is kept of a sorted bag is the earliest among the most severe of its subject. -/
theorem mem_sort_dedup : d ∈ b.sort.dedup.items ↔
    b.items.find? (·.rank = d.rank) = some d ∧ ∀ e ∈ b.items, e.subject = d.subject → e.severity.level ≤ d.severity.level := by
  have found : d ∈ b.sort.dedup.items ↔ b.sort.items.find? (·.subject = d.subject) = some d := by
    rw [dedup, mem_dedupFrom]
    simp
  rw [found, ← sort_find?_rank]
  constructor
  · intro first
    obtain ⟨-, before, behind, split, apart⟩ := List.find?_eq_some_iff_append.mp first
    have sorted := sort_pairwise b
    rw [split, List.pairwise_append, List.pairwise_cons] at sorted
    constructor
    · refine List.find?_eq_some_iff_append.mpr ⟨by simp, before, behind, split, ?_⟩
      intro e inside
      have other := apart e inside
      simp only [Bool.not_eq_true', decide_eq_false_iff_not] at other ⊢
      exact fun alike => other (Diagnostic.rank_eq_iff.mp alike).1
    · intro e inside same
      have member := (sort_perm b).mem_iff.mpr inside
      rw [split, List.mem_append, List.mem_cons] at member
      rcases member with early | rfl | late
      · have other := apart e early
        simp [same] at other
      · exact le_refl _
      · exact Diagnostic.severity_of_rank_le (sorted.2.1.1 e late) same.symm
  · rintro ⟨first, worst⟩
    obtain ⟨-, before, behind, split, apart⟩ := List.find?_eq_some_iff_append.mp first
    have sorted := sort_pairwise b
    rw [split, List.pairwise_append] at sorted
    refine List.find?_eq_some_iff_append.mpr ⟨by simp, before, behind, split, ?_⟩
    intro e inside
    have other := apart e inside
    simp only [Bool.not_eq_true', decide_eq_false_iff_not] at other ⊢
    intro same
    -- an earlier one of the subject is as severe, so it has the same rank
    have lower := sorted.2.2 e inside d (List.mem_cons_self ..)
    have more := Diagnostic.severity_of_rank_le lower same
    have less := worst e ((sort_perm b).mem_iff.mp (by rw [split]; exact List.mem_append_left _ inside)) same
    refine other (Diagnostic.rank_eq_iff.mpr ⟨same, ?_⟩)
    exact congrArg Severity.mk (Nat.le_antisymm less more)

theorem sort_dedup_pairwise (b : Bag) : b.sort.dedup.items.Pairwise (·.rank < ·.rank) := by
  have sorted := (sort_pairwise b).sublist (dedupFrom_sublist [] b.sort.items)
  have distinct : b.sort.dedup.items.Pairwise (·.subject ≠ ·.subject) := List.pairwise_map.mp dedupFrom_subjects
  refine (sorted.and distinct).imp ?_
  intro d e both
  exact lt_of_le_of_ne both.1 fun alike => both.2 (Diagnostic.rank_eq_iff.mp alike).1

/-- Every subject keeps one diagnostic. -/
theorem mem_sort_dedup_subjects {s : Code × Span} :
    s ∈ b.sort.dedup.items.map Diagnostic.subject ↔ s ∈ b.items.map Diagnostic.subject := by
  constructor
  · intro member
    obtain ⟨d, kept, rfl⟩ := List.mem_map.mp member
    have inside := (dedupFrom_sublist [] b.sort.items).subset kept
    exact List.mem_map_of_mem ((sort_perm b).mem_iff.mp inside)
  · intro member
    obtain ⟨e, inside, rfl⟩ := List.mem_map.mp member
    have some : (b.sort.items.find? (·.subject = e.subject)).isSome := by
      rw [List.find?_isSome]
      exact ⟨e, (sort_perm b).mem_iff.mpr inside, by simp⟩
    obtain ⟨d, first⟩ := Option.isSome_iff_exists.mp some
    have same : d.subject = e.subject := by simpa using List.find?_some first
    rw [← same] at first ⊢
    exact List.mem_map_of_mem (mem_dedupFrom.2 ⟨List.not_mem_nil, first⟩)

/-- Which ranks are kept does not depend on the order of the reports. -/
theorem sort_dedup_ranks {other : Bag} (same : other.items.Perm b.items) :
    other.sort.dedup.items.map Diagnostic.rank = b.sort.dedup.items.map Diagnostic.rank := by
  have kept {b other : Bag} (same : other.items.Perm b.items) :
      ∀ d ∈ other.sort.dedup.items, d.rank ∈ b.sort.dedup.items.map Diagnostic.rank := by
    intro d member
    obtain ⟨first, worst⟩ := mem_sort_dedup.1 member
    have inside := same.mem_iff.mp (List.mem_of_find?_eq_some first)
    have some : (b.items.find? (·.rank = d.rank)).isSome := by
      rw [List.find?_isSome]
      exact ⟨d, inside, by simp⟩
    obtain ⟨e, found⟩ := Option.isSome_iff_exists.mp some
    have alike : e.rank = d.rank := by simpa using List.find?_some found
    obtain ⟨subject, severity⟩ := Diagnostic.rank_eq_iff.mp alike
    rw [← alike] at found ⊢
    refine List.mem_map_of_mem (mem_sort_dedup.2 ⟨found, ?_⟩)
    intro f inF sameF
    rw [severity]
    exact worst f (same.mem_iff.mpr inF) (sameF.trans subject)
  have sorted (b : Bag) : (b.sort.dedup.items.map Diagnostic.rank).Pairwise (· < ·) :=
    List.pairwise_map.mpr (sort_dedup_pairwise b)
  have perm : (other.sort.dedup.items.map Diagnostic.rank).Perm (b.sort.dedup.items.map Diagnostic.rank) := by
    refine (List.perm_ext_iff_of_nodup ((sorted other).imp ne_of_lt) ((sorted b).imp ne_of_lt)).mpr fun r => ?_
    constructor
    · intro member
      obtain ⟨d, inside, rfl⟩ := List.mem_map.mp member
      exact kept same d inside
    · intro member
      obtain ⟨d, inside, rfl⟩ := List.mem_map.mp member
      exact kept same.symm d inside
  exact perm.eq_of_pairwise (fun r s _ _ less more => absurd less (lt_asymm more)) (sorted other) (sorted b)

end Bag

/-- Sorting and then freeing a bag of repeats is canonical, also where the repeats are overwritten in place. What is left is
    strictly increasing by file, start, end, severity from high to low, and code; it has one diagnostic for every code and
    span that was there and no others; and this is the earliest reported among the most severe of them. In another order
    of the reports, the same codes, spans and severities are left at the same places. -/
theorem sort_dedup_canonical (b : Bag) :
    let kept := b.sort.dedup.items
    let inPlace := Bag.dedupInPlace [] b.sort.items.toArray 0 0
    inPlace.1.toList.take inPlace.2 = kept ∧
    kept.Pairwise (·.rank < ·.rank) ∧
    (kept.map Diagnostic.subject).Nodup ∧
    (∀ s, s ∈ kept.map Diagnostic.subject ↔ s ∈ b.items.map Diagnostic.subject) ∧
    (∀ d ∈ kept, ∃ before behind, b.items = before ++ d :: behind ∧
      (∀ e ∈ b.items, e.subject = d.subject → e.severity.level ≤ d.severity.level) ∧
      ∀ e ∈ before, e.subject = d.subject → e.severity.level < d.severity.level) ∧
    ∀ other : Bag, other.items.Perm b.items →
      List.Forall₂ (fun d e => d.subject = e.subject ∧ d.severity = e.severity) other.sort.dedup.items kept := by
  intro kept inPlace
  refine ⟨?_, Bag.sort_dedup_pairwise b, Bag.dedupFrom_subjects, fun s => Bag.mem_sort_dedup_subjects, ?_, ?_⟩
  · have done := Bag.dedupInPlace_eq [] b.sort.items.toArray 0 0 (le_refl 0)
    rw [List.take_zero, List.nil_append, List.drop_zero] at done
    exact done
  · intro d member
    obtain ⟨first, worst⟩ := Bag.mem_sort_dedup.1 member
    obtain ⟨-, before, behind, split, apart⟩ := List.find?_eq_some_iff_append.mp first
    refine ⟨before, behind, split, worst, ?_⟩
    intro e early same
    have inside : e ∈ b.items := by
      rw [split]
      exact List.mem_append_left _ early
    have other := apart e early
    simp only [Bool.not_eq_true', decide_eq_false_iff_not] at other
    refine lt_of_le_of_ne (worst e inside same) fun level => other ?_
    exact Diagnostic.rank_eq_iff.mpr ⟨same, congrArg Severity.mk level⟩
  · intro other same
    have ranks := Bag.sort_dedup_ranks same
    rw [← List.forall₂_eq_eq_eq, List.forall₂_map_left_iff, List.forall₂_map_right_iff] at ranks
    exact ranks.imp fun d e alike => Diagnostic.rank_eq_iff.mp alike

end PineLang
