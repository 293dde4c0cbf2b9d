import Mathlib.Data.List.Perm.Subperm
import Mathlib.Data.List.Nodup
import PineLang.Lower

/-!
The names that a constructor chooses. A loop tries candidates one after the other until one is free
(`Settles`); as no two candidates are the same, it always stops (`firstFree_settles`). A parameter has the name
of its field unless that is the name of the collector or of its allocator; then such a loop renames it, and the
new name is taken from then on (`Renamed`). All parameters come out with different names, and the local of the
constructor with a name that nothing else there has.
-/
namespace PineLang.Lower
open C (CParam)

/-! ## Trying candidates -/

/-- Trying the candidates from `i` on stops at a name: at the first candidate that is not taken. -/
inductive Settles (taken : List String) (candidate : Nat → String) : Nat → String → Prop where
  | free {i} : candidate i ∉ taken → Settles taken candidate i (candidate i)
  | next {i n} : candidate i ∈ taken → Settles taken candidate (i + 1) n → Settles taken candidate i n

namespace Settles
variable {taken : List String} {candidate : Nat → String} {i : Nat} {n : String}

theorem notMem (settles : Settles taken candidate i n) : n ∉ taken := by
  induction settles with
  | free free => exact free
  | next _ _ ih => exact ih

theorem eq_candidate (settles : Settles taken candidate i n) : ∃ j, n = candidate j := by
  induction settles with
  | @free i _ => exact ⟨i, rfl⟩
  | next _ _ ih => exact ih

/-- Candidates that are taken are passed over. -/
theorem after {k : Nat} (settles : Settles taken candidate k n) : ∀ {i : Nat}, i ≤ k →
    (∀ j, i ≤ j → j < k → candidate j ∈ taken) → Settles taken candidate i n := by
  intro i before isTaken
  induction hd : k - i generalizing i with
  | zero =>
    have here : i = k := by omega
    exact here ▸ settles
  | succ d ih =>
    refine .next (isTaken i (Nat.le_refl i) (by omega)) (ih (by omega) ?_ (by omega))
    intro j above below
    exact isTaken j (by omega) below

end Settles

/-- Among one more candidates than there are taken names, one is free. -/
theorem exists_free (taken : List String) {candidate : Nat → String} (distinct : Function.Injective candidate) :
    ∃ i ∈ List.range (taken.length + 1), candidate i ∉ taken := by
  by_contra none
  push Not at none
  have candidates : ((List.range (taken.length + 1)).map candidate).Nodup := List.nodup_range.map distinct
  have among : (List.range (taken.length + 1)).map candidate ⊆ taken := by
    intro n isCandidate
    obtain ⟨i, inside, rfl⟩ := List.mem_map.mp isCandidate
    exact none i inside
  have fits := (candidates.subperm among).length_le
  rw [List.length_map, List.length_range] at fits
  omega

/-- The loop stops, and at the name that is chosen. -/
theorem firstFree_settles (taken : List String) {candidate : Nat → String} (distinct : Function.Injective candidate) :
    Settles taken candidate 0 (firstFree taken candidate) := by
  unfold firstFree
  split
  · next i found =>
    have free : candidate i ∉ taken := by simpa using List.find?_some found
    have passed : ∀ j < i, candidate j ∈ taken := by
      have := (List.find?_range_eq_some.mp found).2.2
      simpa using this
    exact (Settles.free free).after (Nat.zero_le i) fun j _ below => passed j below
  · next none =>
    obtain ⟨i, inside, free⟩ := exists_free taken distinct
    exact absurd (by simpa using List.find?_eq_none.mp none i inside) free

/-! ## The two kinds of candidates -/

theorem underscored_toList (name : String) (n : Nat) :
    (underscored name n).toList = name.toList ++ List.replicate (n + 1) '_' := by
  have pushed (k : Nat) : ("".pushn '_' k).toList = List.replicate k '_' := by
    induction k with
    | zero => rfl
    | succ k ih =>
      rw [String.pushn_eq_repeat_push] at ih ⊢
      rw [Nat.repeat, String.toList_push, ih, List.replicate_succ']
  rw [underscored, String.toList_append, pushed]

theorem underscored_injective (name : String) : Function.Injective (underscored name) := by
  intro i j same
  have lengths := congrArg (·.toList.length) same
  simp only [underscored_toList, List.length_append, List.length_replicate] at lengths
  omega

/-- The candidates for the local: `n`, then `n1`, `n2` and so on. -/
def localCandidate (i : Nat) : String := if i == 0 then "n" else "n" ++ toString i

theorem localCandidate_toList (i : Nat) :
    (localCandidate i).toList = 'n' :: if i = 0 then [] else Nat.toDigits 10 i := by
  by_cases first : i = 0
  · simp [localCandidate, first]
  · simp [localCandidate, first]

theorem localCandidate_injective : Function.Injective localCandidate := by
  intro i j same
  have digits := congrArg String.toList same
  rw [localCandidate_toList, localCandidate_toList, List.cons_inj_right] at digits
  split at digits <;> split at digits
  · omega
  · exact absurd digits.symm Nat.toDigits_ne_nil
  · exact absurd digits Nat.toDigits_ne_nil
  · calc
      i = Nat.ofDigitChars 10 (Nat.toDigits 10 i) 0 := Nat.ofDigitChars_ten_toDigits.symm
      _ = Nat.ofDigitChars 10 (Nat.toDigits 10 j) 0 := by rw [digits]
      _ = j := Nat.ofDigitChars_ten_toDigits

/-! ## Parameters -/

/-- What the constructor itself refers to besides its struct. -/
def runtimeNames : List String := [C.collector, allocator]

/-- Going through the members of a struct gives these parameters: a member that has one of the runtime's names
    gets the name that trying its underscored forms stops at, which is taken for those after it. -/
inductive Renamed : List String → List CParam → List CParam → Prop where
  | done {taken} : Renamed taken [] []
  | keep {taken m ms ps} : m.name ∉ runtimeNames → Renamed taken ms ps → Renamed taken (m :: ms) (m :: ps)
  | rename {taken m ms ps n} : m.name ∈ runtimeNames → Settles taken (underscored m.name) 0 n →
      Renamed (n :: taken) ms ps → Renamed taken (m :: ms) (⟨n, m.type⟩ :: ps)

theorem constructorParams_renamed : ∀ (ms : List CParam) (taken : List String),
    Renamed taken ms (constructorParams taken ms)
  | [], _ => .done
  | m :: ms, taken => by
    rw [constructorParams]
    split
    · next reserved =>
      have runtime : m.name ∈ runtimeNames := by simpa [runtimeNames] using reserved
      exact .rename runtime (firstFree_settles taken (underscored_injective m.name)) (constructorParams_renamed ms _)
    · next other =>
      have apart : m.name ∉ runtimeNames := by simpa [runtimeNames] using other
      exact .keep apart (constructorParams_renamed ms taken)

namespace Renamed
variable {taken : List String} {ms ps : List CParam}

/-- Each parameter stands for its member: the type is the member's, and so is the name unless it is one of the
    runtime's. -/
theorem forall₂ (renamed : Renamed taken ms ps) (runtime : runtimeNames ⊆ taken) :
    List.Forall₂ (fun m p => p.type = m.type ∧ p.name ∉ runtimeNames ∧ (p.name ≠ m.name ↔ m.name ∈ runtimeNames))
      ms ps := by
  induction renamed with
  | done => exact .nil
  | keep apart _ ih => exact .cons ⟨rfl, apart, by simpa using apart⟩ (ih runtime)
  | @rename taken m ms ps n reserved settles _ ih =>
    have fresh : n ∉ runtimeNames := fun inside => settles.notMem (runtime inside)
    refine .cons ⟨rfl, fresh, iff_of_true ?_ reserved⟩ (ih (List.subset_cons_of_subset _ runtime))
    rintro rfl
    exact fresh reserved

/-- A parameter has the name of a member, or one that was not taken before. -/
theorem mem_or_fresh (renamed : Renamed taken ms ps) :
    ∀ p ∈ ps, p.name ∈ ms.map (·.name) ∧ p.name ∉ runtimeNames ∨ p.name ∉ taken := by
  induction renamed with
  | done => simp
  | keep apart _ ih =>
    rw [List.forall_mem_cons]
    exact ⟨.inl ⟨List.mem_cons_self .., apart⟩, fun p inside =>
      (ih p inside).imp_left fun named => ⟨List.mem_cons_of_mem _ named.1, named.2⟩⟩
  | rename _ settles _ ih =>
    rw [List.forall_mem_cons]
    refine ⟨.inr settles.notMem, fun p inside => ?_⟩
    exact (ih p inside).imp (fun named => ⟨List.mem_cons_of_mem _ named.1, named.2⟩)
      fun fresh taken => fresh (List.mem_cons_of_mem _ taken)

/-- The parameters of members with different names have different names. -/
theorem nodup (renamed : Renamed taken ms ps) : (ms.map (·.name)).Nodup → ms.map (·.name) ⊆ taken →
    (ps.map (·.name)).Nodup := by
  induction renamed with
  | done => exact fun _ _ => List.nodup_nil
  | @keep taken m ms ps apart rest ih =>
    intro distinct among
    rw [List.map_cons, List.nodup_cons] at distinct
    rw [List.map_cons, List.cons_subset] at among
    rw [List.map_cons, List.nodup_cons]
    refine ⟨?_, ih distinct.2 among.2⟩
    intro again
    obtain ⟨p, inside, same⟩ := List.mem_map.mp again
    rcases rest.mem_or_fresh p inside with ⟨named, -⟩ | fresh
    · exact distinct.1 (same ▸ named)
    · exact fresh (same ▸ among.1)
  | @rename taken m ms ps n reserved settles rest ih =>
    intro distinct among
    rw [List.map_cons, List.nodup_cons] at distinct
    rw [List.map_cons, List.cons_subset] at among
    rw [List.map_cons, List.nodup_cons]
    refine ⟨?_, ih distinct.2 (List.subset_cons_of_subset _ among.2)⟩
    intro again
    obtain ⟨p, inside, same⟩ := List.mem_map.mp again
    rcases rest.mem_or_fresh p inside with ⟨named, -⟩ | fresh
    · exact settles.notMem (among.2 (by rwa [same] at named))
    · exact fresh (by rw [same]; exact List.mem_cons_self ..)

end Renamed

/-! ## The constructor of a struct -/

/-- The names that are taken when the constructor names its parameters. -/
def Layout.taken (l : Layout) : List String := C.collector :: allocator :: l.members.map (·.name)

/-- The parameters of the constructor. -/
def Layout.params (l : Layout) : List CParam := constructorParams l.taken l.members

/-- The names that are taken when the constructor names its local. -/
def Layout.named (l : Layout) : List String := l.members.map (·.name) ++ l.params.map (·.name)

/-- The local of the constructor, for the new object. -/
def Layout.target (l : Layout) : String := localName l.named

theorem Layout.params_renamed (l : Layout) : Renamed l.taken l.members l.params := constructorParams_renamed _ _

theorem Layout.target_settles (l : Layout) : Settles l.named localCandidate 0 l.target :=
  firstFree_settles l.named localCandidate_injective

theorem Layout.params_forall₂ (l : Layout) : List.Forall₂
    (fun m p => p.type = m.type ∧ p.name ∉ runtimeNames ∧ (p.name ≠ m.name ↔ m.name ∈ runtimeNames))
    l.members l.params :=
  l.params_renamed.forall₂ (by simp [runtimeNames, Layout.taken])

/-- No parameter has one of the runtime's names. -/
theorem Layout.params_notMem_runtime (l : Layout) : ∀ p ∈ l.params, p.name ∉ runtimeNames := by
  have each := l.params_forall₂
  generalize l.members = ms, l.params = ps at each
  induction each with
  | nil => simp
  | cons here _ ih => exact List.forall_mem_cons.mpr ⟨here.2.1, ih⟩

theorem Layout.params_nodup {l : Layout} (distinct : (l.members.map (·.name)).Nodup) :
    (l.params.map (·.name)).Nodup :=
  l.params_renamed.nodup distinct (List.subset_cons_of_subset _ (List.subset_cons_of_subset _ (List.Subset.refl _)))

/-- The local has none of the runtime's names, since it begins with an `n`. -/
theorem Layout.target_notMem_runtime (l : Layout) : l.target ∉ runtimeNames := by
  obtain ⟨i, same⟩ := l.target_settles.eq_candidate
  have other : ∀ n ∈ runtimeNames, n.toList.head? ≠ some 'n' := by decide
  intro reserved
  refine other _ reserved ?_
  rw [same, localCandidate_toList, List.head?_cons]

end PineLang.Lower
