import Mathlib.Data.List.Chain
import Mathlib.Data.Nat.Bitwise
import PineLang.Proofs.WordNames

/-!
Decomposition and composition of code points. What holds of all entries of the tables is decided with sets of code
points that are the bits of a number (`bitsOf`). No chain of mappings is longer than three steps, so facts about a
decomposition follow from one step of it (`decompose_rec`), and a code point that is composed of two decomposes into what
the two decompose into (`decompose_composite`).
-/
namespace PineLang.Text

/-! ## Sets of code points -/

/-- The code points of closed ranges, as the bits of a number. -/
def bitsOf (rs : List (Nat × Nat)) : Nat := rs.foldl (fun s r => s ||| (2 ^ (r.2 + 1 - r.1) - 1) <<< r.1) 0

theorem testBit_bitsOf (rs : List (Nat × Nat)) (n : Nat) : (bitsOf rs).testBit n = rs.any fun r => r.1 ≤ n && n ≤ r.2 := by
  have all : ∀ s, (rs.foldl (fun s r => s ||| (2 ^ (r.2 + 1 - r.1) - 1) <<< r.1) s).testBit n =
      (s.testBit n || rs.any fun r => r.1 ≤ n && n ≤ r.2) := by
    induction rs with
    | nil => simp
    | cons r rs ih =>
      intro s
      have here : ((2 ^ (r.2 + 1 - r.1) - 1) <<< r.1).testBit n = (decide (r.1 ≤ n) && decide (n ≤ r.2)) := by
        rw [Nat.testBit_shiftLeft, Nat.testBit_two_pow_sub_one, ← Bool.decide_and, ← Bool.decide_and, decide_eq_decide]
        omega
      rw [List.foldl_cons, ih, Nat.testBit_or, here, List.any_cons, Bool.or_assoc]
  rw [bitsOf, all, Nat.zero_testBit, Bool.false_or]

/-- The code point is in the set. Unlike a shift of the set, no number here is longer than the code point says. -/
def inBits (s n : Nat) : Bool := s &&& 2 ^ n != 0

theorem inBits_eq {s n : Nat} : inBits s n = s.testBit n := by
  rw [inBits, Nat.and_two_pow]
  cases s.testBit n <;> simp

/-- The code points themselves, as bits. -/
def pointBits (ns : List Nat) : Nat := bitsOf (ns.map fun n => (n, n))

theorem testBit_pointBits {ns : List Nat} {n : Nat} : (pointBits ns).testBit n = true ↔ n ∈ ns := by
  rw [pointBits, testBit_bitsOf, List.any_map, List.any_eq_true]
  constructor
  · rintro ⟨m, member, within⟩
    rw [Function.comp_apply, Bool.and_eq_true, decide_eq_true_iff, decide_eq_true_iff] at within
    rwa [Nat.le_antisymm within.2 within.1]
  · intro member
    exact ⟨n, member, by simp⟩

/-! ## One step -/

/-- The canonical mappings, apart from those of Hangul. -/
def mappings : List (Nat × List Nat) :=
  (basicSingletons.toList ++ ideographSingletons.toList).map (fun e => (e.1, [e.2])) ++
    (scriptPairs.toList ++ extendedPairs.toList).map (fun e => (e.1, [e.2.1, e.2.2]))

/-- A code point of a Hangul letter. -/
def isJamo (n : Nat) : Bool := 0x1100 ≤ n && n < 0x1200

section
variable {n : Nat} {parts : List Nat}

theorem hangulParts_jamo (syllable : isHangulSyllable n = true) : ∀ p ∈ hangulParts n, isJamo p = true := by
  rw [isHangulSyllable, hangulBase, Bool.and_eq_true, decide_eq_true_iff, decide_eq_true_iff] at syllable
  have jamo {k : Nat} (least : 0x1100 ≤ k) (most : k < 0x1200) : isJamo k = true := by
    rw [isJamo, Bool.and_eq_true, decide_eq_true_iff, decide_eq_true_iff]
    exact ⟨least, most⟩
  have leading : isJamo (0x1100 + (n - hangulBase) / 588) = true := by
    rw [hangulBase]
    exact jamo (by omega) (by omega)
  have vowel : isJamo (0x1161 + (n - hangulBase) % 588 / 28) = true := jamo (by omega) (by omega)
  have trailing : isJamo (0x11A7 + (n - hangulBase) % 28) = true := jamo (by omega) (by omega)
  unfold hangulParts
  simp only
  split
  · simp [leading, vowel]
  · simp [leading, vowel, trailing]

theorem mapping_cases (mapped : mapping? n = some parts) :
    (isHangulSyllable n = true ∧ parts = hangulParts n) ∨ (isHangulSyllable n = false ∧ (n, parts) ∈ mappings) := by
  unfold mapping? at mapped
  split at mapped
  · cases mapped
  · split at mapped
    · next syllable => exact .inl ⟨syllable, (Option.some.inj mapped).symm⟩
    · next other =>
      simp only at mapped
      refine .inr ⟨Bool.eq_false_iff.mpr other, ?_⟩
      split at mapped
      · next k a found =>
        obtain rfl := Option.some.inj mapped
        have member := Array.mem_toList_iff.mpr (Array.mem_of_find?_eq_some found)
        have same := Array.find?_some found
        obtain rfl : k = n := by simpa using same
        refine List.mem_append_left _ (List.mem_map.mpr ⟨(k, a), ?_, rfl⟩)
        split at member
        · exact List.mem_append_left _ member
        · exact List.mem_append_right _ member
      · obtain ⟨⟨k, a, b⟩, found, rfl⟩ := Option.map_eq_some_iff.mp mapped
        have member := Array.mem_toList_iff.mpr (Array.mem_of_find?_eq_some found)
        have same := Array.find?_some found
        obtain rfl : k = n := by simpa using same
        refine List.mem_append_right _ (List.mem_map.mpr ⟨(k, a, b), ?_, rfl⟩)
        split at member
        · exact List.mem_append_left _ member
        · exact List.mem_append_right _ member

/-- The code points of the table with a mapping to one of the others. -/
def deeper (bits : Nat) : Nat :=
  pointBits ((mappings.filter fun e => e.2.any (inBits bits)).map Prod.fst)

/-- The code points of the table at which a chain of more than `k` mappings starts. -/
def deepBits : Nat → Nat
  | 0 => pointBits (mappings.map Prod.fst)
  | k + 1 => deeper (deepBits k)

/-- The code points with a mapping to one other. -/
def singleBits : Nat := pointBits ((basicSingletons.toList ++ ideographSingletons.toList).map Prod.fst)

/-- No mapping is from a Hangul letter or leads to a syllable, and no chain takes more than three of them. The tables of the
    pairs are sorted, and a code point is mapped to a pair by one of them only. -/
structure MappingsKnown : Prop where
  hangul : (mappings.all fun e => !isJamo e.1 && e.2.all fun p => !isHangulSyllable p) = true
  deepest : deepBits 3 = 0
  scriptSorted : (scriptPairs.toList.map Prod.fst).IsChain (· < ·)
  extendedSorted : (extendedPairs.toList.map Prod.fst).IsChain (· < ·)
  script : (scriptPairs.toList.all fun e =>
    0xC0 ≤ e.1 && e.1 < 0x1E00 && !isHangulSyllable e.1 && !singleBits.testBit e.1) = true
  extended : (extendedPairs.toList.all fun e => 0x1E00 ≤ e.1 && !isHangulSyllable e.1 && !singleBits.testBit e.1) = true

theorem mappings_known : MappingsKnown := by
  constructor <;> decide +kernel

theorem mapping_jamo (jamo : isJamo n = true) : mapping? n = none := by
  refine Option.eq_none_iff_forall_ne_some.mpr fun parts mapped => ?_
  obtain ⟨syllable, -⟩ | ⟨-, member⟩ := mapping_cases mapped
  · rw [isJamo, Bool.and_eq_true, decide_eq_true_iff, decide_eq_true_iff] at jamo
    rw [isHangulSyllable, hangulBase, Bool.and_eq_true, decide_eq_true_iff, decide_eq_true_iff] at syllable
    omega
  · have known := List.all_eq_true.mp (MappingsKnown.hangul mappings_known) _ member
    simp [jamo] at known

end

/-! ## Chains of steps -/

/-- A chain of more than `k` mappings starts at the code point. -/
def Deep : Nat → Nat → Prop
  | 0, n => mapping? n ≠ none
  | k + 1, n => ∃ parts, mapping? n = some parts ∧ ∃ p ∈ parts, Deep k p

theorem deep_bits : ∀ {k n : Nat}, isHangulSyllable n = false → Deep k n → (deepBits k).testBit n = true
  | 0, n, other, deep => by
    obtain ⟨parts, mapped⟩ := Option.ne_none_iff_exists'.mp deep
    obtain ⟨syllable, -⟩ | ⟨-, member⟩ := mapping_cases mapped
    · cases other.symm.trans syllable
    · exact testBit_pointBits.mpr (List.mem_map_of_mem member)
  | k + 1, n, other, deep => by
    obtain ⟨parts, mapped, p, inside, below⟩ := deep
    obtain ⟨syllable, -⟩ | ⟨-, member⟩ := mapping_cases mapped
    · cases other.symm.trans syllable
    · have known := List.all_eq_true.mp (MappingsKnown.hangul mappings_known) _ member
      simp only [Bool.and_eq_true, List.all_eq_true, Bool.not_eq_true'] at known
      refine testBit_pointBits.mpr (List.mem_map_of_mem (List.mem_filter.mpr ⟨member, ?_⟩))
      exact List.any_eq_true.mpr ⟨p, inside, inBits_eq.trans (deep_bits (known.2 p inside) below)⟩

/-- No chain takes more than three mappings. -/
theorem not_deep (n : Nat) : ¬ Deep 3 n := by
  intro deep
  cases syllable : isHangulSyllable n with
  | false =>
    have bit := deep_bits syllable deep
    rw [MappingsKnown.deepest mappings_known, Nat.zero_testBit] at bit
    cases bit
  | true =>
    obtain ⟨parts, mapped, p, inside, _, more, -⟩ := deep
    obtain ⟨-, same⟩ | ⟨other, -⟩ := mapping_cases mapped
    · rw [same] at inside
      cases more.symm.trans (mapping_jamo (hangulParts_jamo syllable p inside))
    · cases other.symm.trans syllable

/-- What holds of code points without a mapping, and of others if it holds of the parts, holds of all. -/
theorem decompose_rec {P : Nat → Prop} (whole : ∀ {n}, mapping? n = none → P n)
    (mapped : ∀ {n parts}, mapping? n = some parts → (∀ p ∈ parts, P p) → P n) (n : Nat) : P n := by
  have below : ∀ k n, ¬ Deep k n → P n := by
    intro k
    induction k with
    | zero => exact fun n shallow => whole (not_not.mp shallow)
    | succ k ih =>
      intro n shallow
      cases step : mapping? n with
      | none => exact whole step
      | some parts => exact mapped step fun p member => ih p fun deep => shallow ⟨parts, step, p, member, deep⟩
  exact below 3 n (not_deep n)

/-! ## Full decompositions -/

section
variable {n : Nat} {parts : List Nat}

theorem decomposeWithin_stable : ∀ {k n : Nat}, ¬ Deep k n → decomposeWithin (k + 1) n = decomposeWithin k n
  | 0, n, shallow => by
    have none : mapping? n = none := not_not.mp shallow
    simp only [decomposeWithin, none]
  | k + 1, n, shallow => by
    rw [decomposeWithin, decomposeWithin]
    cases step : mapping? n with
    | none => rfl
    | some parts =>
      exact List.flatMap_congr fun p member => decomposeWithin_stable fun deep => shallow ⟨parts, step, p, member, deep⟩

theorem decompose_eq (n : Nat) : decompose n = decomposeWithin 3 n := by
  have four (n : Nat) : ¬ Deep 4 n := fun ⟨_, _, p, _, deep⟩ => not_deep p deep
  rw [decompose, mappingDepth, decomposeWithin_stable (four n), decomposeWithin_stable (not_deep n)]

theorem decompose_whole (none : mapping? n = none) : decompose n = [n] := by
  rw [decompose_eq, decomposeWithin, none]

theorem decompose_mapped (mapped : mapping? n = some parts) : decompose n = parts.flatMap decompose := by
  have step : decomposeWithin 4 n = parts.flatMap (decomposeWithin 3) := by rw [decomposeWithin, mapped]
  rw [decompose_eq, ← decomposeWithin_stable (not_deep n), step]
  exact List.flatMap_congr fun p _ => (decompose_eq p).symm

/-- A full decomposition decomposes no further. -/
theorem decompose_full (n : Nat) : ∀ p ∈ decompose n, mapping? p = none := by
  induction n using decompose_rec with
  | whole none =>
    rw [decompose_whole none]
    exact List.forall_mem_singleton.mpr none
  | mapped step each =>
    rw [decompose_mapped step]
    exact List.forall_mem_flatMap.mpr each

theorem mapping_length (mapped : mapping? n = some parts) : parts ≠ [] ∧ parts.length ≤ 3 := by
  obtain ⟨-, same⟩ | ⟨-, member⟩ := mapping_cases mapped
  · rw [same, hangulParts]
    split <;> simp
  · obtain single | pair := List.mem_append.mp member
    · obtain ⟨e, -, same⟩ := List.mem_map.mp single
      simp [← (Prod.mk.inj same).2]
    · obtain ⟨e, -, same⟩ := List.mem_map.mp pair
      simp [← (Prod.mk.inj same).2]

theorem decompose_ne_nil (n : Nat) : decompose n ≠ [] := by
  induction n using decompose_rec with
  | whole none =>
    rw [decompose_whole none]
    exact List.cons_ne_nil _ _
  | mapped step each =>
    obtain ⟨p, rest, rfl⟩ := List.exists_cons_of_ne_nil (mapping_length step).1
    rw [decompose_mapped step, List.flatMap_cons]
    exact List.append_ne_nil_of_left_ne_nil (each p (List.mem_cons_self ..)) _

/-- A full decomposition is short. -/
theorem decompose_length (n : Nat) : (decompose n).length ≤ 27 := by
  have within : ∀ k n, (decomposeWithin k n).length ≤ 3 ^ k := by
    intro k
    induction k with
    | zero => exact fun n => Nat.le_refl 1
    | succ k ih =>
      intro n
      rw [decomposeWithin]
      cases step : mapping? n with
      | none => exact Nat.one_le_pow _ _ (by decide)
      | some parts =>
        have bound : ∀ ps : List Nat, (ps.flatMap (decomposeWithin k)).length ≤ ps.length * 3 ^ k := by
          intro ps
          induction ps with
          | nil => exact Nat.zero_le _
          | cons p ps more =>
            have first := ih p
            rw [List.flatMap_cons, List.length_append, List.length_cons, Nat.succ_mul]
            omega
        calc (parts.flatMap (decomposeWithin k)).length ≤ parts.length * 3 ^ k := bound parts
          _ ≤ 3 * 3 ^ k := Nat.mul_le_mul_right _ (mapping_length step).2
          _ = 3 ^ (k + 1) := by rw [Nat.pow_succ, Nat.mul_comm]
  rw [decompose_eq]
  exact within 3 n

end

/-! ## Pairs that compose -/

theorem find_sorted {α : Type} : ∀ {table : List (Nat × α)} {e : Nat × α}, (table.map Prod.fst).Pairwise (· < ·) → e ∈ table →
    table.find? (·.1 == e.1) = some e
  | x :: table, e, sorted, member => by
    rw [List.map_cons, List.pairwise_cons] at sorted
    obtain rfl | later := List.mem_cons.mp member
    · exact List.find?_cons_of_pos (beq_self_eq_true _)
    · have before : x.1 < e.1 := sorted.1 e.1 (List.mem_map_of_mem later)
      rw [List.find?_cons_of_neg (by simpa using Nat.ne_of_lt before), find_sorted sorted.2 later]

/-- The pairs of the tables, each behind what it composes to. -/
def pairs : List (Nat × Nat × Nat) := scriptPairs.toList ++ extendedPairs.toList

theorem mapping_pair {n a b : Nat} (member : (n, a, b) ∈ pairs) : mapping? n = some [a, b] := by
  have unmapped (table : Array (Nat × Nat)) (inside : table.toList ⊆ basicSingletons.toList ++ ideographSingletons.toList)
      (other : singleBits.testBit n = false) : table.find? (·.1 == n) = none := by
    rw [Array.find?_eq_none]
    intro e found same
    rw [Bool.eq_false_iff] at other
    refine other (testBit_pointBits.mpr (List.mem_map.mpr ⟨e, inside (Array.mem_toList_iff.mpr found), eq_of_beq same⟩))
  have single (other : singleBits.testBit n = false) :
      (if n < 0x10000 then basicSingletons else ideographSingletons).find? (·.1 == n) = none := by
    split
    · exact unmapped _ (List.subset_append_left _ _) other
    · exact unmapped _ (List.subset_append_right _ _) other
  unfold mapping?
  obtain script | extended := List.mem_append.mp member
  · have known := List.all_eq_true.mp (MappingsKnown.script mappings_known) _ script
    simp only [Bool.and_eq_true, decide_eq_true_eq, Bool.not_eq_true'] at known
    obtain ⟨⟨⟨least, most⟩, other⟩, apart⟩ := known
    have found := find_sorted (List.isChain_iff_pairwise.mp (MappingsKnown.scriptSorted mappings_known)) script
    rw [Array.find?_toList] at found
    simp only
    rw [if_neg (Nat.not_lt.mpr least), other, if_neg Bool.false_ne_true, single apart, if_pos most, found]
    rfl
  · have known := List.all_eq_true.mp (MappingsKnown.extended mappings_known) _ extended
    simp only [Bool.and_eq_true, decide_eq_true_eq, Bool.not_eq_true'] at known
    obtain ⟨⟨least, other⟩, apart⟩ := known
    have found := find_sorted (List.isChain_iff_pairwise.mp (MappingsKnown.extendedSorted mappings_known)) extended
    rw [Array.find?_toList] at found
    simp only
    rw [if_neg (by omega), other, if_neg Bool.false_ne_true, single apart, if_neg (Nat.not_lt.mpr least), found]
    rfl

-- The table has a pair for an accented letter.
example : (0xE1, 0x61, 0x301) ∈ pairs := by decide

theorem compose_cases {a b n : Nat} (composed : compose? a b = some n) :
    hangulCompose? a b = some n ∨ ((n, a, b) ∈ pairs ∧ compositionExclusions.contains n = false) := by
  unfold compose? at composed
  split at composed
  · next m hangul => exact .inl (hangul.trans composed)
  · right
    split at composed
    · next m c d found =>
      split at composed
      · cases composed
      · next allowed =>
        obtain rfl := Option.some.inj composed
        refine ⟨?_, Bool.eq_false_iff.mpr allowed⟩
        have same {table : Array (Nat × Nat × Nat)} (found : table.find? (·.2 == (a, b)) = some (m, c, d)) :
            (m, a, b) ∈ table.toList := by
          have pair := Array.find?_some found
          simp only [beq_iff_eq] at pair
          rw [← pair]
          exact Array.mem_toList_iff.mpr (Array.mem_of_find?_eq_some found)
        rw [Option.orElse_eq_some] at found
        obtain script | ⟨-, extended⟩ := found
        · exact List.mem_append_left _ (same script)
        · exact List.mem_append_right _ (same extended)
    · cases composed

theorem hangulParts_syllable {n : Nat} (syllable : isHangulSyllable n = true) : mapping? n = some (hangulParts n) := by
  have least := syllable
  rw [isHangulSyllable, hangulBase, Bool.and_eq_true, decide_eq_true_iff, decide_eq_true_iff] at least
  rw [mapping?, if_neg (by omega), if_pos syllable]

theorem hangulCompose_parts {a b n : Nat} (composed : hangulCompose? a b = some n) :
    isHangulSyllable n = true ∧
      (hangulParts n = [a, b] ∨ (isHangulSyllable a = true ∧ hangulParts n = hangulParts a ++ [b])) := by
  unfold hangulCompose? at composed
  split at composed
  · next letters =>
    simp only [Bool.and_eq_true, decide_eq_true_eq] at letters
    obtain ⟨i, rfl⟩ : ∃ i, a = 0x1100 + i := ⟨a - 0x1100, by omega⟩
    obtain ⟨j, rfl⟩ : ∃ j, b = 0x1161 + j := ⟨b - 0x1161, by omega⟩
    have place : n = hangulBase + (i * 588 + j * 28) := by
      rw [← Option.some.inj composed]
      omega
    rw [place, isHangulSyllable, hangulParts, Nat.add_sub_cancel_left]
    have open' : (i * 588 + j * 28) % 28 = 0 := by omega
    have first : (i * 588 + j * 28) / 588 = i := by omega
    have second : (i * 588 + j * 28) % 588 / 28 = j := by omega
    refine ⟨?_, .inl ?_⟩
    · rw [Bool.and_eq_true, decide_eq_true_iff, decide_eq_true_iff]
      omega
    · simp only [open', first, second, beq_self_eq_true, if_true]
  · split at composed
    · next closes =>
      simp only [Bool.and_eq_true, decide_eq_true_eq, beq_iff_eq] at closes
      obtain ⟨⟨⟨syllable, even⟩, least⟩, most⟩ := closes
      have within := syllable
      rw [isHangulSyllable, Bool.and_eq_true, decide_eq_true_iff, decide_eq_true_iff] at within
      obtain ⟨i, rfl⟩ : ∃ i, a = hangulBase + i := ⟨a - hangulBase, by omega⟩
      obtain ⟨j, rfl⟩ : ∃ j, b = 0x11A7 + j := ⟨b - 0x11A7, by omega⟩
      rw [Nat.add_sub_cancel_left] at even
      have place : n = hangulBase + (i + j) := by
        rw [← Option.some.inj composed]
        omega
      have closed : (i + j) % 28 = j := by omega
      have first : (i + j) / 588 = i / 588 := by omega
      have second : (i + j) % 588 / 28 = i % 588 / 28 := by omega
      have some : (j == 0) = false := by
        rw [beq_eq_false_iff_ne]
        omega
      refine ⟨?_, .inr ⟨syllable, ?_⟩⟩
      · rw [place, isHangulSyllable, Bool.and_eq_true, decide_eq_true_iff, decide_eq_true_iff]
        omega
      · rw [place]
        simp only [hangulParts, Nat.add_sub_cancel_left, closed, first, second, even, some, beq_self_eq_true, if_true]
        rfl
    · cases composed

/-- A code point that is composed of two decomposes into what the two decompose into. -/
theorem decompose_composite {a b n : Nat} (composed : compose? a b = some n) : decompose n = decompose a ++ decompose b := by
  have pair {n : Nat} (mapped : mapping? n = some [a, b]) : decompose n = decompose a ++ decompose b := by
    rw [decompose_mapped mapped, List.flatMap_cons, List.flatMap_singleton]
  obtain hangul | ⟨member, -⟩ := compose_cases composed
  · obtain ⟨syllable, parts | ⟨before, parts⟩⟩ := hangulCompose_parts hangul
    · exact pair (parts ▸ hangulParts_syllable syllable)
    · rw [decompose_mapped (hangulParts_syllable syllable), parts, List.flatMap_append, List.flatMap_singleton,
        decompose_mapped (hangulParts_syllable before)]
  · exact pair (mapping_pair member)

end PineLang.Text
