import Mathlib.Data.Nat.Bitwise
import PineLang.Proofs.NormalForm

/-!
The normal form of a name. Letters, digits and marks decompose and compose to letters, digits and marks, and what starts a
name goes on to start one. None of those that decompose is among the code points for which compatibility decides how long
a run of marks is, so that the normal form of a name is a name (`normalCodes_name`) and its own normal form
(`normalCodes_stable`).
-/
namespace PineLang.Text

/-! ## Sets of code points -/

section
variable {s t n : Nat}

theorem testBit_subset (subset : s &&& t = s) (inside : s.testBit n = true) : t.testBit n = true := by
  rw [← subset, Nat.testBit_and, Bool.and_eq_true] at inside
  exact inside.2

theorem testBit_apart (apart : s &&& t = 0) (inside : s.testBit n = true) : t.testBit n = false := by
  have both := Nat.testBit_and s t n
  rwa [apart, Nat.zero_testBit, inside, Bool.true_and, eq_comm] at both

end

/-- The code points that start names. -/
def startRanges : List (Nat × Nat) := (0x5F, 0x5F) :: letterRanges.toList

/-- The code points of names. -/
def nameRanges : List (Nat × Nat) := startRanges ++ (digitRanges.toList ++ markRanges.toList)

def startBits : Nat := bitsOf startRanges

def nameBits : Nat := bitsOf nameRanges

/-- The code points whose attaching ends are taken from compatibility. -/
def compatibilityBits : Nat := bitsOf (compatibilityAttached.toList.map fun e => (e.1, e.2.1))

def classRanges : List (Nat × Nat) := combiningClasses.toList.map fun e => (e.1, e.2.1)

/-- The code points of a combining class. -/
def classBits : Nat := bitsOf classRanges

/-- The code points that are mapped to marks of a class. -/
def markKeys : List Nat := [0x340, 0x341, 0x343, 0x344, 0xF73, 0xF75, 0xF81]

/-- What attaches, or is the second of a pair that is excluded, or is mapped to marks of a class. -/
def attachRanges : List (Nat × Nat) :=
  (0x1161, 0x1175) :: (0x11A8, 0x11C2) :: (classRanges ++ (pairs.map (fun e => (e.2.2, e.2.2)) ++ markKeys.map fun n => (n, n)))

def attachBits : Nat :=
  bitsOf attachRanges

/-- The code point starts a name. -/
def startCode (n : Nat) : Bool := startBits.testBit n

/-- The code point belongs to names. -/
def nameCode (n : Nat) : Bool := nameBits.testBit n

theorem testBit_start (n : Nat) : startBits.testBit n = startCode n := rfl

theorem testBit_name (n : Nat) : nameBits.testBit n = nameCode n := rfl

theorem nameCode_of_start {n : Nat} (starts : startCode n = true) : nameCode n = true := by
  rw [startCode, startBits, testBit_bitsOf] at starts
  rw [nameCode, nameBits, testBit_bitsOf, nameRanges, List.any_append, starts, Bool.true_or]

/-- What a mapping keeps of a code point. -/
structure Kept (n : Nat) (parts : List Nat) : Prop where
  head : ∃ p ∈ parts.head?, startCode p = startCode n ∧ nameCode p = nameCode n ∧
    (attachBits.testBit n = false → attachBits.testBit p = false)
  tail : ∀ p ∈ parts.tail, nameCode p = true
  marks : classBits.testBit n = true ∨ (∃ p ∈ parts.head?, attachBits.testBit p = true) → ∀ p ∈ parts, classBits.testBit p = true
  plain : ∀ m ∈ n :: parts, nameCode m = true → compatibilityBits.testBit m = false

/-- The code points of Hangul letters and syllables. -/
def hangulBits : Nat := bitsOf [(0x1100, 0x11FF), (0xAC00, 0xD7A3)]

/-- The ranges of names are of characters, and the marks of a class begin with the combining ones. Marks of a class do not
    start names, nor has compatibility to do with them. Hangul does start names, has no class and has nothing to do with
    compatibility, and its leading letters do not attach. -/
theorem bits_apart : ((nameRanges.all fun r => r.2 < 0xD800 || (0xDFFF < r.1 && r.2 < 0x110000)) = true ∧
      (combiningClasses.toList.all fun e => 0x300 ≤ e.1 && e.2.2 != 0) = true) ∧
    (startBits &&& classBits = 0 ∧ classBits &&& compatibilityBits = 0) ∧
    hangulBits &&& startBits = hangulBits ∧ hangulBits &&& (compatibilityBits ||| classBits) = 0 ∧
    bitsOf [(0x1100, 0x1112)] &&& attachBits = 0 := by
  decide +kernel

theorem nameCode_valid {n : Nat} (name : nameCode n = true) : n.isValidChar := by
  rw [nameCode, nameBits, testBit_bitsOf, List.any_eq_true] at name
  obtain ⟨r, member, within⟩ := name
  have known := List.all_eq_true.mp bits_apart.1.1 r member
  simp only [Bool.or_eq_true, Bool.and_eq_true, decide_eq_true_eq] at known within
  rw [Nat.isValidChar]
  omega

/-! ## Mappings of names -/

/-- A mapping begins with a code point of the same sort, and goes on with code points of names. -/
def keepsNames (e : Nat × List Nat) : Bool :=
  (if inBits startBits e.1 then e.2.head?.any (inBits startBits)
    else e.2.head?.any fun p => !inBits startBits p && inBits nameBits p == inBits nameBits e.1) &&
  e.2.tail.all (inBits nameBits)

/-- A mapping has to do with compatibility only outside of names. Where it begins with what attaches, or is from a mark of a
    class, it is to marks of a class. -/
def keepsRuns (e : Nat × List Nat) : Bool :=
  !inBits (compatibilityBits &&& nameBits) e.1 && e.2.all (fun p => !inBits (compatibilityBits &&& nameBits) p) &&
    e.2.head?.any fun p =>
      if inBits attachBits p then inBits attachBits e.1 && e.2.all (inBits classBits) else !inBits classBits e.1

/-- All mappings keep names and runs, and the joiner belongs to names, alone, without a mapping. -/
theorem mappings_keep : (mappings.all fun e => keepsNames e && keepsRuns e) = true ∧
    nameCode graphemeJoiner = true ∧ compatibilityBits.testBit graphemeJoiner = false ∧
    attachBits.testBit graphemeJoiner = false ∧ (mappings.all fun e => e.1 != graphemeJoiner) = true := by
  decide +kernel

theorem hangulBits_jamo {n : Nat} (jamo : isJamo n = true) : hangulBits.testBit n = true := by
  rw [isJamo, Bool.and_eq_true, decide_eq_true_iff, decide_eq_true_iff] at jamo
  simp only [hangulBits, testBit_bitsOf, List.any_cons, Bool.or_eq_true, Bool.and_eq_true, decide_eq_true_iff]
  omega

theorem hangulBits_syllable {n : Nat} (syllable : isHangulSyllable n = true) : hangulBits.testBit n = true := by
  rw [isHangulSyllable, hangulBase, Bool.and_eq_true, decide_eq_true_iff, decide_eq_true_iff] at syllable
  simp only [hangulBits, testBit_bitsOf, List.any_cons, Bool.or_eq_true, Bool.and_eq_true, decide_eq_true_iff]
  omega

theorem hangul_start {n : Nat} (inside : hangulBits.testBit n = true) : startCode n = true :=
  testBit_subset bits_apart.2.2.1 inside

theorem hangulParts_head (n : Nat) : (hangulParts n).head? = some (0x1100 + (n - hangulBase) / 588) := by
  rw [hangulParts]
  split <;> rfl

section
variable {n : Nat} {parts : List Nat}

theorem hangul_kept (syllable : isHangulSyllable n = true) : Kept n (hangulParts n) := by
  obtain ⟨-, -, -, outside, apart⟩ := bits_apart
  have plain {m : Nat} (inside : hangulBits.testBit m = true) : compatibilityBits.testBit m = false ∧ classBits.testBit m = false := by
    have neither := testBit_apart outside inside
    rwa [Nat.testBit_or, Bool.or_eq_false_iff] at neither
  have whole := hangulBits_syllable syllable
  have each : ∀ p ∈ hangulParts n, hangulBits.testBit p = true := fun p member => hangulBits_jamo (hangulParts_jamo syllable p member)
  have leading : attachBits.testBit (0x1100 + (n - hangulBase) / 588) = false := by
    refine testBit_apart apart ?_
    rw [isHangulSyllable, hangulBase, Bool.and_eq_true, decide_eq_true_iff, decide_eq_true_iff] at syllable
    simp only [testBit_bitsOf, hangulBase, List.any_cons, List.any_nil, Bool.or_false, Bool.and_eq_true, decide_eq_true_iff]
    omega
  constructor
  · have first := hangul_start (each _ (List.mem_of_head? (hangulParts_head n)))
    exact ⟨_, hangulParts_head n, first.trans (hangul_start whole).symm, (nameCode_of_start first).trans (nameCode_of_start (hangul_start whole)).symm,
      fun _ => leading⟩
  · exact fun p member => nameCode_of_start (hangul_start (each p (List.mem_of_mem_tail member)))
  · rintro (combines | ⟨p, first, attaches⟩)
    · exact absurd (combines.symm.trans (plain whole).2) Bool.noConfusion
    · obtain rfl := Option.some.inj ((hangulParts_head n).symm.trans first)
      exact absurd (attaches.symm.trans leading) Bool.noConfusion
  · refine List.forall_mem_cons.mpr ⟨fun _ => (plain whole).1, fun p member _ => (plain (each p member)).1⟩

theorem mapping_kept (mapped : mapping? n = some parts) : Kept n parts := by
  obtain ⟨syllable, same⟩ | ⟨-, member⟩ := mapping_cases mapped
  · rw [same]
    exact hangul_kept syllable
  have known := List.all_eq_true.mp mappings_keep.1 _ member
  simp only [keepsNames, keepsRuns, inBits_eq, testBit_start, testBit_name, Nat.testBit_and, Bool.and_eq_true, Bool.not_eq_true',
    List.all_eq_true] at known
  obtain ⟨⟨first, names⟩, ⟨here, later⟩, runs⟩ := known
  obtain ⟨p, rest, rfl⟩ := List.exists_cons_of_ne_nil (mapping_length mapped).1
  simp only [List.head?_cons, Option.any_some, inBits_eq, testBit_start] at first runs
  constructor
  · refine ⟨p, rfl, ?_⟩
    have apart : attachBits.testBit n = false → attachBits.testBit p = false := by
      intro apart
      by_contra attaches
      rw [Bool.not_eq_false] at attaches
      rw [if_pos attaches, apart, Bool.false_and] at runs
      cases runs
    cases starts : startCode n with
    | true =>
      rw [starts, if_pos rfl] at first
      exact ⟨first, (nameCode_of_start first).trans (nameCode_of_start starts).symm, apart⟩
    | false =>
      rw [starts, if_neg Bool.false_ne_true, Bool.and_eq_true, Bool.not_eq_true', beq_iff_eq] at first
      exact ⟨first.1, first.2, apart⟩
  · exact names
  · intro marks
    cases attaches : attachBits.testBit p with
    | true =>
      rw [if_pos attaches, Bool.and_eq_true, List.all_eq_true] at runs
      exact fun q inside => inBits_eq.symm.trans (runs.2 q inside)
    | false =>
      rw [if_neg (Bool.eq_false_iff.mp attaches), Bool.not_eq_true'] at runs
      obtain combines | ⟨q, same, other⟩ := marks
      · exact absurd (combines.symm.trans runs) Bool.noConfusion
      · obtain rfl := Option.some.inj same
        exact absurd (other.symm.trans attaches) Bool.noConfusion
  · refine List.forall_mem_cons.mpr ⟨fun isName => ?_, fun m inside isName => ?_⟩
    · rw [isName, Bool.and_true] at here
      exact here
    · have both := later m inside
      rw [isName, Bool.and_true] at both
      exact both

end

/-! ## Decomposition -/

section
variable {n : Nat}

/-- What each mapping keeps of its first code point, the full decomposition begins with. -/
theorem decompose_head {P : Nat → Prop}
    (keeps : ∀ {n : Nat} {parts : List Nat}, mapping? n = some parts → P n → ∃ p ∈ parts.head?, P p) (n : Nat) :
    P n → ∃ p ∈ (decompose n).head?, P p := by
  induction n using decompose_rec with
  | whole none =>
    intro here
    rw [decompose_whole none]
    exact ⟨_, rfl, here⟩
  | mapped step each =>
    intro here
    obtain ⟨p, first, known⟩ := keeps step here
    obtain ⟨rest, rfl⟩ := List.head?_eq_some_iff.mp first
    obtain ⟨q, begins, last⟩ := each p (List.mem_cons_self ..) known
    rw [decompose_mapped step, List.flatMap_cons, List.head?_append, begins]
    exact ⟨q, rfl, last⟩

theorem decompose_start (starts : startCode n = true) : ∃ p ∈ (decompose n).head?, startCode p = true :=
  decompose_head (P := (startCode · = true)) (fun mapped here =>
    have ⟨p, first, same, _⟩ := (mapping_kept mapped).head
    ⟨p, first, same.trans here⟩) n starts

/-- Names decompose into names, with which compatibility has nothing to do unless it has with them. -/
theorem decompose_names : ∀ n, nameCode n = true →
    ∀ p ∈ decompose n, nameCode p = true ∧ (compatibilityBits.testBit n = false → compatibilityBits.testBit p = false) := by
  intro n
  induction n using decompose_rec with
  | whole none =>
    intro isName
    rw [decompose_whole none]
    exact List.forall_mem_singleton.mpr ⟨isName, id⟩
  | @mapped n parts step each =>
    intro isName
    have kept := mapping_kept step
    have names : ∀ p ∈ parts, nameCode p = true := by
      obtain ⟨p, first, -, same, -⟩ := kept.head
      obtain ⟨rest, rfl⟩ := List.head?_eq_some_iff.mp first
      exact List.forall_mem_cons.mpr ⟨same.trans isName, kept.tail⟩
    rw [decompose_mapped step]
    refine List.forall_mem_flatMap.mpr fun p part q inside => ?_
    obtain ⟨isName', plain⟩ := each p part (names p part) q inside
    exact ⟨isName', fun _ => plain (kept.plain p (List.mem_cons_of_mem _ part) (names p part))⟩

theorem testBit_class : classBits.testBit n = true ↔ combiningClass n ≠ 0 := by
  rw [classBits, testBit_bitsOf, classRanges, List.any_map, List.any_eq_true]
  constructor
  · rintro ⟨e, member, within⟩
    have known := List.all_eq_true.mp bits_apart.1.2 e member
    rw [Function.comp_apply, Bool.and_eq_true, decide_eq_true_iff, decide_eq_true_iff] at within
    rw [Bool.and_eq_true, decide_eq_true_iff] at known
    rw [combiningClass, if_neg (by omega)]
    split
    · next a b k found => simpa using (Bool.and_eq_true_iff.mp (all_found bits_apart.1.2 found).1).2
    · next none =>
      rw [Array.find?_eq_none] at none
      exact absurd (by simpa using within) (none e (Array.mem_toList_iff.mp member))
  · intro combines
    unfold combiningClass at combines
    split at combines
    · exact absurd rfl combines
    · split at combines
      · next a b k found =>
        exact ⟨_, Array.mem_toList_iff.mpr (Array.mem_of_find?_eq_some found), by simpa using Array.find?_some found⟩
      · exact absurd rfl combines

theorem attaches_of_class (combines : combiningClass n ≠ 0) : attaches n = true := by
  have beyond : ¬ n < 0x300 := by
    intro below
    exact combines (by rw [combiningClass, if_pos below])
  rw [attaches, bne_iff_ne.mpr combines, Bool.true_or, Bool.and_true, decide_eq_true_iff]
  omega

theorem testBit_attaches (attaches' : attaches n = true) : attachBits.testBit n = true := by
  rw [attaches, Bool.and_eq_true, Bool.or_eq_true, bne_iff_ne, ← testBit_class, classBits, testBit_bitsOf, composesBackward,
    Bool.or_eq_true, Bool.or_eq_true, Bool.or_eq_true] at attaches'
  rw [attachBits, testBit_bitsOf, attachRanges, List.any_cons, List.any_cons, List.any_append, List.any_append, Bool.or_eq_true,
    Bool.or_eq_true, Bool.or_eq_true, Bool.or_eq_true]
  have pair {table : Array (Nat × Nat × Nat)} (inside : table.toList ⊆ pairs)
      (found : (table.any fun e => e.2.2 == n && !compositionExclusions.contains e.1) = true) :
      ((pairs.map fun e => (e.2.2, e.2.2)).any fun r => decide (r.1 ≤ n) && decide (n ≤ r.2)) = true := by
    rw [← Array.any_toList, List.any_eq_true] at found
    obtain ⟨e, member, same⟩ := found
    rw [List.any_map, List.any_eq_true]
    exact ⟨e, inside member, by simp [eq_of_beq (Bool.and_eq_true_iff.mp same).1]⟩
  obtain ⟨-, combines | ((vowel | closing) | script) | extended⟩ := attaches'
  · exact .inr (.inr (.inl combines))
  · exact .inl vowel
  · exact .inr (.inl closing)
  · exact .inr (.inr (.inr (.inl (pair (List.subset_append_left _ _) script))))
  · exact .inr (.inr (.inr (.inl (pair (List.subset_append_right _ _) extended))))

/-- A mark of a class decomposes into what attaches. -/
theorem decompose_class : ∀ n, classBits.testBit n = true → ∀ p ∈ decompose n, attaches p = true := by
  intro n
  induction n using decompose_rec with
  | whole none =>
    intro combines
    rw [decompose_whole none]
    exact List.forall_mem_singleton.mpr (attaches_of_class (testBit_class.1 combines))
  | mapped step each =>
    intro combines
    rw [decompose_mapped step]
    exact List.forall_mem_flatMap.mpr fun p part => each p part ((mapping_kept step).marks (.inl combines) p part)

/-- A decomposition that begins with what attaches is all of that. -/
theorem decompose_shape (n : Nat) : (∀ p ∈ decompose n, attaches p = true) ∨ ∃ p ∈ (decompose n).head?, attaches p = false := by
  cases step : mapping? n with
  | none =>
    rw [decompose_whole step]
    cases marks : attaches n with
    | true => exact .inl (List.forall_mem_singleton.mpr marks)
    | false => exact .inr ⟨n, rfl, marks⟩
  | some parts =>
    have kept := mapping_kept step
    obtain ⟨p, rest, rfl⟩ := List.exists_cons_of_ne_nil (mapping_length step).1
    cases marks : attachBits.testBit p with
    | true =>
      rw [decompose_mapped step]
      exact .inl (List.forall_mem_flatMap.mpr fun q part => decompose_class q (kept.marks (.inr ⟨p, rfl, marks⟩) q part))
    | false =>
      obtain ⟨q, first, plain⟩ := decompose_head (P := (attachBits.testBit · = false)) (fun mapped here =>
        have ⟨p, first, _, _, apart⟩ := (mapping_kept mapped).head
        ⟨p, first, apart here⟩) p marks
      refine .inr ⟨q, ?_, Bool.eq_false_iff.mpr fun attaches => Bool.false_ne_true (plain.symm.trans (testBit_attaches attaches))⟩
      rw [decompose_mapped step, List.flatMap_cons, List.head?_append, first]
      rfl

end

/-! ## Runs of marks -/

section
variable {n : Nat}

theorem attachedEnds_plain (plain : compatibilityBits.testBit n = false) :
    attachedEnds n = (((decompose n).takeWhile attaches).length, ((decompose n).reverse.takeWhile attaches).length) := by
  unfold attachedEnds
  split
  · next a b leading trailing found =>
    refine absurd plain (Bool.not_eq_false _ ▸ ?_)
    rw [compatibilityBits, testBit_bitsOf, List.any_map, List.any_eq_true]
    exact ⟨_, Array.mem_toList_iff.mpr (Array.mem_of_find?_eq_some found), Array.find?_some found⟩
  · rfl

theorem attachedEnds_full (plain : compatibilityBits.testBit n = false) (full : IsFull n) : IsSingle n := by
  rw [IsSingle, attachedEnds_plain plain, decompose_whole full]
  cases marks : attaches n <;> simp [marks]

theorem attachedEnds_class (combines : combiningClass n ≠ 0) (full : IsFull n) : attachedEnds n = (1, 1) := by
  have plain := testBit_apart bits_apart.2.1.2 (testBit_class.2 combines)
  have single := attachedEnds_full plain full
  rwa [IsSingle, if_pos (attaches_of_class combines)] at single

theorem isFull_of_unmapped (other : isHangulSyllable n = false) (unmapped : (mappings.all fun e => e.1 != n) = true) : IsFull n := by
  refine Option.eq_none_iff_forall_ne_some.mpr fun parts mapped => ?_
  obtain ⟨syllable, -⟩ | ⟨-, member⟩ := mapping_cases mapped
  · cases syllable.symm.trans other
  · have apart := List.all_eq_true.mp unmapped _ member
    rw [bne_self_eq_false] at apart
    cases apart

theorem compatibility_short : (compatibilityAttached.toList.all fun e => e.2.2.1 ≤ maxAttached) = true := by
  decide

theorem leading_short (n : Nat) : (attachedEnds n).1 ≤ maxAttached := by
  unfold attachedEnds
  split
  · next found => exact of_decide_eq_true (all_found compatibility_short found).1
  · have short := decompose_length n
    have part := (List.takeWhile_prefix attaches (l := decompose n)).length_le
    rw [maxAttached]
    dsimp only
    omega

/-- The joiner parts a run. -/
theorem attachedEnds_joiner : attachedEnds graphemeJoiner = (0, 0) := by
  obtain ⟨-, plain, apart, unmapped⟩ := mappings_keep.2
  have single := attachedEnds_full plain (isFull_of_unmapped rfl unmapped)
  rwa [IsSingle, if_neg fun marks => Bool.false_ne_true (apart.symm.trans (testBit_attaches marks))] at single

/-- The decomposition of a name has runs as long as those of the name. -/
theorem runLength_names : ∀ {ns : List Nat} {k : Nat}, (∀ n ∈ ns, nameCode n = true) →
    runLength k (ns.flatMap decompose) = runLength k ns
  | [], _, _ => rfl
  | n :: ns, k, names => by
    rw [List.forall_mem_cons] at names
    have one : runLength k (decompose n) = runStep k n := by
      cases step : mapping? n with
      | none => rw [decompose_whole step, runLength_single]
      | some parts =>
        have plain : compatibilityBits.testBit n = false := (mapping_kept step).plain n (List.mem_cons_self ..) names.1
        refine runLength_decompose (fun p inside => ?_) (attachedEnds_plain plain) (decompose_shape n)
        exact attachedEnds_full ((decompose_names n names.1 p inside).2 plain) (decompose_full n p inside)
    rw [List.flatMap_cons, runLength_append, one, runLength_cons]
    exact congrArg _ (funext fun j => runLength_names names.2)

theorem runLength_canonical {ns : List Nat} (names : ∀ n ∈ ns, nameCode n = true) : runLength 0 (canonical ns) = runLength 0 ns := by
  have marks : ∀ p ∈ classed (ns.flatMap decompose), p.2 ≠ 0 → attachedEnds p.1 = (1, 1) := by
    refine List.forall_mem_map.mpr fun p inside combines => ?_
    obtain ⟨n, -, part⟩ := List.mem_flatMap.mp inside
    dsimp only at combines ⊢
    exact attachedEnds_class combines (decompose_full n p part)
  rw [canonical, runLength_orderMarks (List.forall_mem_nil _) marks, List.nil_append, classed, List.map_map]
  exact (congrArg _ (List.map_id _)).trans (runLength_names names)

end

/-! ## Normal forms -/

/-- The code points make up a name. -/
structure AreName (ns : List Nat) : Prop where
  head : ∃ n ∈ ns.head?, startCode n = true
  parts : ∀ n ∈ ns, nameCode n = true

theorem compose_names {a b n : Nat} (composed : compose? a b = some n) :
    (startCode a = true → startCode n = true) ∧ (nameCode a = true → nameCode n = true) := by
  obtain hangul | ⟨member, -⟩ := compose_cases composed
  · have starts := hangul_start (hangulBits_syllable (hangulCompose_parts hangul).1)
    exact ⟨fun _ => starts, fun _ => nameCode_of_start starts⟩
  · obtain ⟨p, first, start, name, -⟩ := (mapping_kept (mapping_pair member)).head
    obtain rfl := Option.some.inj first
    exact ⟨start.symm.trans, name.symm.trans⟩

theorem compose_start {a b n : Nat} (composed : compose? a b = some n) : startCode a = true → startCode n = true :=
  (compose_names composed).1

section
variable {ns : List Nat}

theorem partRuns_names (names : ∀ n ∈ ns, nameCode n = true) (k : Nat) : ∀ n ∈ partRuns k ns, nameCode n = true := by
  intro n member
  obtain given | rfl := of_mem_partRuns member
  · exact names n given
  · exact mappings_keep.2.1

theorem canonical_names (names : ∀ n ∈ ns, nameCode n = true) : ∀ n ∈ canonical ns, nameCode n = true := by
  intro n member
  obtain ⟨m, given, part⟩ := mem_canonical.mp member
  exact (decompose_names m (names m given) n part).1

theorem composeAll_names (names : ∀ n ∈ ns, nameCode n = true) : ∀ n ∈ composeAll (classed ns), nameCode n = true :=
  (composeAll_closed compose_start (fun composed => (compose_names composed).2) (List.forall_mem_map.mpr names)).2

theorem canonical_start (starts : ∃ n ∈ ns.head?, startCode n = true) : ∃ n ∈ (canonical ns).head?, startCode n = true := by
  obtain ⟨n, first, start⟩ := starts
  obtain ⟨ns, rfl⟩ := List.head?_eq_some_iff.mp first
  obtain ⟨p, first, start⟩ := decompose_start start
  obtain ⟨ps, parts⟩ := List.head?_eq_some_iff.mp first
  have starter : combiningClass p = 0 := by
    by_contra combines
    exact Bool.false_ne_true ((testBit_apart bits_apart.2.1.1 start).symm.trans (testBit_class.2 combines))
  refine ⟨p, ?_, start⟩
  rw [canonical, List.flatMap_cons, parts, List.cons_append, classed_cons, orderMarks, starter]
  rfl

/-- The normal form of a name is a name. -/
theorem normalCodes_name (name : AreName ns) : AreName (normalCodes ns) := by
  have starts : ∃ n ∈ (partRuns 0 ns).head?, startCode n = true := by
    obtain ⟨n, first, start⟩ := name.head
    obtain ⟨ns, rfl⟩ := List.head?_eq_some_iff.mp first
    have short := leading_short n
    unfold partRuns
    simp only
    split
    · exact ⟨n, rfl, start⟩
    · rw [if_neg (by omega)]
      exact ⟨n, rfl, start⟩
  rw [normalCodes_eq]
  obtain ⟨n, first, start⟩ := canonical_start starts
  have names := canonical_names (partRuns_names name.parts 0)
  refine ⟨?_, composeAll_names names⟩
  have marks : ∀ m ∈ classed (canonical (partRuns 0 ns)), nameCode m.1 = true := List.forall_mem_map.mpr names
  obtain ⟨heads, -⟩ := composeAll_closed compose_start (fun composed => (compose_names composed).2) marks
  refine heads (n, combiningClass n) ?_ start
  rw [classed, List.head?_map, first]
  rfl

/-- The normal form of a name is its own normal form. -/
theorem normalCodes_stable (names : ∀ n ∈ ns, nameCode n = true) : normalCodes (normalCodes ns) = normalCodes ns := by
  have parted := partRuns_names names 0
  have order := canonical_composeAll (partRuns 0 ns)
  have composed := composeAll_names (canonical_names parted)
  rw [← normalCodes_eq] at order composed
  have short : (runLength 0 (normalCodes ns)).isSome = true := by
    rw [← runLength_canonical composed, order, runLength_canonical parted]
    exact partRuns_short attachedEnds_joiner fun n _ => leading_short n
  rw [normalCodes_eq (normalCodes ns), partRuns_of_short short, order, ← normalCodes_eq]

/-- A short text that is in full decomposition and in order is only composed. -/
theorem normalCodes_short (full : ∀ n ∈ ns, IsFull n) (plain : ∀ n ∈ ns, compatibilityBits.testBit n = false)
    (short : ns.length ≤ maxAttached) (sorted : InOrder 0 (classed ns)) : normalCodes ns = composeAll (classed ns) := by
  have single : ∀ n ∈ ns, IsSingle n := fun n member => attachedEnds_full (plain n member) (full n member)
  have unparted : partRuns 0 ns = ns := partRuns_of_short (by rw [runLength_short single (by rwa [Nat.zero_add])]; rfl)
  rw [normalCodes_eq, unparted, classed_canonical, flatMap_full full, orderMarks_of_inOrder sorted (List.forall_mem_nil _),
    List.nil_append]

end

end PineLang.Text
