import Mathlib.Data.Option.Basic
import Mathlib.Tactic.SplitIfs
import PineLang.Proofs.CSpelling
import PineLang.Proofs.SpelledTokens

/-!
Names are words of C. The lexer takes letters, digits and marks of any script into a name, and brings it
into normal form, which decomposes some of them. Five code points decompose into a sign of ASCII, but none
of them is a letter, a digit or a mark, and no decomposition leads to one of them (`mapping_sound`). So no
name of a source has a sign in it, and none begins with a digit (`name_word`).
-/
namespace PineLang

namespace Text

/-! ## Code points of words -/

/-- The code point of a character that words have. -/
def partCode (n : Nat) : Bool := decide n.isValidChar && (0x80 ≤ n || C.isWordPart (UInt8.ofNat n))

/-- The code point of a character that words start with. -/
def headCode (n : Nat) : Bool := decide n.isValidChar && (0x80 ≤ n || C.isWordStart (UInt8.ofNat n))

theorem toNat_ofNat {n : Nat} (valid : n.isValidChar) : (Char.ofNat n).toNat = n := by
  rw [Char.ofNat, dif_pos valid]
  rfl

theorem partCode_toNat (c : Char) : partCode c.toNat = C.isWordChar c := by
  have valid : c.toNat.isValidChar := c.valid
  simp [partCode, C.isWordChar, valid]

theorem headCode_toNat (c : Char) : headCode c.toNat = C.isWordHead c := by
  have valid : c.toNat.isValidChar := c.valid
  simp [headCode, C.isWordHead, valid]

theorem partCode_ofNat {n : Nat} (isPart : partCode n = true) : C.isWordChar (Char.ofNat n) = true := by
  have valid : n.isValidChar := of_decide_eq_true (Bool.and_eq_true_iff.mp isPart).1
  rwa [← partCode_toNat, toNat_ofNat valid]

theorem headCode_ofNat {n : Nat} (isHead : headCode n = true) : C.isWordHead (Char.ofNat n) = true := by
  have valid : n.isValidChar := of_decide_eq_true (Bool.and_eq_true_iff.mp isHead).1
  rwa [← headCode_toNat, toNat_ofNat valid]

theorem partCode_of_head {n : Nat} (isHead : headCode n = true) : partCode n = true := by
  rw [headCode, Bool.and_eq_true, Bool.or_eq_true] at isHead
  rw [partCode, C.isWordPart, Bool.and_eq_true, Bool.or_eq_true, Bool.or_eq_true]
  exact ⟨isHead.1, isHead.2.imp_right .inl⟩

/-- Code points between ASCII and the surrogates start words. -/
theorem headCode_basic {n : Nat} (least : 0x80 ≤ n) (most : n < 0xD800) : headCode n = true := by
  have valid : n.isValidChar := .inl most
  simp [headCode, valid, least]

/-- The code points make up a word. -/
structure AreWord (ns : List Nat) : Prop where
  head : ∃ n ∈ ns.head?, headCode n = true
  parts : ∀ n ∈ ns, partCode n = true

theorem AreWord.isWord {ns : List Nat} (word : AreWord ns) : C.isWord (String.ofList (ns.map Char.ofNat)) = true := by
  obtain ⟨n, first, isHead⟩ := word.head
  obtain ⟨tail, rfl⟩ := List.head?_eq_some_iff.mp first
  rw [C.isWord, String.toList_ofList, List.map_cons, Bool.and_eq_true, List.all_map, List.all_eq_true]
  exact ⟨headCode_ofNat isHead, fun m member => partCode_ofNat (word.parts m (List.mem_cons_of_mem _ member))⟩

/-! ## Decomposition -/

/-- The code points whose decomposition has a sign of ASCII. -/
def signed : List Nat := [0x37E, 0x1FEF, 0x2260, 0x226E, 0x226F]

/-- A word can start with the code point, and with each that it decomposes into. -/
def isSound (n : Nat) : Bool := headCode n && !signed.contains n

theorem isSound_basic {n : Nat} (least : 0x1100 ≤ n) (most : n < 0x1200) : isSound n = true := by
  have other : signed.contains n = false := by
    simp only [signed, List.contains_eq_mem, List.mem_cons, List.not_mem_nil, or_false, decide_eq_false_iff_not]
    omega
  rw [isSound, headCode_basic (by omega) (by omega), other]
  rfl

theorem hangulParts_sound {n : Nat} (syllable : isHangulSyllable n = true) :
    hangulParts n ≠ [] ∧ ∀ m ∈ hangulParts n, isSound m = true := by
  rw [isHangulSyllable, hangulBase, Bool.and_eq_true, decide_eq_true_iff, decide_eq_true_iff] at syllable
  have leading : isSound (0x1100 + (n - hangulBase) / 588) = true := by
    rw [hangulBase]
    exact isSound_basic (by omega) (by omega)
  have vowel : isSound (0x1161 + (n - hangulBase) % 588 / 28) = true := isSound_basic (by omega) (by omega)
  have trailing : isSound (0x11A7 + (n - hangulBase) % 28) = true := isSound_basic (by omega) (by omega)
  unfold hangulParts
  simp only
  split
  · simp [leading, vowel]
  · simp [leading, vowel, trailing]

/-- The range has no code point that decomposes into a sign. -/
def isUnsigned (r : Nat × Nat) : Bool := signed.all fun n => !(r.1 ≤ n && n ≤ r.2)

/-- A code point beyond ASCII, or a sign or letter of ASCII that one of these is mapped to. -/
def isBeyond (n : Nat) : Bool := 0x80 ≤ n || n == 0x3B || n == 0x4B || n == 0x60

/-- What the entries of the tables decompose into is sound, but for the signs, and never all within ASCII. The ranges of
    letters, digits and marks have no sign, and within ASCII they have letters and digits only. -/
structure TablesSound : Prop where
  basic : (basicSingletons.toList.all fun e => signed.contains e.1 || isSound e.2) = true
  ideograph : (ideographSingletons.toList.all fun e => isSound e.2) = true
  script : (scriptPairs.toList.all fun e => headCode e.1 && (isSound e.2.1 && isSound e.2.2)) = true
  extendedHeads : (extendedPairs.toList.all fun e => headCode e.1) = true
  extended : (extendedPairs.toList.all fun e => signed.contains e.1 || isSound e.2.1 && isSound e.2.2) = true
  basicBeyond : (basicSingletons.toList.all fun e => isBeyond e.2) = true
  ideographBeyond : (ideographSingletons.toList.all fun e => isBeyond e.2) = true
  scriptBeyond : (scriptPairs.toList.all fun e => 0x80 ≤ e.1 && isBeyond e.2.2) = true
  extendedBeyond : (extendedPairs.toList.all fun e => 0x80 ≤ e.1 && isBeyond e.2.2) = true
  letters : (letterRanges.toList.all fun r => isUnsigned r &&
    (0x80 ≤ r.1 || (0x41 ≤ r.1 && r.2 ≤ 0x5A) || (0x61 ≤ r.1 && r.2 ≤ 0x7A))) = true
  digits : (digitRanges.toList.all fun r => isUnsigned r && (0x80 ≤ r.1 || (0x30 ≤ r.1 && r.2 ≤ 0x39))) = true
  marks : (markRanges.toList.all fun r => isUnsigned r && 0x80 ≤ r.1) = true

theorem tables_sound : TablesSound := by
  constructor <;> decide +kernel

/-- What holds of all entries of a table holds of the one that is found. -/
theorem all_found {α : Type} {table : Array α} {test known : α → Bool} (all : table.toList.all known = true) {e : α}
    (found : table.find? test = some e) : known e = true ∧ test e = true :=
  ⟨List.all_eq_true.mp all e (Array.mem_toList_iff.mpr (Array.mem_of_find?_eq_some found)), Array.find?_some found⟩

/-- What a code point is mapped to never leads to a sign, nor to a digit. -/
theorem mapping_sound {n : Nat} {parts : List Nat} (mapped : mapping? n = some parts) (unsigned : signed.contains n = false) :
    parts ≠ [] ∧ ∀ m ∈ parts, isSound m = true := by
  unfold mapping? at mapped
  split at mapped
  · cases mapped
  · split at mapped
    · next syllable =>
      obtain rfl := Option.some.inj mapped
      exact hangulParts_sound syllable
    · simp only at mapped
      split at mapped
      · next found =>
        obtain rfl := Option.some.inj mapped
        refine ⟨List.cons_ne_nil _ _, List.forall_mem_singleton.mpr ?_⟩
        split at found
        · obtain ⟨known, same⟩ := all_found (TablesSound.basic tables_sound) found
          rw [beq_iff_eq] at same
          rw [same, unsigned, Bool.false_or] at known
          exact known
        · exact (all_found (TablesSound.ideograph tables_sound) found).1
      · obtain ⟨⟨k, a, b⟩, found, rfl⟩ := Option.map_eq_some_iff.mp mapped
        have both : isSound a = true ∧ isSound b = true := by
          split at found
          · have known := (all_found (TablesSound.script tables_sound) found).1
            simp only [Bool.and_eq_true] at known
            exact known.2
          · obtain ⟨known, same⟩ := all_found (TablesSound.extended tables_sound) found
            have same : k = n := eq_of_beq same
            rw [same, unsigned, Bool.false_or, Bool.and_eq_true] at known
            exact known
        exact ⟨List.cons_ne_nil _ _, by simp [both]⟩

-- An accented letter is sound, and the sign of inequality is not.
example : isSound 0xE1 = true ∧ isSound 0x2260 = false := by decide

/-- A code point decomposes into itself or into code points that start words. -/
theorem decompose_sound : ∀ (depth : Nat) {n : Nat}, signed.contains n = false →
    decomposeWithin depth n = [n] ∨ decomposeWithin depth n ≠ [] ∧ ∀ m ∈ decomposeWithin depth n, headCode m = true
  | 0, n, _ => .inl rfl
  | depth + 1, n, unsigned => by
    unfold decomposeWithin
    split
    · exact .inl rfl
    · next parts mapped =>
      obtain ⟨some, sound⟩ := mapping_sound mapped unsigned
      have each : ∀ p ∈ parts, decomposeWithin depth p ≠ [] ∧ ∀ m ∈ decomposeWithin depth p, headCode m = true := by
        intro p member
        have known := sound p member
        rw [isSound, Bool.and_eq_true, Bool.not_eq_true'] at known
        obtain same | heads := decompose_sound depth known.2
        · rw [same]
          exact ⟨List.cons_ne_nil _ _, List.forall_mem_singleton.mpr known.1⟩
        · exact heads
      refine .inr ⟨?_, ?_⟩
      · obtain ⟨p, rest, rfl⟩ := List.exists_cons_of_ne_nil some
        rw [List.flatMap_cons]
        exact List.append_ne_nil_of_left_ne_nil (each p (List.mem_cons_self ..)).1 _
      · rw [List.forall_mem_flatMap]
        exact fun p member => (each p member).2

/-- Parting runs adds nothing but joiners. -/
theorem of_mem_partRuns {m : Nat} : ∀ {ns : List Nat} {attached : Nat}, m ∈ partRuns attached ns → m ∈ ns ∨ m = graphemeJoiner
  | [], _, member => .inl member
  | n :: ns, attached, member => by
    have later {k : Nat} (member : m ∈ partRuns k ns) : m ∈ n :: ns ∨ m = graphemeJoiner :=
      (of_mem_partRuns member).imp_left (List.mem_cons_of_mem n)
    unfold partRuns at member
    simp only at member
    split at member
    · obtain rfl | rest := List.mem_cons.mp member
      · exact .inl (List.mem_cons_self ..)
      · exact later rest
    · split at member
      · obtain joiner | rest := List.mem_cons.mp member
        · exact .inr joiner
        · obtain rfl | rest := List.mem_cons.mp rest
          · exact .inl (List.mem_cons_self ..)
          · exact later rest
      · obtain rfl | rest := List.mem_cons.mp member
        · exact .inl (List.mem_cons_self ..)
        · exact later rest

/-- The decomposition of code points of words, where long runs of marks are parted. -/
theorem parted_word {ns : List Nat} (word : AreWord ns) (unsigned : ∀ n ∈ ns, signed.contains n = false) (attached : Nat) :
    AreWord ((partRuns attached ns).flatMap decompose) := by
  have joiner : headCode graphemeJoiner = true ∧ signed.contains graphemeJoiner = false := by decide
  have first : ∃ m ∈ (partRuns attached ns).head?, headCode m = true := by
    obtain ⟨n, isFirst, isHead⟩ := word.head
    obtain ⟨tail, rfl⟩ := List.head?_eq_some_iff.mp isFirst
    unfold partRuns
    simp only
    split
    · exact ⟨n, rfl, isHead⟩
    · split
      · exact ⟨graphemeJoiner, rfl, joiner.1⟩
      · exact ⟨n, rfl, isHead⟩
  have known : ∀ m ∈ partRuns attached ns, partCode m = true ∧ signed.contains m = false := by
    intro m member
    obtain given | rfl := of_mem_partRuns member
    · exact ⟨word.parts m given, unsigned m given⟩
    · exact ⟨partCode_of_head joiner.1, joiner.2⟩
  generalize partRuns attached ns = runs at first known
  obtain ⟨m, isFirst, isHead⟩ := first
  obtain ⟨tail, rfl⟩ := List.head?_eq_some_iff.mp isFirst
  constructor
  · rw [List.flatMap_cons, decompose]
    obtain same | ⟨some, heads⟩ := decompose_sound mappingDepth (known m (List.mem_cons_self ..)).2
    · exact ⟨m, by rw [same]; rfl, isHead⟩
    · obtain ⟨p, rest, shape⟩ := List.exists_cons_of_ne_nil some
      rw [shape] at heads ⊢
      exact ⟨p, rfl, heads p (List.mem_cons_self ..)⟩
  · rw [List.forall_mem_flatMap]
    intro n member p part
    obtain same | ⟨-, heads⟩ := decompose_sound mappingDepth (known n member).2
    · rw [decompose, same, List.mem_singleton] at part
      rw [part]
      exact (known n member).1
    · exact partCode_of_head (heads p part)

/-! ## Order and composition -/

/-- A mark that is not a starter can start a word. -/
theorem combining_head {n : Nat} (valid : partCode n = true) (combines : combiningClass n ≠ 0) : headCode n = true := by
  have beyond : 0x80 ≤ n := by
    by_contra ascii
    refine combines ?_
    rw [combiningClass, if_pos (by omega)]
  rw [partCode, Bool.and_eq_true] at valid
  simp [headCode, valid.1, beyond]

theorem mem_insertMark {m p : Nat × Nat} : ∀ {xs : List (Nat × Nat)}, p ∈ insertMark m xs ↔ p = m ∨ p ∈ xs
  | [] => by simp [insertMark]
  | x :: xs => by
    unfold insertMark
    split
    · simp
    · rw [List.mem_cons, mem_insertMark, List.mem_cons, or_left_comm]

theorem mem_orderMarks {p : Nat × Nat} : ∀ {xs run : List (Nat × Nat)}, p ∈ orderMarks run xs ↔ p ∈ run ∨ p ∈ xs
  | [], run => by simp [orderMarks]
  | x :: xs, run => by
    unfold orderMarks
    split
    · simp [mem_orderMarks]
    · rw [mem_orderMarks, mem_insertMark, List.mem_cons, or_assoc, or_left_comm]

/-- Ordering the marks does not bring to the front what could not start a word. -/
theorem orderMarks_head : ∀ {xs run : List (Nat × Nat)}, (∀ p ∈ run, headCode p.1 = true) →
    (∀ p ∈ xs, p.2 ≠ 0 → headCode p.1 = true) → (run = [] → ∃ p ∈ xs.head?, headCode p.1 = true) →
      ∃ p ∈ (orderMarks run xs).head?, headCode p.1 = true
  | [], run, heads, _, first => by
    rw [orderMarks]
    cases run with
    | nil => exact first rfl
    | cons p run => exact ⟨p, rfl, heads p (List.mem_cons_self ..)⟩
  | x :: xs, run, heads, marks, first => by
    rw [List.forall_mem_cons] at marks
    unfold orderMarks
    split
    · cases run with
      | nil => exact first rfl
      | cons p run => exact ⟨p, rfl, heads p (List.mem_cons_self ..)⟩
    · next combines =>
      rw [beq_iff_eq] at combines
      refine orderMarks_head ?_ marks.2 ?_
      · intro p member
        obtain rfl | old := mem_insertMark.mp member
        · exact marks.1 combines
        · exact heads p old
      · intro none
        have member : x ∈ insertMark x run := mem_insertMark.mpr (.inl rfl)
        rw [none] at member
        cases member

theorem hangulCompose_head {a b n : Nat} (composed : hangulCompose? a b = some n) : headCode n = true := by
  unfold hangulCompose? at composed
  split at composed
  · next parts =>
    rw [Bool.and_eq_true, Bool.and_eq_true, Bool.and_eq_true] at parts
    obtain ⟨⟨⟨a₀, a₁⟩, b₀⟩, b₁⟩ := parts
    rw [decide_eq_true_iff] at a₀ a₁ b₀ b₁
    obtain rfl := Option.some.inj composed
    rw [hangulBase]
    exact headCode_basic (by omega) (by omega)
  · split at composed
    · next parts =>
      rw [Bool.and_eq_true, Bool.and_eq_true, Bool.and_eq_true] at parts
      obtain ⟨⟨⟨syllable, -⟩, b₀⟩, b₁⟩ := parts
      rw [isHangulSyllable, hangulBase, Bool.and_eq_true, decide_eq_true_iff, decide_eq_true_iff] at syllable
      rw [decide_eq_true_iff] at b₀ b₁
      obtain rfl := Option.some.inj composed
      exact headCode_basic (by omega) (by omega)
    · cases composed

/-- What code points compose to can start a word. -/
theorem compose_head {a b n : Nat} (composed : compose? a b = some n) : headCode n = true := by
  unfold compose? at composed
  split at composed
  · next m hangul =>
    obtain rfl := Option.some.inj composed
    exact hangulCompose_head hangul
  · split at composed
    · next m _ _ found =>
      split at composed
      · cases composed
      · obtain rfl := Option.some.inj composed
        rw [Option.orElse_eq_some] at found
        obtain script | ⟨-, extended⟩ := found
        · exact (Bool.and_eq_true_iff.mp (all_found (TablesSound.script tables_sound) script).1).1
        · exact (all_found (TablesSound.extendedHeads tables_sound) extended).1
    · cases composed

section Closed

variable {head part : Nat → Prop} (heads : ∀ {a b n : Nat}, compose? a b = some n → head a → head n)
  (parts : ∀ {a b n : Nat}, compose? a b = some n → part a → part n)

include heads parts

/-- What a code point composed of two takes on from the first holds of what marks are composed into. -/
theorem composeFrom_closed : ∀ {ms : List (Nat × Nat)} {starter : Nat} {left : List Nat} {k : Option Nat},
    part starter → (∀ n ∈ left, part n) → (∀ m ∈ ms, part m.1) →
      (∃ n ∈ (composeFrom starter left k ms).head?, head starter → head n) ∧ ∀ n ∈ composeFrom starter left k ms, part n
  | [], starter, left, _, isPart, behind, _ => by
    rw [composeFrom]
    refine ⟨⟨starter, rfl, id⟩, List.forall_mem_cons.mpr ⟨isPart, ?_⟩⟩
    intro n member
    exact behind n (List.mem_reverse.mp member)
  | (m, _) :: ms, starter, left, _, isPart, behind, marks => by
    rw [List.forall_mem_cons] at marks
    unfold composeFrom
    simp only
    split
    · next composite composed =>
      have composed := (Option.ite_none_left_eq_some.mp composed).2
      obtain ⟨⟨n, first, isHead⟩, all⟩ := composeFrom_closed (parts composed isPart) behind marks.2
      exact ⟨⟨n, first, fun before => isHead (heads composed before)⟩, all⟩
    · split
      · refine ⟨⟨starter, rfl, id⟩, List.forall_mem_cons.mpr ⟨isPart, List.forall_mem_append.mpr ⟨?_, ?_⟩⟩⟩
        · intro n member
          exact behind n (List.mem_reverse.mp member)
        · exact (composeFrom_closed marks.1 (List.forall_mem_nil _) marks.2).2
      · exact composeFrom_closed isPart (List.forall_mem_cons.mpr ⟨marks.1, behind⟩) marks.2

theorem composeAll_closed : ∀ {ms : List (Nat × Nat)}, (∀ m ∈ ms, part m.1) →
    (∀ m ∈ ms.head?, head m.1 → ∃ n ∈ (composeAll ms).head?, head n) ∧ ∀ n ∈ composeAll ms, part n
  | [], _ => ⟨nofun, List.forall_mem_nil _⟩
  | (m, k) :: ms, marks => by
    rw [List.forall_mem_cons] at marks
    unfold composeAll
    split
    · obtain ⟨⟨n, first, isHead⟩, all⟩ := composeFrom_closed heads parts (k := none) marks.1 (List.forall_mem_nil _) marks.2
      exact ⟨by rintro _ ⟨⟩ before; exact ⟨n, first, isHead before⟩, all⟩
    · exact ⟨by rintro _ ⟨⟩ before; exact ⟨m, rfl, before⟩, List.forall_mem_cons.mpr ⟨marks.1, (composeAll_closed marks.2).2⟩⟩

end Closed

/-- Composition takes a word to a word. -/
theorem composeAll_word {ms : List (Nat × Nat)} (first : ∃ m ∈ ms.head?, headCode m.1 = true)
    (parts : ∀ m ∈ ms, partCode m.1 = true) : AreWord (composeAll ms) := by
  have kept {a b n : Nat} (composed : compose? a b = some n) (_ : headCode a = true) : headCode n = true := compose_head composed
  obtain ⟨heads, all⟩ := composeAll_closed kept (fun composed _ => partCode_of_head (compose_head composed)) parts
  obtain ⟨m, isFirst, isHead⟩ := first
  exact ⟨heads m isFirst isHead, all⟩

/-- The code points of the normal form. -/
def normalCodes (ns : List Nat) : List Nat :=
  composeAll (orderMarks [] (((partRuns 0 ns).flatMap decompose).map fun n => (n, combiningClass n)))

theorem nfc_eq (s : String) : nfc s = String.ofList ((normalCodes (s.toList.map Char.toNat)).map Char.ofNat) := rfl

/-- The normal form of a word is a word. -/
theorem normalCodes_word {codes : List Nat} (word : AreWord codes) (unsigned : ∀ n ∈ codes, signed.contains n = false) :
    AreWord (normalCodes codes) := by
  have parted := parted_word word unsigned 0
  rw [normalCodes]
  generalize (partRuns 0 codes).flatMap decompose = ns at parted
  have marks : ∀ p ∈ ns.map (fun n => (n, combiningClass n)), partCode p.1 = true ∧ (p.2 ≠ 0 → headCode p.1 = true) := by
    intro p member
    obtain ⟨n, inside, same⟩ := List.mem_map.mp member
    have isPart := parted.parts n inside
    rw [← same]
    dsimp only
    exact ⟨isPart, combining_head isPart⟩
  refine composeAll_word ?_ ?_
  · refine orderMarks_head (List.forall_mem_nil _) (fun p member => (marks p member).2) fun _ => ?_
    obtain ⟨n, first, isHead⟩ := parted.head
    exact ⟨(n, combiningClass n), by rw [List.head?_map, first]; rfl, isHead⟩
  · intro p member
    obtain run | given := mem_orderMarks.mp member
    · cases run
    · exact (marks p given).1

/-! ## Characters of names -/

/-- A code point of the ranges lies in one of them, which has what all of them have. -/
theorem contained {rs : Ranges} {n : Nat} {known : Nat × Nat → Bool} (contains : rs.contains n = true)
    (all : (rs.toList.all fun r => isUnsigned r && known r) = true) :
    signed.contains n = false ∧ ∃ r, known r = true ∧ r.1 ≤ n ∧ n ≤ r.2 := by
  rw [Ranges.contains, ← Array.any_toList, List.any_eq_true] at contains
  obtain ⟨r, member, within⟩ := contains
  rw [Bool.and_eq_true, decide_eq_true_iff, decide_eq_true_iff] at within
  have both := List.all_eq_true.mp all r member
  rw [Bool.and_eq_true] at both
  refine ⟨?_, r, both.2, within⟩
  by_contra isSigned
  rw [Bool.not_eq_false, List.contains_iff_mem] at isSigned
  have apart := List.all_eq_true.mp both.1 n isSigned
  simp [within] at apart

theorem ascii_codes : ∀ n < 0x80,
    ((0x41 ≤ n ∧ n ≤ 0x5A) ∨ (0x61 ≤ n ∧ n ≤ 0x7A) → C.isWordStart (UInt8.ofNat n) = true) ∧
    (0x30 ≤ n ∧ n ≤ 0x39 → C.isWordPart (UInt8.ofNat n) = true) := by
  decide

theorem isLetter_sound {c : Char} (letter : isLetter c = true) : signed.contains c.toNat = false ∧ C.isWordHead c = true := by
  obtain ⟨unsigned, r, known, least, most⟩ := contained letter (TablesSound.letters tables_sound)
  refine ⟨unsigned, ?_⟩
  simp only [Bool.or_eq_true, Bool.and_eq_true, decide_eq_true_eq] at known
  rw [C.isWordHead, Bool.or_eq_true, decide_eq_true_iff]
  by_cases beyond : 0x80 ≤ c.toNat
  · exact .inl beyond
  · exact .inr ((ascii_codes _ (by omega)).1 (by omega))

theorem isDigit_sound {c : Char} (digit : isDigit c = true) : signed.contains c.toNat = false ∧ C.isWordChar c = true := by
  obtain ⟨unsigned, r, known, least, most⟩ := contained digit (TablesSound.digits tables_sound)
  refine ⟨unsigned, ?_⟩
  simp only [Bool.or_eq_true, Bool.and_eq_true, decide_eq_true_eq] at known
  rw [C.isWordChar, Bool.or_eq_true, decide_eq_true_iff]
  by_cases beyond : 0x80 ≤ c.toNat
  · exact .inl beyond
  · exact .inr ((ascii_codes _ (by omega)).2 (by omega))

theorem isMark_sound {c : Char} (mark : isMark c = true) : signed.contains c.toNat = false ∧ C.isWordChar c = true := by
  obtain ⟨unsigned, r, known, least, most⟩ := contained mark (TablesSound.marks tables_sound)
  refine ⟨unsigned, ?_⟩
  rw [decide_eq_true_iff] at known
  rw [C.isWordChar, Bool.or_eq_true, decide_eq_true_iff]
  exact .inl (by omega)

example : C.isWordHead (Char.ofNat 0xE1) = true ∧ C.isWordChar (Char.ofNat 0x301) = true := by decide

theorem isWordChar_of_head {c : Char} (head : C.isWordHead c = true) : C.isWordChar c = true := by
  rw [← headCode_toNat] at head
  rw [← partCode_toNat]
  exact partCode_of_head head

end Text

namespace Lexer
open Text (decodeHead unitsFrom Unit8)

theorem isNameStart_sound {c : Char} (starts : isNameStart c = true) :
    Text.signed.contains c.toNat = false ∧ C.isWordHead c = true := by
  rw [isNameStart, Bool.or_eq_true] at starts
  obtain underscore | letter := starts
  · rw [eq_of_beq underscore]
    decide
  · exact Text.isLetter_sound letter

theorem isNameChar_sound {c : Char} (isName : isNameChar c = true) :
    Text.signed.contains c.toNat = false ∧ C.isWordChar c = true := by
  rw [isNameChar, Bool.or_eq_true, Bool.or_eq_true, Bool.or_eq_true] at isName
  obtain ((underscore | letter) | digit) | mark := isName
  · rw [eq_of_beq underscore]
    decide
  · obtain ⟨unsigned, head⟩ := Text.isLetter_sound letter
    exact ⟨unsigned, Text.isWordChar_of_head head⟩
  · exact Text.isDigit_sound digit
  · exact Text.isMark_sound mark

/-! ## Characters of a word -/

/-- Where a longer character does not have the room it takes, a byte is read alone. -/
private theorem alone_of_short (test : Bool) (c : Char) {m n : Nat} (short : n < m) :
    (if test then (c, m) else (Text.replacement, 1)).2 ≤ n →
      (Text.replacement, 1) = if test then (c, m) else (Text.replacement, 1) := by
  intro room
  cases test with
  | true => exact absurd room (Nat.not_le_of_lt short)
  | false => rfl

/-- What is decoded at the head does not depend on the bytes behind it. -/
theorem decodeHead_take {bs : Bytes} {n : Nat} (room : (decodeHead bs).2 ≤ n) : decodeHead (bs.take n) = decodeHead bs := by
  cases bs with
  | nil => rw [List.take_nil]
  | cons a rest =>
    obtain ⟨n, rfl⟩ : ∃ k, n = k + 1 := ⟨n - 1, by have := (decodeHead_width a rest).1; omega⟩
    rw [List.take_succ_cons]
    revert room
    unfold decodeHead
    simp only
    split
    · exact fun _ => rfl
    · split
      · exact fun _ => rfl
      · split
        · rcases rest with _ | ⟨b, rest⟩
          · exact fun _ => by rw [List.take_nil]
          · rcases n with _ | n
            · exact alone_of_short _ _ (by omega)
            · exact fun _ => rfl
        · split
          · rcases rest with _ | ⟨b, _ | ⟨c, rest⟩⟩ <;> rcases n with _ | _ | n
            all_goals first | exact fun _ => rfl | exact alone_of_short _ _ (by omega)
          · split
            · rcases rest with _ | ⟨b, _ | ⟨c, _ | ⟨d, rest⟩⟩⟩ <;> rcases n with _ | _ | _ | n
              all_goals first | exact fun _ => rfl | exact alone_of_short _ _ (by omega)
            · exact fun _ => rfl

/-- A stray byte and a decoded character are read as what is decoded there. -/
theorem unit_toChar (b : UInt8) (rest : Bytes) :
    (if (decodeHead (b :: rest)).2 == 1 && b ≥ 0x80 then Unit8.stray b else .char (decodeHead (b :: rest)).1).toChar =
      (decodeHead (b :: rest)).1 := by
  split
  · next stray =>
    rw [Bool.and_eq_true, beq_iff_eq, decide_eq_true_iff, ge_iff_le, UInt8.le_iff_toNat_le] at stray
    obtain ⟨one, beyond⟩ := stray
    have head := Text.decodeHead_head b rest
    generalize decodeHead (b :: rest) = r at *
    cases head with
    | ascii low => exact absurd beyond (Nat.not_le_of_lt low)
    | stray _ => rfl
    | longer _ _ _ long _ => exact absurd one (Nat.ne_of_gt long)
  · rfl

theorem nameExtent_skip : ∀ {bs : Bytes} {skip : Nat}, skip ≤ bs.length → skip ≤ nameExtent skip bs
  | _, 0, _ => Nat.zero_le _
  | [], skip + 1, room => by simp at room
  | b :: bs, skip + 1, room => by
    rw [nameExtent]
    exact Nat.succ_le_succ (nameExtent_skip (Nat.le_of_succ_le_succ room))

theorem isNameChar_of_byte {b : UInt8} (isName : isNameByte b = true) : isNameChar (Char.ofNat b.toNat) = true := by
  rw [isNameByte, Bool.or_eq_true] at isName
  obtain starts | decimal := isName
  · have start := isNameStart_of_byte starts
    rw [isNameStart] at start
    rw [isNameChar, start]
    rfl
  · have digits : (0x30, 0x39) ∈ Text.digitRanges.toList := List.mem_cons_self
    rw [isDecimal, Bool.and_eq_true, decide_eq_true_iff, decide_eq_true_iff, UInt8.le_iff_toNat_le, UInt8.le_iff_toNat_le] at decimal
    have digit : Text.isDigit (Char.ofNat b.toNat) = true := by
      rw [Text.isDigit, toNat_ofByte, contains_of_mem digits decimal.1 decimal.2]
    rw [isNameChar, digit, Bool.or_true, Bool.true_or]

theorem units_cons (b : UInt8) (rest : Bytes) : (unitsFrom 0 (b :: rest)).map Unit8.toChar =
    (decodeHead (b :: rest)).1 :: (unitsFrom ((decodeHead (b :: rest)).2 - 1) rest).map Unit8.toChar := by
  rw [unitsFrom, List.map_cons, unit_toChar]

/-- The characters that continue a name. -/
theorem nameExtent_chars : ∀ {bs : Bytes} {skip : Nat}, skip ≤ bs.length →
    ∀ c ∈ (unitsFrom skip (bs.take (nameExtent skip bs))).map Unit8.toChar, isNameChar c = true
  | [], skip, _ => by
    rw [List.take_nil]
    cases skip <;> exact fun _ none => absurd none List.not_mem_nil
  | b :: bs, skip + 1, room => by
    rw [nameExtent, List.take_succ_cons, unitsFrom]
    exact nameExtent_chars (Nat.le_of_succ_le_succ room)
  | b :: bs, 0, _ => by
    have width := decodeHead_width b bs
    unfold nameExtent
    simp only
    split
    · next ascii =>
      have one (rest : Bytes) : decodeHead (b :: rest) = (Char.ofNat b.toNat, 1) :=
        Text.decodeHead_one (UInt8.lt_iff_toNat_lt.mp ascii)
      split
      · next isName =>
        rw [List.take_succ_cons, units_cons, one]
        exact List.forall_mem_cons.mpr ⟨isNameChar_of_byte isName, nameExtent_chars (Nat.zero_le _)⟩
      · exact fun _ none => absurd none List.not_mem_nil
    · split
      · next isName =>
        have room : (decodeHead (b :: bs)).2 - 1 ≤ bs.length := by omega
        have least := nameExtent_skip room
        have same : decodeHead ((b :: bs).take (nameExtent ((decodeHead (b :: bs)).2 - 1) bs + 1)) = decodeHead (b :: bs) :=
          decodeHead_take (by omega)
        rw [List.take_succ_cons] at same ⊢
        rw [units_cons, same]
        exact List.forall_mem_cons.mpr ⟨isName, nameExtent_chars room⟩
      · exact fun _ none => absurd none List.not_mem_nil

theorem unitsFrom_drop : ∀ (skip : Nat) (bs : Bytes), unitsFrom skip bs = unitsFrom 0 (bs.drop skip)
  | 0, _ => rfl
  | _ + 1, [] => rfl
  | skip + 1, _ :: bs => unitsFrom_drop skip bs

/-- The bytes of the word at the head. -/
def wordBytes (bs : Bytes) : Bytes := bs.take ((decodeHead bs).2 + nameExtent 0 (bs.drop (decodeHead bs).2))

/-- The characters of a word are the first one, and those that continue the name. -/
theorem wordBytes_chars (b : UInt8) (tail : Bytes) : ∃ cs, (∀ c ∈ cs, isNameChar c = true) ∧
    Text.chars (wordBytes (b :: tail)) = (decodeHead (b :: tail)).1 :: cs := by
  have width := decodeHead_width b tail
  rw [wordBytes]
  generalize extent : (decodeHead (b :: tail)).2 + nameExtent 0 ((b :: tail).drop (decodeHead (b :: tail)).2) = n
  have same : decodeHead ((b :: tail).take n) = decodeHead (b :: tail) := decodeHead_take (by omega)
  obtain ⟨m, rfl⟩ : ∃ m, n = m + 1 := ⟨n - 1, by omega⟩
  rw [List.take_succ_cons] at same ⊢
  refine ⟨_, ?_, by rw [Text.chars, Text.units, units_cons, same]⟩
  obtain ⟨w, shape⟩ : ∃ w, (decodeHead (b :: tail)).2 = w + 1 := ⟨_, (Nat.sub_add_cancel width.1).symm⟩
  rw [shape, List.drop_succ_cons] at extent
  have rest : m - w = nameExtent 0 (tail.drop w) := by omega
  rw [shape, Nat.add_sub_cancel, unitsFrom_drop, List.drop_take, rest]
  exact nameExtent_chars (Nat.zero_le _)

/-- The code points of a word lead to no sign. -/
theorem codes_word {c : Char} {cs : List Char} (starts : isNameStart c = true) (others : ∀ d ∈ cs, isNameChar d = true) :
    Text.AreWord ((c :: cs).map Char.toNat) ∧ ∀ n ∈ (c :: cs).map Char.toNat, Text.signed.contains n = false := by
  obtain ⟨unsigned, isHead⟩ := isNameStart_sound starts
  have each : ∀ n ∈ (c :: cs).map Char.toNat, Text.signed.contains n = false ∧ Text.partCode n = true := by
    rw [List.forall_mem_map, List.forall_mem_cons]
    refine ⟨⟨unsigned, ?_⟩, fun d member => ?_⟩
    · rw [Text.partCode_toNat]
      exact Text.isWordChar_of_head isHead
    · rw [Text.partCode_toNat]
      exact isNameChar_sound (others d member)
  exact ⟨⟨⟨c.toNat, rfl, by rwa [Text.headCode_toNat]⟩, fun n member => (each n member).2⟩, fun n member => (each n member).1⟩

/-- The text of a name is a word of C. -/
theorem wordText_word {b : UInt8} {tail : Bytes} (starts : isNameStart (decodeHead (b :: tail)).1 = true) :
    C.isWord (wordText (wordBytes (b :: tail))) = true := by
  obtain ⟨cs, others, chars⟩ := wordBytes_chars b tail
  generalize (decodeHead (b :: tail)).1 = c at starts chars
  rw [wordText]
  split
  · rw [C.isWord, Text.lossy, chars, String.toList_ofList, Bool.and_eq_true, List.all_eq_true]
    exact ⟨(isNameStart_sound starts).2, fun d member => (isNameChar_sound (others d member)).2⟩
  · obtain ⟨word, unsigned⟩ := codes_word starts others
    rw [Text.nfc_eq, Text.lossy, chars, String.toList_ofList]
    exact (Text.normalCodes_word word unsigned).isWord

/-! ## Names of a source -/

/-- If the lexeme is a name, it is a word of C. -/
def IsNamed (l : Lexeme) : Prop := l.kind = .ident → C.isWord l.text = true

theorem isNamed_error (e : LexError) (earlier : Option LexError) : IsNamed (.error e earlier) := nofun

theorem word_named (file off : Nat) (b : UInt8) (tail : Bytes) : IsNamed (word file ⟨off, b :: tail⟩).1 := by
  unfold word unexpected
  simp only
  split
  · next starts => exact fun _ => wordText_word starts
  · exact isNamed_error _ _

theorem operator_named (file : Nat) (c : Cursor) : IsNamed (operator file c).1 := by
  unfold operator unexpected
  split
  · next k found =>
    unfold operator? at found
    split at found <;> cases found <;> intro isName <;> cases isName
  · exact isNamed_error _ _

theorem number_named (file : Nat) (c : Cursor) : IsNamed (number file c).1 := by
  by_cases whole : fractionRun c.rest = []
  · rw [number_int whole]
    simp only
    split <;> intro isName <;> cases isName
  · rw [number_float whole]
    simp only
    split <;> intro isName <;> cases isName

theorem stringBody_named {file start : Nat} : ∀ (bs : Bytes) (skip off : Nat) (text : List Char) (bad : Option LexError),
    IsNamed (stringBody file start skip off text bad bs).1
  | [], _, _, _, _ => isNamed_error _ _
  | b :: rest, k + 1, off, text, bad => stringBody_named rest k (off + 1) text bad
  | b :: rest, 0, off, text, bad => by
    rw [stringBody.eq_def]
    simp only
    split
    · exact isNamed_error _ _
    · split
      · split
        · exact isNamed_error _ _
        · intro isName
          cases isName
      · split
        · cases rest with
          | nil => exact isNamed_error _ _
          | cons e rest' =>
            simp only
            split
            · exact isNamed_error _ _
            · split
              · exact stringBody_named rest' _ _ _ _
              · exact stringBody_named rest' _ _ _ _
        · exact stringBody_named rest _ _ _ _

theorem lexeme_named (file : Nat) (c : Cursor) : IsNamed (lexeme file c).1 := by
  obtain ⟨off, bs⟩ := c
  unfold lexeme
  simp only
  split
  · split
    · exact word_named file off _ _
    · exact operator_named file _
  · exact operator_named file _
  · split
    · exact word_named file off _ _
    · split
      · exact number_named file _
      · split
        · exact stringBody_named _ _ _ _ _
        · exact operator_named file _
  · exact operator_named file _

theorem layout_named (file old new off : Nat) : ∀ l ∈ layout file old new off, IsNamed l := by
  unfold layout
  split <;> intro l member <;> rw [List.eq_of_mem_replicate member] <;> nofun

theorem lineBreak_named (file depth : Nat) (c : Cursor) : ∀ l ∈ (lineBreak file depth c).1, IsNamed l := by
  intro l member
  simp only [lineBreak, lineTo, List.mem_append, List.mem_cons] at member
  obtain uneven | rfl | deeper := member
  · split at uneven
    · cases uneven
    · rw [List.mem_singleton.mp uneven]
      exact isNamed_error _ _
  · intro isName
    cases isName
  · exact layout_named _ _ _ _ l deeper

theorem lexemesFrom_named (file : Nat) : ∀ (n depth : Nat) (c : Cursor), ∀ l ∈ lexemesFrom file n depth c, IsNamed l
  | 0, _, _ => List.forall_mem_nil _
  | n + 1, depth, c => by
    unfold lexemesFrom
    simp only
    split
    · rw [List.forall_mem_append, List.forall_mem_singleton]
      exact ⟨layout_named _ _ _ _, nofun⟩
    · rw [List.forall_mem_append]
      exact ⟨lineBreak_named _ _ _, lexemesFrom_named file n _ _⟩
    · rw [List.forall_mem_cons]
      exact ⟨lexeme_named _ _, lexemesFrom_named file n _ _⟩

end Lexer

/-- The names of a source are words of C. -/
theorem name_word {file : Nat} {source : Bytes} : ∀ l ∈ lexemes file source, l.kind = .ident → C.isWord l.text = true :=
  Lexer.lexemesFrom_named file _ 0 ⟨0, source⟩

end PineLang
