import PineLang.Proofs.TokenStream
import PineLang.Proofs.WordNames

/-!
Tokens with one spelling. The normal form of a word with a character beyond ASCII has such a character again, or the one
capital that a sign of its own composes to (`normalCodes_beyond`). No keyword has either, so a keyword stands in the
source as it is spelled, and so do the operators (`lexeme_bytes`).
-/
namespace PineLang

namespace Text

/-! ## Characters beyond ASCII -/

/-- What is mapped is mapped to something beyond ASCII again. -/
theorem mapping_beyond {n : Nat} {parts : List Nat} (mapped : mapping? n = some parts) : ∃ m ∈ parts, isBeyond m = true := by
  unfold mapping? at mapped
  split at mapped
  · cases mapped
  · split at mapped
    · obtain rfl := Option.some.inj mapped
      refine ⟨0x1100 + (n - hangulBase) / 588, ?_, ?_⟩
      · unfold hangulParts
        simp only
        split <;> simp
      · rw [isBeyond, decide_eq_true (by omega : 0x80 ≤ 0x1100 + (n - hangulBase) / 588)]
        rfl
    · simp only at mapped
      split at mapped
      · next found =>
        obtain rfl := Option.some.inj mapped
        refine ⟨_, List.mem_singleton.mpr rfl, ?_⟩
        split at found
        · exact (all_found (TablesSound.basicBeyond tables_sound) found).1
        · exact (all_found (TablesSound.ideographBeyond tables_sound) found).1
      · obtain ⟨⟨k, a, b⟩, found, rfl⟩ := Option.map_eq_some_iff.mp mapped
        refine ⟨b, by simp, ?_⟩
        split at found
        · exact (Bool.and_eq_true_iff.mp (all_found (TablesSound.scriptBeyond tables_sound) found).1).2
        · exact (Bool.and_eq_true_iff.mp (all_found (TablesSound.extendedBeyond tables_sound) found).1).2

theorem decompose_beyond : ∀ (depth : Nat) {n : Nat}, isBeyond n = true → ∃ m ∈ decomposeWithin depth n, isBeyond m = true
  | 0, n, beyond => ⟨n, List.mem_singleton.mpr rfl, beyond⟩
  | depth + 1, n, beyond => by
    unfold decomposeWithin
    split
    · exact ⟨n, List.mem_singleton.mpr rfl, beyond⟩
    · next parts mapped =>
      obtain ⟨p, member, beyond⟩ := mapping_beyond mapped
      obtain ⟨m, inside, beyond⟩ := decompose_beyond depth beyond
      exact ⟨m, List.mem_flatMap.mpr ⟨p, member, inside⟩, beyond⟩

theorem mem_partRuns {n : Nat} : ∀ {ns : List Nat} {attached : Nat}, n ∈ ns → n ∈ partRuns attached ns
  | m :: ns, attached, member => by
    unfold partRuns
    simp only
    obtain rfl | later := List.mem_cons.mp member
    · split
      · exact List.mem_cons_self ..
      · split <;> simp
    · have inside (k : Nat) : n ∈ partRuns k ns := mem_partRuns later
      split
      · exact List.mem_cons_of_mem m (inside _)
      · split
        · exact List.mem_cons_of_mem _ (List.mem_cons_of_mem m (inside _))
        · exact List.mem_cons_of_mem m (inside _)

theorem compose_beyond {a b n : Nat} (composed : compose? a b = some n) : isBeyond n = true := by
  have beyond : 0x80 ≤ n := by
    unfold compose? at composed
    split at composed
    · next m hangul =>
      obtain rfl := Option.some.inj composed
      unfold hangulCompose? at hangul
      split at hangul
      · obtain rfl := Option.some.inj hangul
        rw [hangulBase]
        omega
      · split at hangul
        · next parts =>
          rw [Bool.and_eq_true, Bool.and_eq_true, Bool.and_eq_true] at parts
          obtain ⟨⟨⟨syllable, -⟩, -⟩, -⟩ := parts
          rw [isHangulSyllable, hangulBase, Bool.and_eq_true, decide_eq_true_iff] at syllable
          obtain rfl := Option.some.inj hangul
          omega
        · cases hangul
    · split at composed
      · next m _ _ found =>
        split at composed
        · cases composed
        · obtain rfl := Option.some.inj composed
          rw [Option.orElse_eq_some] at found
          obtain script | ⟨-, extended⟩ := found
          · exact of_decide_eq_true (Bool.and_eq_true_iff.mp (all_found (TablesSound.scriptBeyond tables_sound) script).1).1
          · exact of_decide_eq_true (Bool.and_eq_true_iff.mp (all_found (TablesSound.extendedBeyond tables_sound) extended).1).1
      · cases composed
  simp [isBeyond, beyond]

/-- Composing leaves something beyond ASCII. -/
theorem composeFrom_beyond : ∀ {ms : List (Nat × Nat)} {starter : Nat} {left : List Nat} {k : Option Nat},
    isBeyond starter = true ∨ left.any isBeyond = true ∨ ms.any (fun m => isBeyond m.1) = true →
      (composeFrom starter left k ms).any isBeyond = true
  | [], starter, left, _, kept => by
    simpa [composeFrom, or_assoc] using kept
  | (m, _) :: ms, starter, left, _, kept => by
    rw [List.any_cons, Bool.or_eq_true] at kept
    unfold composeFrom
    simp only
    split
    · next composite composed =>
      exact composeFrom_beyond (.inl (compose_beyond (Option.ite_none_left_eq_some.mp composed).2))
    · split
      · rw [List.any_append, List.any_cons, List.any_reverse, Bool.or_eq_true, Bool.or_eq_true]
        obtain first | behind | mark | later := kept
        · exact .inl (.inl first)
        · exact .inl (.inr behind)
        · exact .inr (composeFrom_beyond (.inl mark))
        · exact .inr (composeFrom_beyond (.inr (.inr later)))
      · refine composeFrom_beyond ?_
        rw [List.any_cons, Bool.or_eq_true]
        obtain first | behind | mark | later := kept
        · exact .inl first
        · exact .inr (.inl (.inr behind))
        · exact .inr (.inl (.inl mark))
        · exact .inr (.inr later)

theorem composeAll_beyond : ∀ {ms : List (Nat × Nat)}, ms.any (fun m => isBeyond m.1) = true →
    (composeAll ms).any isBeyond = true
  | (m, k) :: ms, kept => by
    rw [List.any_cons, Bool.or_eq_true] at kept
    unfold composeAll
    split
    · exact composeFrom_beyond (kept.imp_right .inr)
    · rw [List.any_cons, Bool.or_eq_true]
      exact kept.imp_right composeAll_beyond

/-- The normal form keeps something beyond ASCII. -/
theorem normalCodes_beyond {ns : List Nat} (given : ns.any isBeyond = true) : (normalCodes ns).any isBeyond = true := by
  obtain ⟨n, member, beyond⟩ := List.any_eq_true.mp given
  obtain ⟨m, inside, beyond⟩ := decompose_beyond mappingDepth beyond
  refine composeAll_beyond (List.any_eq_true.mpr ⟨(m, combiningClass m), mem_orderMarks.mpr (.inr ?_), beyond⟩)
  exact List.mem_map.mpr ⟨m, List.mem_flatMap.mpr ⟨n, mem_partRuns member, inside⟩, rfl⟩

/-- A byte beyond ASCII is read as a character beyond ASCII, or starts one. -/
theorem decodeHead_beyond {a : UInt8} (beyond : 0x80 ≤ a.toNat) (rest : Bytes) : 0x80 ≤ (decodeHead (a :: rest)).1.toNat := by
  have head := decodeHead_head a rest
  generalize decodeHead (a :: rest) = r at *
  cases head with
  | ascii low => exact absurd beyond (Nat.not_le_of_lt low)
  | stray _ => exact (by decide : 0x80 ≤ replacement.toNat)
  | longer _ valid least _ _ =>
    rw [toNat_ofNat valid]
    exact least

end Text

namespace Lexer
open Text (decodeHead)

/-! ## Words with one spelling -/

/-- Bytes whose characters are all ASCII are ASCII. -/
theorem ascii_of_chars : ∀ {bs : Bytes}, (∀ c ∈ Text.chars bs, c.toNat < 0x80) → ∀ b ∈ bs, b < 0x80
  | [], _ => List.forall_mem_nil _
  | b :: bs, low => by
    rw [Text.chars, Text.units, units_cons, List.forall_mem_cons] at low
    have first : b.toNat < 0x80 := by
      by_contra beyond
      exact absurd low.1 (Nat.not_lt.mpr (Text.decodeHead_beyond (Nat.not_lt.mp beyond) bs))
    have others := low.2
    rw [Text.decodeHead_one first] at others
    exact List.forall_mem_cons.mpr ⟨UInt8.lt_iff_toNat_lt.mpr first, ascii_of_chars others⟩

/-- A word without anything beyond ASCII in its text is spelled by its bytes. -/
theorem wordBytes_ascii {b : UInt8} {tail : Bytes} (starts : isNameStart (decodeHead (b :: tail)).1 = true)
    (plain : ∀ c ∈ (wordText (wordBytes (b :: tail))).toList, Text.isBeyond c.toNat = false) :
    utf8 (wordText (wordBytes (b :: tail))) = wordBytes (b :: tail) := by
  obtain ⟨cs, others, chars⟩ := wordBytes_chars b tail
  obtain ⟨word, unsigned⟩ := codes_word starts others
  generalize (decodeHead (b :: tail)).1 = c at chars word unsigned
  generalize wordBytes (b :: tail) = bs at chars plain
  have ascii : ∀ b ∈ bs, b < 0x80 := by
    by_contra other
    have given : ((c :: cs).map Char.toNat).any Text.isBeyond = true := by
      rw [← chars, List.any_map]
      by_contra none
      refine other (ascii_of_chars fun d member => ?_)
      by_contra beyond
      refine none (List.any_eq_true.mpr ⟨d, member, ?_⟩)
      simp only [Function.comp_apply, Text.isBeyond, decide_eq_true (Nat.not_lt.mp beyond), Bool.true_or]
    obtain ⟨n, member, beyond⟩ := List.any_eq_true.mp (Text.normalCodes_beyond given)
    have part := (Text.normalCodes_word word unsigned).parts n member
    have valid : n.isValidChar := of_decide_eq_true (Bool.and_eq_true_iff.mp part).1
    have partly : ¬ bs.all (· < 0x80) = true := fun all => other fun b member => of_decide_eq_true (List.all_eq_true.mp all b member)
    rw [wordText, if_neg partly, Text.nfc_eq, Text.lossy, chars, String.toList_ofList, String.toList_ofList] at plain
    have contrary := plain (Char.ofNat n) (List.mem_map_of_mem member)
    rw [Text.toNat_ofNat valid, beyond] at contrary
    cases contrary
  rw [wordText_ascii ascii, asciiText, utf8_ofBytes ascii]

/-! ## Tokens with one spelling -/

/-- What has been read is what the kind of the lexeme is spelled like. -/
def IsRead (bs : Bytes) (read : Lexeme × Cursor) : Prop := ∀ s ∈ spelling? read.1.kind, bs = s ++ read.2.rest

theorem isRead_error (bs : Bytes) (e : LexError) (earlier : Option LexError) (c : Cursor) : IsRead bs (.error e earlier, c) := by
  intro s known
  cases known

theorem fixed_plain {k : Kind} (fixed : isFixed k = true) : ∀ c ∈ k.name.toList, Text.isBeyond c.toNat = false := by
  have all : (k.name.toList.all fun c => !Text.isBeyond c.toNat) = true := by
    revert fixed
    cases k <;> decide
  simpa using all

theorem word_isRead (file off : Nat) (b : UInt8) (tail : Bytes) : IsRead (b :: tail) (word file ⟨off, b :: tail⟩) := by
  unfold word unexpected
  simp only
  split
  · next starts =>
    intro s known
    have bytes := wordBytes_ascii starts
    have shape : b :: tail = wordBytes (b :: tail) ++ (b :: tail).drop ((decodeHead (b :: tail)).2 +
        nameExtent 0 ((b :: tail).drop (decodeHead (b :: tail)).2)) := (List.take_append_drop ..).symm
    change s ∈ spelling? (wordKind (wordText (wordBytes (b :: tail)))) at known
    obtain isName | ⟨fixed, name⟩ := wordKind_cases (wordText (wordBytes (b :: tail)))
    · rw [isName] at known
      cases known
    · rw [spelling_fixed fixed] at known
      rw [name] at bytes
      rw [← Option.some.inj known, bytes (fixed_plain fixed)]
      exact shape
  · exact isRead_error _ _ _ _

theorem operator_bytes {bs : Bytes} {k : Kind} (found : operator? bs = some k) : bs = utf8 k.name ++ bs.drop k.name.length := by
  have one {b : UInt8} {rest : Bytes} {k : Kind} (single : utf8 k.name = [b] ∧ k.name.length = 1) :
      b :: rest = utf8 k.name ++ (b :: rest).drop k.name.length := by
    rw [single.1, single.2]
    rfl
  have two {b c : UInt8} {rest : Bytes} {k : Kind} (double : utf8 k.name = [b, c] ∧ k.name.length = 2) :
      b :: c :: rest = utf8 k.name ++ (b :: c :: rest).drop k.name.length := by
    rw [double.1, double.2]
    rfl
  simp only [utf8_eq] at one two ⊢
  unfold operator? at found
  split at found <;> cases found <;> first | exact one (by decide) | exact two (by decide)

theorem operator_isRead (file : Nat) (c : Cursor) : IsRead c.rest (operator file c) := by
  unfold operator unexpected
  split
  · next k found =>
    intro s known
    have fixed : isFixed k = true := by
      unfold operator? at found
      split at found <;> cases found <;> rfl
    change s ∈ spelling? k at known
    rw [spelling_fixed fixed] at known
    rw [← Option.some.inj known]
    exact operator_bytes found
  · exact isRead_error _ _ _ _

theorem number_kind (file : Nat) (c : Cursor) :
    (number file c).1.kind = .intLit ∨ (number file c).1.kind = .floatLit ∨ (number file c).1.kind = .invalid := by
  by_cases whole : fractionRun c.rest = []
  · rw [number_int whole]
    simp only
    split
    · exact .inl rfl
    · exact .inr (.inr rfl)
  · rw [number_float whole]
    simp only
    split
    · exact .inr (.inl rfl)
    · exact .inr (.inr rfl)

theorem stringBody_kind {file start : Nat} : ∀ (bs : Bytes) (skip off : Nat) (text : List Char) (bad : Option LexError),
    (stringBody file start skip off text bad bs).1.kind = .stringLit ∨ (stringBody file start skip off text bad bs).1.kind = .invalid
  | [], _, _, _, _ => .inr rfl
  | b :: rest, k + 1, off, text, bad => stringBody_kind rest k (off + 1) text bad
  | b :: rest, 0, off, text, bad => by
    rw [stringBody.eq_def]
    simp only
    split
    · exact .inr rfl
    · split
      · split
        · exact .inr rfl
        · exact .inl rfl
      · split
        · cases rest with
          | nil => exact .inr rfl
          | cons e rest' =>
            simp only
            split
            · exact .inr rfl
            · split
              · exact stringBody_kind rest' _ _ _ _
              · exact stringBody_kind rest' _ _ _ _
        · exact stringBody_kind rest _ _ _ _

theorem isRead_of_kind {bs : Bytes} {read : Lexeme × Cursor} (open' : spelling? read.1.kind = none) : IsRead bs read := by
  intro s known
  rw [open'] at known
  cases known

theorem number_isRead (file : Nat) (c : Cursor) : IsRead c.rest (number file c) := by
  refine isRead_of_kind ?_
  obtain kind | kind | kind := number_kind file c <;> rw [kind] <;> rfl

theorem string_isRead (file : Nat) (c : Cursor) : IsRead c.rest (string file c) := by
  refine isRead_of_kind ?_
  obtain kind | kind := @stringBody_kind file c.off (c.rest.drop 1) 0 (c.off + 1) [] none
  · exact congrArg spelling? kind
  · exact congrArg spelling? kind

/-- A token of a kind with one spelling stands in the source as it is spelled. -/
theorem lexeme_bytes (file : Nat) (c : Cursor) : IsRead c.rest (lexeme file c) := by
  cases lexeme_readBy file c with
  | word shape read =>
    rw [read]
    obtain ⟨off, bs⟩ := c
    obtain rfl : bs = _ := shape
    exact word_isRead file off _ _
  | number _ _ read => exact read ▸ number_isRead file c
  | string _ read => exact read ▸ string_isRead file c
  | operator read => exact read ▸ operator_isRead file c

/-! ## Names -/

/-- The lexeme is the name at the head of the bytes. An underscore starts a name only before a name byte of ASCII. -/
structure NameAt (bs : Bytes) (l : Lexeme) : Prop where
  inside : ∃ b tail, bs = b :: tail ∧ (b = 0x5F → ∃ d ds, tail = d :: ds ∧ isNameByte d = true)
  starts : isNameStart (decodeHead bs).1 = true
  text : l.text = wordText (wordBytes bs)
  kind : wordKind l.text = .ident

theorem word_name {file : Nat} {c : Cursor} (isName : (word file c).1.kind = .ident) : isNameStart (decodeHead c.rest).1 = true ∧
    (word file c).1.text = wordText (wordBytes c.rest) ∧ wordKind (word file c).1.text = .ident := by
  unfold word unexpected at isName ⊢
  simp only at isName ⊢
  split at isName
  · next starts =>
    rw [if_pos starts]
    exact ⟨starts, rfl, isName⟩
  · cases isName

theorem operator_not_name (file : Nat) (c : Cursor) : (operator file c).1.kind ≠ .ident := by
  unfold operator unexpected
  split
  · next k found =>
    unfold operator? at found
    split at found <;> cases found <;> intro same <;> cases same
  · intro same
    cases same

/-- A name that is read is the one at the head. -/
theorem lexeme_name {file : Nat} {c : Cursor} (isName : (lexeme file c).1.kind = .ident) : NameAt c.rest (lexeme file c).1 := by
  obtain ⟨off, bs⟩ := c
  unfold lexeme at isName ⊢
  simp only at isName ⊢
  split at isName
  · next d ds =>
    split at isName
    · next named =>
      obtain ⟨starts, text, kind⟩ := word_name isName
      rw [if_pos named]
      exact ⟨⟨_, _, rfl, fun _ => ⟨d, ds, rfl, named⟩⟩, starts, text, kind⟩
    · exact absurd isName (operator_not_name file _)
  · exact absurd isName (operator_not_name file _)
  · next b tail notPair notLast =>
    split at isName
    · next starts' =>
      obtain ⟨starts, text, kind⟩ := word_name isName
      rw [if_pos starts']
      refine ⟨⟨b, tail, rfl, ?_⟩, starts, text, kind⟩
      rintro rfl
      cases tail with
      | nil => exact absurd rfl (notLast rfl)
      | cons d ds => exact absurd rfl (notPair d ds rfl)
    · split at isName
      · obtain kind | kind | kind := number_kind file ⟨off, b :: tail⟩ <;> rw [kind] at isName <;> cases isName
      · split at isName
        · obtain kind | kind := @stringBody_kind file off tail 0 (off + 1) [] none <;>
            cases kind.symm.trans isName
        · exact absurd isName (operator_not_name file _)
  · exact absurd isName (operator_not_name file _)

end Lexer
end PineLang
