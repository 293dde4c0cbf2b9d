import PineLang.Proofs.LineBounds
import PineLang.Proofs.NameCodes
import PineLang.Proofs.SourceGaps

/-!
Names are read as they are printed. The text of a name is a name by itself, of letters, digits and marks, and it is in
normal form, so that lexing it gives the name again and nothing else (`lexemes_name`). Only the lexer's choice of what to
read looks at bytes: an underscore starts a name only before a letter or a digit of ASCII. Behind one, a letter of ASCII
can compose with a mark to a letter beyond, and such a name is not read as it is printed (`name_fixed_iff`).
-/
namespace PineLang

namespace Text

/-! ## Characters of names -/

theorem any_ranges (rs : Ranges) (n : Nat) : (rs.toList.any fun r => decide (r.1 ≤ n) && decide (n ≤ r.2)) = rs.contains n := by
  rw [Ranges.contains, Array.any_toList]

theorem startCode_toNat (c : Char) : startCode c.toNat = Lexer.isNameStart c := by
  have underscore : (decide (0x5F ≤ c.toNat) && decide (c.toNat ≤ 0x5F)) = (c == '_') := by
    rw [Bool.eq_iff_iff, Bool.and_eq_true, decide_eq_true_iff, decide_eq_true_iff, beq_iff_eq, ← Char.toNat_inj]
    exact (Nat.le_antisymm_iff.trans and_comm).symm
  rw [startCode, startBits, testBit_bitsOf, startRanges, List.any_cons, any_ranges, underscore, Lexer.isNameStart, isLetter]

theorem nameCode_toNat (c : Char) : nameCode c.toNat = Lexer.isNameChar c := by
  have starts := startCode_toNat c
  rw [startCode, startBits, testBit_bitsOf] at starts
  rw [nameCode, nameBits, testBit_bitsOf, nameRanges, List.any_append, List.any_append, starts, any_ranges, any_ranges,
    Lexer.isNameStart, Lexer.isNameChar, isDigit, isMark, Bool.or_assoc, Bool.or_assoc, Bool.or_assoc]

/-- The code points of a text. -/
def codes (s : String) : List Nat := s.toList.map Char.toNat

theorem codes_ofCodes {ns : List Nat} (names : ∀ n ∈ ns, nameCode n = true) : codes (String.ofList (ns.map Char.ofNat)) = ns := by
  rw [codes, String.toList_ofList, List.map_map]
  exact (List.map_congr_left fun n member => toNat_ofNat (nameCode_valid (names n member))).trans (List.map_id _)

end Text

namespace Lexer
open Text (decodeHead codes AreName)

/-! ## Texts of names -/

/-- The text is a name by itself, and one that reading does not change. -/
structure IsNameText (s : String) : Prop where
  name : AreName (codes s)
  same : wordText (utf8 s) = s

theorem lossy_utf8 (s : String) : Text.lossy (utf8 s) = s := by
  have read := C.string_utf8 s
  rw [Text.string?] at read
  split at read
  · exact Option.some.inj read
  · cases read

theorem NameAt.isNameText {bs : Bytes} {l : Lexeme} (here : NameAt bs l) : IsNameText l.text := by
  obtain ⟨b, tail, rfl, -⟩ := here.inside
  have starts := here.starts
  obtain ⟨cs, others, chars⟩ := wordBytes_chars b tail
  rw [here.text]
  generalize wordBytes (b :: tail) = word at chars
  generalize (decodeHead (b :: tail)).1 = c at starts chars
  have name : AreName ((c :: cs).map Char.toNat) := by
    have first : Text.startCode c.toNat = true := by rw [Text.startCode_toNat, starts]
    refine ⟨⟨_, rfl, first⟩, List.forall_mem_cons.mpr ⟨Text.nameCode_of_start first, List.forall_mem_map.mpr fun d member => ?_⟩⟩
    rw [Text.nameCode_toNat, others d member]
  by_cases ascii : ∀ d ∈ word, d < 0x80
  · rw [wordText_ascii ascii]
    refine ⟨?_, ?_⟩
    · rwa [codes, asciiText, ← chars_ascii ascii, chars, String.toList_ofList]
    · rw [asciiText, utf8_ofBytes ascii, wordText_ascii ascii, asciiText]
  · have partly : ¬ word.all (· < 0x80) = true := fun all => ascii fun d member => of_decide_eq_true (List.all_eq_true.mp all d member)
    have text : wordText word = String.ofList ((Text.normalCodes ((c :: cs).map Char.toNat)).map Char.ofNat) := by
      rw [wordText, if_neg partly, Text.nfc_eq, Text.lossy, chars, String.toList_ofList]
    have normal := Text.normalCodes_name name
    have stable := Text.normalCodes_stable name.parts
    rw [text]
    generalize Text.normalCodes ((c :: cs).map Char.toNat) = ns at normal stable
    have whole := Text.codes_ofCodes normal.parts
    refine ⟨by rwa [whole], ?_⟩
    rw [wordText, lossy_utf8, Text.nfc_eq]
    rw [codes] at whole
    rw [whole, stable, ite_self]

/-! ## Reading a name -/

/-- An underscore stands before a character beyond ASCII. -/
def isMasked (s : String) : Bool := s.toList.head? == some '_' && (s.toList.drop 1).head?.any fun c => 0x80 ≤ c.toNat

theorem name_classes {b : UInt8} (starts : (isNameStartByte b || decide (b ≥ 0x80)) = true) :
    isBlank b = false ∧ b ≠ 0x2F ∧ b ≠ 0x0A := by
  rw [Bool.or_eq_true, decide_eq_true_iff] at starts
  obtain starts | beyond := starts
  · exact nameStart_classes starts
  · refine ⟨?_, ?_, ?_⟩
    · by_contra blank
      simp only [isBlank, Bool.not_eq_false, Bool.or_eq_true, beq_iff_eq] at blank
      obtain (rfl | rfl) | rfl := blank <;> exact absurd beyond (by decide)
    · rintro rfl
      exact absurd beyond (by decide)
    · rintro rfl
      exact absurd beyond (by decide)

/-- Bytes of characters of ASCII start or continue names where the characters do. The accent has no mapping, the underscore
    is no second of a pair, and with a letter both are names; behind the letter only the accent has a class. -/
theorem names_known : (∀ n < 0x80, (Text.startCode n = true → isNameStartByte (UInt8.ofNat n) = true) ∧
      (Text.nameCode n = true → isNameByte (UInt8.ofNat n) = true)) ∧
    ((Text.mappings.all fun e => e.1 != 0x301) = true ∧ (Text.pairs.all fun e => e.2.1 != 0x5F) = true) ∧
    (∀ n ∈ [0x5F, 0x61, 0x301], Text.nameCode n = true ∧ Text.compatibilityBits.testBit n = false) ∧
    (Text.startCode 0x5F = true ∧ Text.nameCode 0xE1 = true) ∧
    Text.classed [0x5F, 0x61, 0x301] = [(0x5F, 0), (0x61, 0), (0x301, 230)] := by
  decide +kernel

-- A digit goes on with a name and does not start one.
example : isNameByte 0x39 = true ∧ isNameStartByte 0x39 = false := by decide

theorem encode_start {c : Char} (starts : isNameStart c = true) : ∃ b tail, String.utf8EncodeChar c = b :: tail ∧
    (isNameStartByte b || decide (b ≥ 0x80)) = true ∧ (b = 0x5F → c = '_') := by
  obtain ⟨b, tail, encoded⟩ := List.exists_cons_of_ne_nil (@String.utf8EncodeChar_ne_nil c)
  rw [encoded]
  refine ⟨b, tail, rfl, ?_⟩
  by_cases beyond : 0x80 ≤ c.toNat
  · have high := C.encode_large beyond b (encoded ▸ List.mem_cons_self ..)
    refine ⟨by rw [decide_eq_true high, Bool.or_true], ?_⟩
    rintro rfl
    exact absurd high (by decide)
  · have small := Nat.lt_of_not_le beyond
    obtain ⟨rfl, -⟩ := List.cons.inj (encoded.symm.trans (C.encode_small small))
    have start := (names_known.1 c.toNat small).1 (by rw [Text.startCode_toNat, starts])
    refine ⟨by rw [start, Bool.true_or], fun underscore => Char.toNat_inj.mp ?_⟩
    rw [← UInt8.toNat_ofNat_of_lt' (Nat.lt_trans small (by decide) : c.toNat < 256), underscore]
    rfl

theorem nameExtent_drop : ∀ (bs rest : Bytes), nameExtent bs.length (bs ++ rest) = bs.length + nameExtent 0 rest
  | [], rest => (Nat.zero_add _).symm
  | _ :: bs, rest => by
    rw [List.length_cons, List.cons_append, nameExtent, nameExtent_drop bs rest, Nat.add_right_comm]

/-- A name continues as long as there are characters of names. -/
theorem nameExtent_utf8 : ∀ {cs : List Char}, (∀ c ∈ cs, isNameChar c = true) →
    nameExtent 0 (cs.flatMap String.utf8EncodeChar) = (cs.flatMap String.utf8EncodeChar).length
  | [], _ => rfl
  | c :: cs, names => by
    rw [List.forall_mem_cons] at names
    have later := nameExtent_utf8 names.2
    obtain ⟨b, tail, encoded⟩ := List.exists_cons_of_ne_nil (@String.utf8EncodeChar_ne_nil c)
    have decoded := Text.decodeHead_encode c (cs.flatMap String.utf8EncodeChar)
    rw [encoded, List.cons_append] at decoded
    rw [List.flatMap_cons, encoded, List.cons_append, nameExtent, List.length_cons]
    by_cases beyond : 0x80 ≤ c.toNat
    · have high := C.encode_large beyond b (encoded ▸ List.mem_cons_self ..)
      simp only [if_neg (UInt8.not_lt.mpr high), decoded, names.1, if_true, List.length_cons, Nat.add_sub_cancel]
      rw [nameExtent_drop, later, List.length_append]
    · obtain ⟨rfl, rfl⟩ := List.cons.inj (encoded.symm.trans (C.encode_small (Nat.lt_of_not_le beyond)))
      have isName := (names_known.1 c.toNat (Nat.lt_of_not_le beyond)).2 (by rw [Text.nameCode_toNat, names.1])
      rw [if_pos (ascii_of_nameByte isName), if_pos isName]
      exact congrArg (· + 1) later

section
variable {file : Nat} {s : String}

theorem chars_of_codes (name : AreName (codes s)) :
    ∃ c cs, s.toList = c :: cs ∧ isNameStart c = true ∧ ∀ d ∈ cs, isNameChar d = true := by
  obtain ⟨⟨n, first, starts⟩, parts⟩ := name
  obtain ⟨ns, shape⟩ := List.head?_eq_some_iff.mp first
  obtain ⟨c, cs, chars, rfl, -⟩ := List.map_eq_cons_iff.mp shape
  rw [codes, chars, List.map_cons, List.forall_mem_cons, List.forall_mem_map] at parts
  rw [Text.startCode_toNat] at starts
  exact ⟨c, cs, chars, starts, fun d member => (Text.nameCode_toNat d).symm.trans (parts.2 d member)⟩

/-- A name that is all there is to read is read whole. -/
theorem word_utf8 (name : AreName (codes s)) : word file ⟨0, utf8 s⟩ =
    (.token ⟨wordKind (wordText (utf8 s)), ⟨file, 0, (utf8 s).length⟩, wordText (utf8 s), .none⟩, ⟨(utf8 s).length, []⟩) := by
  obtain ⟨c, cs, shape, starts, others⟩ := chars_of_codes name
  have bytes : utf8 s = String.utf8EncodeChar c ++ cs.flatMap String.utf8EncodeChar := by rw [utf8_eq, shape, List.flatMap_cons]
  have decoded : decodeHead (utf8 s) = (c, (String.utf8EncodeChar c).length) := by rw [bytes, Text.decodeHead_encode]
  have whole : (String.utf8EncodeChar c).length + nameExtent 0 ((utf8 s).drop (String.utf8EncodeChar c).length) =
      (utf8 s).length := by
    rw [bytes, List.drop_left, nameExtent_utf8 others, List.length_append]
  unfold word
  simp only [decoded, starts, if_true, whole, List.take_length, Cursor.span, Cursor.advance, List.drop_length, Nat.zero_add]

/-- What reads a name: an underscore before a character beyond ASCII is taken for an operator. -/
theorem lexeme_utf8 (name : AreName (codes s)) (longer : s ≠ "_") :
    lexeme file ⟨0, utf8 s⟩ = if isMasked s then operator file ⟨0, utf8 s⟩ else word file ⟨0, utf8 s⟩ := by
  obtain ⟨c, cs, shape, starts, others⟩ := chars_of_codes name
  have bytes : utf8 s = String.utf8EncodeChar c ++ cs.flatMap String.utf8EncodeChar := by rw [utf8_eq, shape, List.flatMap_cons]
  by_cases underscore : c = '_'
  · subst underscore
    cases cs with
    | nil => exact absurd (String.toList_inj.mp shape) longer
    | cons d ds =>
      have first : String.utf8EncodeChar '_' = [0x5F] := by decide
      have mask : isMasked s = decide (0x80 ≤ d.toNat) := by simp [isMasked, shape]
      obtain ⟨e, tail, encoded⟩ := List.exists_cons_of_ne_nil (@String.utf8EncodeChar_ne_nil d)
      rw [bytes, first, List.flatMap_cons, encoded, mask, List.cons_append, List.nil_append, List.cons_append]
      by_cases beyond : 0x80 ≤ d.toNat
      · have high := C.encode_large beyond e (encoded ▸ List.mem_cons_self ..)
        have other : isNameByte e = false := by
          by_contra part
          exact absurd (ascii_of_nameByte (Bool.not_eq_false _ ▸ part)) (UInt8.not_lt.mpr high)
        rw [if_pos (decide_eq_true beyond)]
        simp [lexeme, other]
      · obtain ⟨rfl, -⟩ := List.cons.inj (encoded.symm.trans (C.encode_small (Nat.lt_of_not_le beyond)))
        have part := (names_known.1 d.toNat (Nat.lt_of_not_le beyond)).2
          (by rw [Text.nameCode_toNat, others d (List.mem_cons_self ..)])
        rw [if_neg (by simpa using beyond), lexeme_word rfl fun _ => ⟨_, _, rfl, part⟩]
  · obtain ⟨b, tail, encoded, begins, other⟩ := encode_start starts
    have mask : isMasked s = false := by simp [isMasked, shape, underscore]
    rw [mask, if_neg Bool.false_ne_true, bytes, encoded, List.cons_append, lexeme_of_not_underscore (mt other underscore), begins,
      if_pos rfl]

theorem lexemes_step (name : AreName (codes s)) : lexemes file (utf8 s) =
    (lexeme file ⟨0, utf8 s⟩).1 :: lexemesFrom file (utf8 s).length 0 (lexeme file ⟨0, utf8 s⟩).2 := by
  obtain ⟨c, cs, shape, starts, -⟩ := chars_of_codes name
  obtain ⟨b, tail, encoded, begins, -⟩ := encode_start starts
  obtain ⟨notBlank, notSlash, notBreak⟩ := name_classes begins
  obtain ⟨rest, bytes⟩ : ∃ rest, utf8 s = b :: rest := ⟨_, by rw [utf8_eq, shape, List.flatMap_cons, encoded, List.cons_append]⟩
  have trivia : skipTrivia ⟨0, utf8 s⟩ = ⟨0, utf8 s⟩ := by
    rw [bytes]
    exact skipTrivia_eq notBlank (startsComment.eq_2 _ fun tail' shape => notSlash (List.cons.inj shape).1)
  rw [lexemes, lexemesFrom, trivia]
  simp only
  split
  · next atEnd => cases bytes.symm.trans atEnd
  · next atBreak => exact absurd (List.cons.inj (bytes.symm.trans atBreak)).1 notBreak
  · rfl

/-- A name by itself is read as a word, and as nothing else, unless it is masked. -/
theorem lexemes_utf8 (name : AreName (codes s)) (longer : s ≠ "_") (plain : isMasked s = false) : lexemes file (utf8 s) =
    [.token ⟨wordKind (wordText (utf8 s)), ⟨file, 0, (utf8 s).length⟩, wordText (utf8 s), .none⟩,
      endOfFile file (utf8 s).length] := by
  obtain ⟨n, length⟩ : ∃ n, (utf8 s).length = n + 1 := by
    obtain ⟨c, cs, shape, -⟩ := chars_of_codes name
    obtain ⟨b, tail, encoded⟩ := List.exists_cons_of_ne_nil (@String.utf8EncodeChar_ne_nil c)
    exact ⟨_, by rw [utf8_eq, shape, List.flatMap_cons, encoded, List.cons_append, List.length_cons]⟩
  rw [lexemes_step name, lexeme_utf8 name longer, plain, if_neg Bool.false_ne_true, word_utf8 name, length]
  rfl

/-- A name in normal form is read as that name, unless it is masked. -/
theorem lexemes_name (text : IsNameText s) (isName : wordKind s = .ident) :
    lexemes file (utf8 s) = [.token ⟨.ident, ⟨file, 0, (utf8 s).length⟩, s, .none⟩, endOfFile file (utf8 s).length] ↔
      isMasked s = false := by
  have longer : s ≠ "_" := by
    rintro rfl
    cases isName
  cases mask : isMasked s with
  | true =>
    refine iff_of_false (fun same => operator_not_name file ⟨0, utf8 s⟩ ?_) nofun
    rw [lexemes_step text.name, lexeme_utf8 text.name longer, mask, if_pos rfl] at same
    rw [(List.cons.inj same).1]
    rfl
  | false =>
    refine iff_of_true ?_ rfl
    rw [lexemes_utf8 text.name longer mask, text.same, isName]

end

end Lexer

/-- A name that a source is read to is read to itself, and to nothing else, unless it is an underscore before a character
    beyond ASCII. -/
theorem name_fixed_iff {file file' : Nat} {source : Bytes} {l : Lexeme} (member : l ∈ lexemes file source)
    (isName : l.kind = .ident) : lexemes file' (utf8 l.text) =
      [.token ⟨.ident, ⟨file', 0, (utf8 l.text).length⟩, l.text, .none⟩, Lexer.endOfFile file' (utf8 l.text).length] ↔
        Lexer.isMasked l.text = false := by
  obtain ⟨ms, us, whole⟩ := List.append_of_mem member
  have run : Lexer.Run file 0 ⟨0, source⟩ (lexemes file source) := Lexer.lexemesFrom_run file (Nat.lt_succ_self _)
  obtain ⟨-, c, -, -, rfl, -⟩ := run.inline whole (by rw [isName]; rfl)
  have here := Lexer.lexeme_name isName
  exact Lexer.lexemes_name here.isNameText here.kind

/-! ## A masked name -/

namespace Text

/-- Behind an underscore, a letter and an accent compose. -/
theorem normalCodes_accent : normalCodes [0x5F, 0x61, 0x301] = [0x5F, 0xE1] := by
  obtain ⟨-, ⟨unmapped, apart⟩, known, -, classes⟩ := Lexer.names_known
  have full : ∀ n ∈ [0x5F, 0x61, 0x301], IsFull n := by
    rw [List.forall_mem_cons, List.forall_mem_cons, List.forall_mem_singleton]
    exact ⟨if_pos (by decide), if_pos (by decide), isFull_of_unmapped rfl unmapped⟩
  have underscore : compose? 0x5F 0x61 = none := by
    refine Option.eq_none_iff_forall_ne_some.mpr fun n composed => ?_
    obtain hangul | ⟨member, -⟩ := compose_cases composed
    · cases hangul
    · cases List.all_eq_true.mp apart _ member
  have accent : compose? 0x61 0x301 = some 0xE1 := by
    have found : scriptPairs.find? (·.2 == (0x61, 0x301)) = some (0xE1, 0x61, 0x301) := by
      rw [← Array.find?_toList]
      decide
    have allowed : 0xE1 ∉ compositionExclusions := by
      rw [← Array.mem_toList_iff]
      decide
    simp [compose?, hangulCompose?, isHangulSyllable, hangulBase, found, allowed]
  have sorted : InOrder 0 (classed [0x5F, 0x61, 0x301]) := by
    rw [classes]
    simp [InOrder]
  rw [normalCodes_short full (fun n member => (known n member).2) (by decide) sorted, classes]
  rw [composeAll, if_pos (beq_self_eq_true _), composeFrom_starter rfl underscore, composeFrom_joins accent, composeFrom]
  rfl

end Text

namespace Lexer
open Text (codes AreName)

theorem accent_names : AreName (codes "_a\u0301") ∧ AreName (codes "_\u00E1") := by
  obtain ⟨-, -, known, ⟨starts, composed⟩, -⟩ := names_known
  refine ⟨⟨⟨0x5F, rfl, starts⟩, fun n member => (known n member).1⟩, ⟨⟨0x5F, rfl, starts⟩, ?_⟩⟩
  exact List.forall_mem_cons.mpr ⟨Text.nameCode_of_start starts, List.forall_mem_singleton.mpr composed⟩

theorem wordText_accent : wordText (utf8 "_a\u0301") = "_\u00E1" := by
  have read : codes "_a\u0301" = [0x5F, 0x61, 0x301] := by decide
  rw [codes] at read
  rw [wordText, if_neg (by decide +kernel), lossy_utf8, Text.nfc_eq, read, Text.normalCodes_accent]
  decide

/-- An underscore, a letter and an accent behind it are read as a name. -/
theorem lexemes_accent : lexemes 0 (utf8 "_a\u0301") = [.token ⟨.ident, ⟨0, 0, 4⟩, "_\u00E1", .none⟩, endOfFile 0 4] := by
  rw [lexemes_utf8 accent_names.1 (by decide) (by decide), wordText_accent]
  decide +kernel

end Lexer

theorem name_fixed_accent : (∃ l ∈ lexemes 0 (utf8 "_a\u0301"), l.kind = .ident ∧ l.text = "_\u00E1") ∧
    (lexemes 1 (utf8 "_\u00E1") = [.token ⟨.ident, ⟨1, 0, (utf8 "_\u00E1").length⟩, "_\u00E1", .none⟩,
      Lexer.endOfFile 1 (utf8 "_\u00E1").length] ↔ Lexer.isMasked "_\u00E1" = false) := by
  have member : .token ⟨.ident, ⟨0, 0, 4⟩, "_\u00E1", .none⟩ ∈ lexemes 0 (utf8 "_a\u0301") := by
    rw [Lexer.lexemes_accent]
    exact List.mem_cons_self ..
  exact ⟨⟨_, member, rfl, rfl⟩, @name_fixed_iff 0 1 _ _ member rfl⟩

/-- The name that an underscore, a letter and an accent make up is read as an underscore, and not as a name. -/
theorem name_splits : (∃ l ∈ lexemes 0 (utf8 "_a\u0301"), l.kind = .ident ∧ l.text = "_\u00E1") ∧
    (lexemes 0 (utf8 "_\u00E1")).head? = some (.token ⟨.underscore, ⟨0, 0, 1⟩, "_", .none⟩) ∧
    lexemes 0 (utf8 "_\u00E1") ≠ [.token ⟨.ident, ⟨0, 0, 3⟩, "_\u00E1", .none⟩, Lexer.endOfFile 0 3] := by
  have first : (lexemes 0 (utf8 "_\u00E1")).head? = some (.token ⟨.underscore, ⟨0, 0, 1⟩, "_", .none⟩) := by
    rw [Lexer.lexemes_step Lexer.accent_names.2, Lexer.lexeme_utf8 Lexer.accent_names.2 (by decide)]
    decide +kernel
  refine ⟨⟨.token ⟨.ident, ⟨0, 0, 4⟩, "_\u00E1", .none⟩, ?_, rfl, rfl⟩, first, fun same => ?_⟩
  · rw [Lexer.lexemes_accent]
    exact List.mem_cons_self ..
  · rw [same] at first
    cases first

end PineLang
