import PineLang.Proofs.Pieces
import PineLang.Syntax.Printer

/-!
Tokens are read back from their spelling. A name or a number reads as itself before text that cannot
continue it (`Cut`), an operator before text that makes no longer operator of it (`Apart`), and a
string literal always, whatever characters it denotes.
-/
namespace PineLang
namespace Lexer

/-! ## What may follow -/

/-- Text that continues neither a name nor a number. -/
def Cut (bs : Bytes) : Prop :=
  ∃ b tail, bs = b :: tail ∧ b ∈ [0x20, 0x0A, 0x28, 0x29, 0x2C, 0x3A, 0x2E] ∧
    (b = 0x2E → ∀ c ∈ tail.head?, isDecimal c = false)

/-- A byte that an operand, a statement or a declaration starts with. -/
def isOpening (b : UInt8) : Bool := isNameByte b || b == 0x22 || b == 0x28 || b == 0x2D || b == 0x21

/-- Text that starts with an operand, a statement or a declaration. -/
def Opens (bs : Bytes) : Prop := ∃ b tail, bs = b :: tail ∧ isOpening b = true

/-- Text that makes no longer operator of the one before it, and no comment. -/
def Apart (bs : Bytes) : Prop := ∃ b tail, bs = b :: tail ∧ b ≠ 0x3E ∧ b ≠ 0x3D ∧ b ≠ 0x2F

theorem cut_classes : ∀ b ∈ ([0x20, 0x0A, 0x28, 0x29, 0x2C, 0x3A, 0x2E] : Bytes), b < 0x80 ∧ isNameByte b = false := by
  simp [isNameByte, isNameStartByte, isDecimal]

theorem Cut.apart {bs : Bytes} (cut : Cut bs) : Apart bs := by
  obtain ⟨b, tail, rfl, member, -⟩ := cut
  refine ⟨b, tail, rfl, ?_, ?_, ?_⟩ <;> rintro rfl <;> exact absurd member (by decide)

theorem Opens.apart {bs : Bytes} (opens : Opens bs) : Apart bs := by
  obtain ⟨b, tail, rfl, opening⟩ := opens
  refine ⟨b, tail, rfl, ?_, ?_, ?_⟩ <;> rintro rfl <;> exact absurd opening (by decide)

theorem Opens.append {bs : Bytes} (opens : Opens bs) (rest : Bytes) : Opens (bs ++ rest) := by
  obtain ⟨b, tail, rfl, opening⟩ := opens
  exact ⟨b, tail ++ rest, rfl, opening⟩

/-- Text reads as lexemes, apart from their places, before any text that may follow it. -/
def Reads (follows : Bytes → Prop) (bs : Bytes) (ls : List Lexeme) : Prop :=
  ∀ depth rest, follows rest → pieces depth (bs ++ rest) = ls.map Lexeme.bare? ++ pieces depth rest

namespace Reads

variable {P Q : Bytes → Prop} {as bs : Bytes} {ls ms : List Lexeme}

theorem append (first : Reads P as ls) (second : Reads Q bs ms) (fits : ∀ rest, Q rest → P (bs ++ rest)) :
    Reads Q (as ++ bs) (ls ++ ms) := by
  intro depth rest follows
  rw [List.append_assoc, first depth _ (fits rest follows), second depth rest follows, List.map_append, List.append_assoc]

theorem blank (reads : Reads P bs ls) : Reads P (0x20 :: bs) ls := by
  intro depth rest follows
  rw [List.cons_append, pieces_blank, reads depth rest follows]

theorem mono (reads : Reads P bs ls) (weaker : ∀ rest, Q rest → P rest) : Reads Q bs ls :=
  fun depth rest follows => reads depth rest (weaker rest follows)

end Reads

/-! ## Words -/

theorem ascii_of_nameByte {b : UInt8} (isName : isNameByte b = true) : b < 0x80 := by
  simp only [isNameByte, isNameStartByte, isDecimal, Bool.or_eq_true, Bool.and_eq_true, decide_eq_true_eq,
    beq_iff_eq] at isName
  grind

theorem nameStart_classes {b : UInt8} (starts : isNameStartByte b = true) :
    isBlank b = false ∧ b ≠ 0x2F ∧ b ≠ 0x0A := by
  simp only [isNameStartByte, isBlank, Bool.or_eq_true, Bool.and_eq_true, decide_eq_true_eq, beq_iff_eq] at starts ⊢
  grind

theorem decimal_classes {b : UInt8} (isDigit : isDecimal b = true) :
    (isNameStartByte b || decide (b ≥ 0x80)) = false ∧ isBlank b = false ∧ b ≠ 0x2F ∧ b ≠ 0x0A := by
  simp only [isDecimal, isNameStartByte, isBlank, Bool.and_eq_true, decide_eq_true_eq] at isDigit ⊢
  grind

theorem toNat_ofByte (b : UInt8) : (Char.ofNat b.toNat).toNat = b.toNat := by
  rw [Char.ofNat, dif_pos (.inl (Nat.lt_trans b.toNat_lt (by decide)))]
  rfl

theorem contains_of_mem {rs : Text.Ranges} {r : Nat × Nat} {n : Nat} (member : r ∈ rs.toList) (least : r.1 ≤ n)
    (most : n ≤ r.2) : rs.contains n = true := by
  rw [Text.Ranges.contains, ← Array.any_toList, List.any_eq_true]
  exact ⟨r, member, by simp [least, most]⟩

theorem isNameStart_of_byte {b : UInt8} (starts : isNameStartByte b = true) : isNameStart (Char.ofNat b.toNat) = true := by
  have capitals : (0x41, 0x5A) ∈ Text.letterRanges.toList := List.mem_cons_self
  have smalls : (0x61, 0x7A) ∈ Text.letterRanges.toList := List.mem_cons_of_mem _ List.mem_cons_self
  simp only [isNameStartByte, Bool.or_eq_true, Bool.and_eq_true, decide_eq_true_eq, beq_iff_eq, UInt8.le_iff_toNat_le]
    at starts
  obtain (rfl | ⟨least, most⟩) | ⟨least, most⟩ := starts
  · rfl
  · rw [isNameStart, Text.isLetter, toNat_ofByte, contains_of_mem capitals least most, Bool.or_true]
  · rw [isNameStart, Text.isLetter, toNat_ofByte, contains_of_mem smalls least most, Bool.or_true]

/-- The string of ASCII bytes. -/
def asciiText (bs : Bytes) : String := String.ofList (bs.map fun b => Char.ofNat b.toNat)

theorem chars_ascii : ∀ {bs : Bytes}, (∀ b ∈ bs, b < 0x80) → Text.chars bs = bs.map fun b => Char.ofNat b.toNat
  | [], _ => rfl
  | b :: bs, ascii => by
    have first : b.toNat < 0x80 := UInt8.lt_iff_toNat_lt.mp (ascii b (List.mem_cons_self ..))
    have low : ¬ b ≥ 0x80 := by
      rw [ge_iff_le, UInt8.le_iff_toNat_le]
      exact Nat.not_le.mpr first
    have rest := @chars_ascii bs fun c member => ascii c (List.mem_cons_of_mem b member)
    simp only [Text.chars, Text.units, Text.unitsFrom, Text.decodeHead_one first, low, List.map_cons, decide_false,
      Bool.and_false, Bool.false_eq_true, if_false, Text.Unit8.toChar] at rest ⊢
    rw [rest]

theorem wordText_ascii {bs : Bytes} (ascii : ∀ b ∈ bs, b < 0x80) : wordText bs = asciiText bs := by
  have all : bs.all (· < 0x80) = true := by simpa using ascii
  rw [wordText, if_pos all, Text.lossy, chars_ascii ascii, asciiText]

theorem nameExtent_append : ∀ {bs : Bytes}, (∀ b ∈ bs, isNameByte b = true) → ∀ {rest : Bytes}, Cut rest →
    nameExtent 0 (bs ++ rest) = bs.length
  | [], _, rest, cut => by
    obtain ⟨b, tail, rfl, member, -⟩ := cut
    obtain ⟨ascii, other⟩ := cut_classes b member
    simp [nameExtent, ascii, other]
  | b :: bs, names, rest, cut => by
    have isName := names b (List.mem_cons_self ..)
    have ih := @nameExtent_append bs (fun c member => names c (List.mem_cons_of_mem b member)) _ cut
    simp [nameExtent, ascii_of_nameByte isName, isName, ih]

/-- The bytes of a keyword, a name or an underscore. -/
def IsWord (bs : Bytes) : Prop :=
  ∃ b tail, bs = b :: tail ∧ isNameStartByte b = true ∧ ∀ c ∈ tail, isNameByte c = true

theorem IsWord.ascii {bs : Bytes} (isWord : IsWord bs) : ∀ b ∈ bs, b < 0x80 := by
  obtain ⟨b, tail, rfl, starts, names⟩ := isWord
  intro c member
  obtain rfl | inside := List.mem_cons.mp member
  · exact ascii_of_nameByte (by rw [isNameByte, starts, Bool.true_or])
  · exact ascii_of_nameByte (names c inside)

theorem word_append {b : UInt8} {bs rest : Bytes} (isWord : IsWord (b :: bs)) (cut : Cut rest) :
    (word 0 ⟨0, b :: bs ++ rest⟩).1.bare? = some ⟨wordKind (asciiText (b :: bs)), {}, asciiText (b :: bs), .none⟩ ∧
      (word 0 ⟨0, b :: bs ++ rest⟩).2.rest = rest := by
  have ascii := isWord.ascii
  obtain ⟨_, _, same, starts, names⟩ := isWord
  obtain ⟨rfl, rfl⟩ := List.cons.inj same
  have head : Text.decodeHead (b :: bs ++ rest) = (Char.ofNat b.toNat, 1) :=
    Text.decodeHead_one (UInt8.lt_iff_toNat_lt.mp (ascii b (List.mem_cons_self ..)))
  have extent : 1 + nameExtent 0 ((b :: bs ++ rest).drop 1) = (b :: bs).length := by
    rw [List.cons_append, List.drop_one, List.tail_cons, nameExtent_append names cut, List.length_cons, Nat.add_comm]
  simp only [word, head, isNameStart_of_byte starts, if_true, extent, List.take_left, wordText_ascii ascii,
    Cursor.advance, List.drop_left, and_true]
  rfl

theorem not_comment {b : UInt8} {tail : Bytes} (notSlash : b ≠ 0x2F) : startsComment (b :: tail) = false := by
  unfold startsComment
  split
  · next same =>
    cases same
    exact absurd rfl notSlash
  · rfl

theorem not_comment_pair {b c : UInt8} {tail : Bytes} (notSlash : c ≠ 0x2F) : startsComment (b :: c :: tail) = false := by
  unfold startsComment
  split
  · next same =>
    cases same
    exact absurd rfl notSlash
  · rfl

/-- Where a word starts, unless it is an underscore by itself. -/
theorem lexeme_word {file off : Nat} {b : UInt8} {tail : Bytes} (starts : isNameStartByte b = true)
    (longer : b = 0x5F → ∃ c others, tail = c :: others ∧ isNameByte c = true) :
    lexeme file ⟨off, b :: tail⟩ = word file ⟨off, b :: tail⟩ := by
  unfold lexeme
  simp only
  split
  · next c others shape =>
    obtain ⟨rfl, rfl⟩ := List.cons.inj shape
    obtain ⟨_, _, same, isName⟩ := longer rfl
    cases same
    rw [if_pos isName]
  · next shape =>
    obtain ⟨rfl, rfl⟩ := List.cons.inj shape
    obtain ⟨_, _, same, _⟩ := longer rfl
    cases same
  · next shape =>
    obtain ⟨rfl, rfl⟩ := List.cons.inj shape
    rw [starts, Bool.true_or, if_pos rfl]
  · next shape => cases shape

theorem wordKind_cases (text : String) :
    wordKind text = .ident ∨ (isFixed (wordKind text) = true ∧ text = (wordKind text).name) := by
  unfold wordKind
  split
  · next underscore => exact .inr ⟨rfl, eq_of_beq underscore⟩
  · cases found : Kind.keyword? text with
    | none => exact .inl rfl
    | some k =>
      have keyword : k ∈ Kind.keywords := List.mem_of_find?_eq_some found
      have name : k.name = text := eq_of_beq (List.find?_some (p := fun k : Kind => k.name == text) found)
      have fixed : ∀ k ∈ Kind.keywords, isFixed k = true := by decide
      exact .inr ⟨fixed k keyword, name.symm⟩

theorem spelling_word {bs : Bytes} (ascii : ∀ b ∈ bs, b < 0x80) : ∀ s ∈ spelling? (wordKind (asciiText bs)), s = bs := by
  intro s known
  obtain isName | ⟨fixed, name⟩ := wordKind_cases (asciiText bs)
  · rw [isName] at known
    cases known
  · rw [spelling_fixed fixed, ← name, asciiText, utf8_ofBytes ascii] at known
    exact (Option.some.inj known).symm

theorem Reads.word {bs : Bytes} (isWord : IsWord bs) (span : Span) :
    Reads Cut bs [.token ⟨wordKind (asciiText bs), span, asciiText bs, .none⟩] := by
  intro depth rest cut
  have spelled := spelling_word isWord.ascii
  obtain ⟨b, tail, rfl, starts, names⟩ := isWord
  have whole := word_append ⟨b, tail, rfl, starts, names⟩ cut
  obtain ⟨notBlank, notSlash, notBreak⟩ := nameStart_classes starts
  have read : (lexeme 0 ⟨0, b :: tail ++ rest⟩).1.bare? =
        some ⟨wordKind (asciiText (b :: tail)), {}, asciiText (b :: tail), .none⟩ ∧
      (lexeme 0 ⟨0, b :: tail ++ rest⟩).2.rest = rest := by
    by_cases alone : b = 0x5F ∧ tail = []
    · -- An underscore by itself is read as an operator, but to the same token.
      obtain ⟨rfl, rfl⟩ := alone
      obtain ⟨c, others, rfl, member, -⟩ := cut
      have other : isNameByte c = false := (cut_classes c member).2
      have same : wordKind (asciiText [0x5F]) = .underscore ∧ asciiText [0x5F] = "_" := by decide
      rw [same.1, same.2]
      simp only [lexeme, List.cons_append, List.nil_append, other, Bool.false_eq_true, if_false]
      exact ⟨rfl, rfl⟩
    · have longer : b = 0x5F → ∃ c others, tail ++ rest = c :: others ∧ isNameByte c = true := by
        intro underscore
        cases tail with
        | nil => exact absurd ⟨underscore, rfl⟩ alone
        | cons c others => exact ⟨c, others ++ rest, rfl, names c (List.mem_cons_self ..)⟩
      rwa [List.cons_append, lexeme_word starts longer, ← List.cons_append]
  exact pieces_token rfl notBlank notBreak (not_comment notSlash) read.1 read.2 spelled

/-! ## Operators -/

/-- The operators and punctuation marks of the grammar, as bytes. -/
def signs : List (Kind × Bytes) :=
  [(.lparen, [0x28]), (.rparen, [0x29]), (.lbrace, [0x7B]), (.rbrace, [0x7D]), (.comma, [0x2C]), (.dot, [0x2E]),
   (.minus, [0x2D]), (.plus, [0x2B]), (.slash, [0x2F]), (.percent, [0x25]), (.star, [0x2A]), (.colon, [0x3A]),
   (.arrow, [0x2D, 0x3E]), (.bang, [0x21]), (.bangEq, [0x21, 0x3D]), (.assign, [0x3D]), (.eqEq, [0x3D, 0x3D]),
   (.gt, [0x3E]), (.gtEq, [0x3E, 0x3D]), (.lt, [0x3C]), (.ltEq, [0x3C, 0x3D])]

theorem signs_spelling : ∀ s ∈ signs, utf8 s.1.name = s.2 ∧ s.1.name.length = s.2.length := by simp only [utf8_eq]; decide

theorem spelling_sign {k : Kind} {bs : Bytes} (isSign : (k, bs) ∈ signs) : ∀ s ∈ spelling? k, s = bs := by
  have fixed : ∀ s ∈ signs, isFixed s.1 = true := by decide
  intro s known
  rw [spelling_fixed (fixed _ isSign), (signs_spelling _ isSign).1] at known
  exact (Option.some.inj known).symm

theorem signs_classes : ∀ s ∈ signs, s.2 ≠ [] ∧ (∀ b ∈ s.2, isBlank b = false ∧ b ≠ 0x0A ∧
    (isNameStartByte b || decide (b ≥ 0x80) || isDecimal b || b == 0x22) = false) ∧ ∀ b ∈ s.2.tail, b ≠ 0x2F := by
  decide

theorem operator_append {c : UInt8} {tail : Bytes} (notGreater : c ≠ 0x3E) (notEqual : c ≠ 0x3D) :
    ∀ s ∈ signs, operator? (s.2 ++ c :: tail) = some s.1 := by
  simp only [signs, List.forall_mem_cons, List.cons_append, List.nil_append]
  -- these five start a longer one
  have minus : operator? (0x2D :: c :: tail) = some .minus := by simp [operator?, notGreater]
  have bang : operator? (0x21 :: c :: tail) = some .bang := by simp [operator?, notEqual]
  have assign : operator? (0x3D :: c :: tail) = some .assign := by simp [operator?, notEqual]
  have gt : operator? (0x3E :: c :: tail) = some .gt := by simp [operator?, notEqual]
  have lt : operator? (0x3C :: c :: tail) = some .lt := by simp [operator?, notEqual]
  exact ⟨rfl, rfl, rfl, rfl, rfl, rfl, minus, rfl, rfl, rfl, rfl, rfl, rfl, bang, rfl, assign, rfl, gt, rfl, lt, rfl, List.forall_mem_nil _⟩

theorem lexeme_operator {file off : Nat} {b : UInt8} {tail : Bytes}
    (other : (isNameStartByte b || decide (b ≥ 0x80) || isDecimal b || b == 0x22) = false) :
    lexeme file ⟨off, b :: tail⟩ = operator file ⟨off, b :: tail⟩ := by
  simp only [Bool.or_eq_false_iff] at other
  obtain ⟨⟨⟨notStart, low⟩, notDigit⟩, notQuote⟩ := other
  unfold lexeme
  simp only
  split
  · next shape =>
    obtain ⟨rfl, rfl⟩ := List.cons.inj shape
    exact absurd notStart (by decide)
  · next shape =>
    obtain ⟨rfl, rfl⟩ := List.cons.inj shape
    exact absurd notStart (by decide)
  · next shape =>
    obtain ⟨rfl, rfl⟩ := List.cons.inj shape
    simp only [notStart, low, notDigit, notQuote, Bool.or_self, Bool.false_eq_true, if_false]
  · next shape => cases shape

theorem Reads.operator {k : Kind} {bs : Bytes} (isSign : (k, bs) ∈ signs) (span : Span) :
    Reads Apart bs [.token ⟨k, span, k.name, .none⟩] := by
  intro depth rest apart
  obtain ⟨c, tail, rfl, notGreater, notEqual, notSlash⟩ := apart
  obtain ⟨nonempty, classes, noSlash⟩ := signs_classes _ isSign
  obtain ⟨b, others, rfl⟩ := List.exists_cons_of_ne_nil nonempty
  obtain ⟨notBlank, notBreak, other⟩ := classes b (List.mem_cons_self ..)
  have found := @operator_append c tail notGreater notEqual _ isSign
  have width : k.name.length = (b :: others).length := (signs_spelling _ isSign).2
  have notComment : startsComment (b :: (others ++ c :: tail)) = false := by
    cases others with
    | nil => exact not_comment_pair notSlash
    | cons d others => exact not_comment_pair (noSlash d (List.mem_cons_self ..))
  have read : (lexeme 0 ⟨0, b :: others ++ c :: tail⟩).1.bare? = some ⟨k, {}, k.name, .none⟩ ∧
      (lexeme 0 ⟨0, b :: others ++ c :: tail⟩).2.rest = c :: tail := by
    rw [List.cons_append] at found ⊢
    simp only [lexeme_operator other, Lexer.operator, found, Cursor.advance, width]
    rw [← List.cons_append, List.drop_left]
    exact ⟨rfl, rfl⟩
  exact pieces_token rfl notBlank notBreak notComment read.1 read.2 (spelling_sign isSign)

/-! ## Numbers -/

/-- One digit or more. -/
def IsDigits (bs : Bytes) : Prop := bs ≠ [] ∧ ∀ b ∈ bs, isDecimal b = true

theorem digitRun_append {bs rest : Bytes} (digits : ∀ b ∈ bs, isDecimal b = true)
    (stops : ∀ b ∈ rest.head?, isDecimal b = false) : digitRun (bs ++ rest) = bs := by
  rw [digitRun, List.takeWhile_append_of_pos digits]
  cases rest with
  | nil => simp
  | cons b tail => simp [stops b rfl]

theorem Cut.stops {rest : Bytes} (cut : Cut rest) : ∀ b ∈ rest.head?, isDecimal b = false := by
  obtain ⟨b, tail, rfl, member, -⟩ := cut
  rintro _ ⟨⟩
  have other := (cut_classes b member).2
  rw [isNameByte, Bool.or_eq_false_iff] at other
  exact other.2

theorem fractionRun_cut {bs rest : Bytes} (digits : ∀ b ∈ bs, isDecimal b = true) (cut : Cut rest) :
    fractionRun (bs ++ rest) = [] := by
  rw [fractionRun, digitRun_append digits cut.stops, List.drop_left]
  obtain ⟨b, tail, rfl, member, noFraction⟩ := cut
  split
  · next same =>
    obtain ⟨rfl, rfl⟩ := List.cons.inj same
    have none : digitRun ([] ++ tail) = [] := digitRun_append (List.forall_mem_nil _) (noFraction rfl)
    exact none
  · rfl

theorem fractionRun_point {bs fs rest : Bytes} (digits : ∀ b ∈ bs, isDecimal b = true)
    (fraction : ∀ b ∈ fs, isDecimal b = true) (cut : Cut rest) : fractionRun (bs ++ (0x2E :: fs) ++ rest) = fs := by
  have point : ∀ b ∈ (0x2E :: fs ++ rest).head?, isDecimal b = false := by
    rintro _ ⟨⟩
    decide
  rw [fractionRun, List.append_assoc, digitRun_append digits point, List.drop_left]
  exact digitRun_append fraction cut.stops

theorem lexeme_number {file off : Nat} {b : UInt8} {tail : Bytes} (isDigit : isDecimal b = true) :
    lexeme file ⟨off, b :: tail⟩ = number file ⟨off, b :: tail⟩ := by
  unfold lexeme
  simp only
  split
  · next shape =>
    obtain ⟨rfl, rfl⟩ := List.cons.inj shape
    exact absurd isDigit (by decide)
  · next shape =>
    obtain ⟨rfl, rfl⟩ := List.cons.inj shape
    exact absurd isDigit (by decide)
  · next shape =>
    obtain ⟨rfl, rfl⟩ := List.cons.inj shape
    rw [(decimal_classes isDigit).1, isDigit]
    rfl
  · next shape => cases shape

/-- Text that starts with a digit is read as a number. -/
theorem pieces_number {depth : Nat} {text rest : Bytes} {t : Token} (starts : ∃ b tail, text = b :: tail ∧ isDecimal b = true)
    (read : (number 0 ⟨0, text ++ rest⟩).1.bare? = some t) (left : (number 0 ⟨0, text ++ rest⟩).2.rest = rest)
    (spelled : spelling? t.kind = none) : pieces depth (text ++ rest) = some t :: pieces depth rest := by
  obtain ⟨b, tail, rfl, isDigit⟩ := starts
  obtain ⟨-, notBlank, notSlash, notBreak⟩ := decimal_classes isDigit
  have isNumber : lexeme 0 ⟨0, b :: tail ++ rest⟩ = number 0 ⟨0, b :: tail ++ rest⟩ := lexeme_number isDigit
  rw [← isNumber] at read left
  exact pieces_token rfl notBlank notBreak (not_comment notSlash) read left (by rw [spelled]; nofun)

theorem IsDigits.starts {bs : Bytes} (digits : IsDigits bs) (rest : Bytes) :
    ∃ b tail, bs ++ rest = b :: tail ∧ isDecimal b = true := by
  obtain ⟨nonempty, all⟩ := digits
  obtain ⟨b, tail, rfl⟩ := List.exists_cons_of_ne_nil nonempty
  exact ⟨b, tail ++ rest, rfl, all b (List.mem_cons_self ..)⟩

theorem Reads.int {bs : Bytes} (digits : IsDigits bs) (bound : Double.digitsValue (digitChars bs) < 0x10000000000000000)
    (span : Span) : Reads Cut bs
      [.token ⟨.intLit, span, asciiText bs, .int (Double.digitsValue (digitChars bs)).toUInt64⟩] := by
  intro depth rest cut
  have starts := digits.starts []
  rw [List.append_nil] at starts
  have read := number_int (c := ⟨0, bs ++ rest⟩) (fractionRun_cut digits.2 cut) 0
  simp only [digitRun_append digits.2 cut.stops, bound, if_true, Cursor.advance, List.drop_left] at read
  exact pieces_number starts (by rw [read]; rfl) (by rw [read]) rfl

theorem Reads.float {bs fs : Bytes} {value : Double} (digits : IsDigits bs) (fraction : IsDigits fs)
    (known : Double.ofDecimal? (digitChars bs) (digitChars fs) = some value) (span : Span) :
    Reads Cut (bs ++ 0x2E :: fs) [.token ⟨.floatLit, span, asciiText (bs ++ 0x2E :: fs), .float value⟩] := by
  intro depth rest cut
  have whole : digitRun (bs ++ (0x2E :: fs) ++ rest) = bs := by
    rw [List.append_assoc]
    refine digitRun_append digits.2 ?_
    rintro _ ⟨⟩
    decide
  have parted := fractionRun_point digits.2 fraction.2 cut
  have width : bs.length + 1 + fs.length = (bs ++ (0x2E :: fs)).length := by
    rw [List.length_append, List.length_cons]
    omega
  have text : String.ofList (digitChars bs ++ '.' :: digitChars fs) = asciiText (bs ++ 0x2E :: fs) := by
    simp [asciiText, digitChars]
  have read := number_float (c := ⟨0, bs ++ (0x2E :: fs) ++ rest⟩) (by rw [parted]; exact fraction.1) 0
  simp only [whole, parted, known, Cursor.advance, width, List.drop_left, text] at read
  exact pieces_number (digits.starts _) (by rw [read]; rfl) (by rw [read]) rfl

/-! ## Strings -/

section Strings

variable {file start off : Nat} {text : List Char} {bad : Option LexError} {rest : Bytes}

theorem stringBody_skip : ∀ (bs : Bytes) (off : Nat), stringBody file start bs.length off text bad (bs ++ rest) =
    stringBody file start 0 (off + bs.length) text bad rest
  | [], _ => rfl
  | b :: bs, off => by
    have ih := stringBody_skip bs (off + 1)
    simp only [List.length_cons, List.cons_append, stringBody, ih]
    rw [Nat.add_assoc, Nat.add_comm 1]

theorem stringBody_escape {e : UInt8} {c : Char} (ascii : e < 0x80) (known : escape? (Char.ofNat e.toNat) = some c)
    (inLine : e ≠ 0x0A) : stringBody file start 0 off text bad (0x5C :: e :: rest) =
      stringBody file start 0 (off + 2) (c :: text) bad rest := by
  have head : Text.decodeHead (e :: rest) = (Char.ofNat e.toNat, 1) :=
    Text.decodeHead_one (UInt8.lt_iff_toNat_lt.mp ascii)
  simp [stringBody, inLine, head, known]

/-- A character that needs no escape is read as it stands. -/
theorem stringBody_plain {c : Char} (inLine : c ≠ '\n') (notQuote : c ≠ '"') (notEscape : c ≠ '\\') (notNull : c.toNat ≠ 0) :
    stringBody file start 0 off text bad (String.utf8EncodeChar c ++ rest) =
      stringBody file start 0 (off + (String.utf8EncodeChar c).length) (c :: text) bad rest := by
  have decoded := Text.decodeHead_encode c rest
  obtain ⟨b, tail, shape⟩ := List.exists_cons_of_ne_nil (@String.utf8EncodeChar_ne_nil c)
  rw [shape, List.cons_append] at decoded ⊢
  -- An ASCII byte at the head is the character itself.
  have other {n : UInt8} (ascii : n < 0x80) (differs : c ≠ Char.ofNat n.toNat) : b ≠ n := by
    rintro rfl
    rw [Text.decodeHead_one (UInt8.lt_iff_toNat_lt.mp ascii)] at decoded
    exact differs (Prod.mk.inj decoded).1.symm
  have notBreak : b ≠ 0x0A := other (by decide) inLine
  have notZero : b ≠ 0 := other (by decide) (fun null => notNull (by rw [null]; rfl))
  have notMark : b ≠ 0x22 := other (by decide) notQuote
  have notSlash : b ≠ 0x5C := other (by decide) notEscape
  have skipped : stringBody file start tail.length (off + 1) (c :: text) bad (tail ++ rest) =
      stringBody file start 0 (off + 1 + tail.length) (c :: text) bad rest := stringBody_skip tail (off + 1)
  rw [stringBody.eq_def]
  simp only [notBreak, notZero, notMark, notSlash, decoded, List.length_cons, Nat.add_sub_cancel, beq_iff_eq,
    Bool.or_eq_true, or_self, if_false, skipped]
  rw [Nat.add_assoc, Nat.add_comm 1]

/-- A quoted character is read as the character, whatever stands behind it. -/
theorem stringBody_char (c : Char) : stringBody file start 0 off text bad (utf8 (quoteStringChar c) ++ rest) =
    stringBody file start 0 (off + (utf8 (quoteStringChar c)).length) (c :: text) bad rest := by
  have escaped {e : UInt8} {word : String} (spelled : utf8 word = [0x5C, e])
      (known : e < 0x80 ∧ escape? (Char.ofNat e.toNat) = some c ∧ e ≠ 0x0A) :
      stringBody file start 0 off text bad (utf8 word ++ rest) =
        stringBody file start 0 (off + (utf8 word).length) (c :: text) bad rest := by
    rw [spelled]
    exact stringBody_escape known.1 known.2.1 known.2.2
  unfold quoteStringChar
  split
  · exact escaped (e := 0x6E) (by simp only [utf8_eq]; decide) (by decide)
  · exact escaped (e := 0x74) (by simp only [utf8_eq]; decide) (by decide)
  · exact escaped (e := 0x72) (by simp only [utf8_eq]; decide) (by decide)
  · exact escaped (e := 0x5C) (by simp only [utf8_eq]; decide) (by decide)
  · exact escaped (e := 0x22) (by simp only [utf8_eq]; decide) (by decide)
  · next notBreak notTab notReturn notSlash notQuote =>
    split
    · next null =>
      have same : c = Char.ofNat 0 := by
        rw [← null, Char.ofNat_toNat]
      subst same
      exact escaped (e := 0x30) (by simp only [utf8_eq]; decide) (by decide)
    · next notNull =>
      have bytes : utf8 (String.singleton c) = String.utf8EncodeChar c := by simp [utf8_eq]
      rw [bytes]
      exact stringBody_plain notBreak notQuote notSlash notNull

/-- Quoted characters and the closing quote are read as a string of the characters, up to the quote. -/
theorem stringBody_quoted : ∀ (cs : List Char) (off : Nat) (text : List Char),
    stringBody file start 0 off text none ((cs.map quoteStringChar).flatMap utf8 ++ 0x22 :: rest) =
      (.token ⟨.stringLit, ⟨file, start, off + ((cs.map quoteStringChar).flatMap utf8).length + 1⟩,
        String.ofList (text.reverse ++ cs), .none⟩, ⟨off + ((cs.map quoteStringChar).flatMap utf8).length + 1, rest⟩)
  | [], off, text => by
    rw [List.map_nil, List.flatMap_nil, List.nil_append, List.append_nil, stringBody.eq_def]
    rfl
  | c :: cs, off, text => by
    have ih := stringBody_quoted cs (off + (utf8 (quoteStringChar c)).length) (c :: text)
    rw [List.map_cons, List.flatMap_cons, List.append_assoc, stringBody_char, ih]
    simp [Nat.add_assoc]

end Strings

theorem utf8_quoteString (t : String) : utf8 (quoteString t) = 0x22 :: ((t.toList.map quoteStringChar).flatMap utf8 ++ [0x22]) := by
  have quote : utf8 "\"" = [0x22] := by simp only [utf8_eq]; decide
  rw [quoteString, utf8_append, utf8_append, quote, utf8_join]
  simp

/-- A quoted string is read as that string, and the place after it is behind the quote. -/
theorem lexeme_quoted (file off : Nat) (t : String) (rest : Bytes) : lexeme file ⟨off, utf8 (quoteString t) ++ rest⟩ =
    (.token ⟨.stringLit, ⟨file, off, off + (utf8 (quoteString t)).length⟩, t, .none⟩,
      ⟨off + (utf8 (quoteString t)).length, rest⟩) := by
  have whole : utf8 (quoteString t) ++ rest = 0x22 :: ((t.toList.map quoteStringChar).flatMap utf8 ++ 0x22 :: rest) := by
    rw [utf8_quoteString]
    simp
  have here (tail : Bytes) : lexeme file ⟨off, 0x22 :: tail⟩ = stringBody file off 0 (off + 1) [] none tail := rfl
  have length : (utf8 (quoteString t)).length = 1 + ((t.toList.map quoteStringChar).flatMap utf8).length + 1 := by
    rw [utf8_quoteString, List.length_cons, List.length_append, List.length_singleton, Nat.add_comm 1]
  rw [whole, here, stringBody_quoted, List.reverse_nil, List.nil_append, String.ofList_toList, length]
  simp only [Nat.add_assoc]

/-- A string literal reads as what it denotes. -/
theorem Reads.string (t : String) (span : Span) : Reads Apart (utf8 (quoteString t)) [.token ⟨.stringLit, span, t, .none⟩] := by
  intro depth rest _
  have read := lexeme_quoted 0 0 t rest
  refine pieces_token (by rw [utf8_quoteString]; rfl) rfl (by decide) (by rw [utf8_quoteString]; rfl) ?_ ?_ nofun
  · rw [read]
    rfl
  · rw [read]

end Lexer
end PineLang
