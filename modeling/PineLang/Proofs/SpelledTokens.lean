import PineLang.Proofs.Grammar
import PineLang.Proofs.Spelling

/-!
The tokens of a source are spelled as their kind calls for (`spelled_of_mem`), if its names are
ASCII, so that each of them is read back from what the printer writes for it.
-/
namespace PineLang
open Lexer

/-- The token has the text and the value that its kind calls for. -/
def Token.Spelled (t : Token) : Prop :=
  match t.kind with
  | .ident => t.payload = .none ∧ ∃ bs, IsWord bs ∧ t.text = asciiText bs ∧ wordKind t.text = .ident
  | .intLit => ∃ bs, IsDigits bs ∧ t.text = asciiText bs ∧
      Double.digitsValue (digitChars bs) < 0x10000000000000000 ∧
        t.payload = .int (Double.digitsValue (digitChars bs)).toUInt64
  | .floatLit => ∃ bs fs value, IsDigits bs ∧ IsDigits fs ∧ t.text = asciiText (bs ++ 0x2E :: fs) ∧
      Double.ofDecimal? (digitChars bs) (digitChars fs) = some value ∧ t.payload = .float value
  | .stringLit => t.payload = .none
  | .invalid | .eof | .newLine | .indent | .dedent => True
  | k => t.text = k.name ∧ t.payload = .none

/-- The token as which a lexeme is read is spelled as its kind calls for. -/
def Lexeme.Spelled (l : Lexeme) : Prop := l.toToken.Spelled

/-- The bytes of a lexeme in the source. -/
def Lexeme.bytes (l : Lexeme) (source : Bytes) : Bytes := (source.take l.span.stop).drop l.span.start

/-- The names among the lexemes are ASCII in the source. -/
def AsciiNames (source : Bytes) (ls : List Lexeme) : Prop :=
  ∀ l ∈ ls, l.kind = .ident → ∀ b ∈ l.bytes source, b < 0x80

theorem AsciiNames.mono {source : Bytes} {ls ms : List Lexeme} (ascii : AsciiNames source ms) (inside : ls ⊆ ms) :
    AsciiNames source ls := fun l member => ascii l (inside member)

namespace Lexer

/-! ## What the lexer makes -/

theorem spelled_fixed {k : Kind} (fixed : isFixed k = true) (span : Span) : Token.Spelled ⟨k, span, k.name, .none⟩ := by
  cases k <;> first | exact ⟨rfl, rfl⟩ | cases fixed

theorem Spelled.fixed {t : Token} (spelled : t.Spelled) (fixed : isFixed t.kind = true) :
    t.text = t.kind.name ∧ t.payload = .none := by
  obtain ⟨k, span, text, payload⟩ := t
  cases k <;> first | exact spelled | cases fixed

theorem spelled_error (e : LexError) (earlier : Option LexError) : (Lexeme.error e earlier).Spelled := trivial

theorem operator_spelled (file : Nat) (c : Cursor) : (operator file c).1.Spelled := by
  unfold operator unexpected
  split
  · next k found =>
    refine spelled_fixed ?_ _
    unfold operator? at found
    split at found <;> cases found <;> rfl
  · exact spelled_error _ _

theorem stringBody_spelled {file start : Nat} : ∀ (bs : Bytes) (skip off : Nat) (text : List Char) (bad : Option LexError),
    (stringBody file start skip off text bad bs).1.Spelled
  | [], _, _, _, _ => spelled_error _ _
  | b :: rest, k + 1, off, text, bad => stringBody_spelled rest k (off + 1) text bad
  | b :: rest, 0, off, text, bad => by
    rw [stringBody.eq_def]
    simp only
    split
    · exact spelled_error _ _
    · split
      · split
        · exact spelled_error _ _
        · exact rfl
      · split
        · cases rest with
          | nil => exact spelled_error _ _
          | cons e rest' =>
            simp only
            split
            · exact spelled_error _ _
            · split
              · exact stringBody_spelled rest' _ _ _ _
              · exact stringBody_spelled rest' _ _ _ _
        · exact stringBody_spelled rest _ _ _ _

theorem number_spelled (file : Nat) {c : Cursor} (digits : digitRun c.rest ≠ []) : (number file c).1.Spelled := by
  have run (bs : Bytes) : ∀ b ∈ digitRun bs, isDecimal b = true := List.all_eq_true.mp List.all_takeWhile
  by_cases whole : fractionRun c.rest = []
  · rw [number_int whole]
    simp only
    split
    · next bound => exact ⟨digitRun c.rest, ⟨digits, run _⟩, rfl, bound, rfl⟩
    · exact spelled_error _ _
  · have fraction : ∀ b ∈ fractionRun c.rest, isDecimal b = true := by
      unfold fractionRun
      split
      · exact run _
      · nofun
    rw [number_float whole]
    simp only
    split
    · next value known =>
      have text : String.ofList (digitChars (digitRun c.rest) ++ '.' :: digitChars (fractionRun c.rest)) =
          asciiText (digitRun c.rest ++ 0x2E :: fractionRun c.rest) := by
        simp [asciiText, digitChars]
      exact ⟨digitRun c.rest, fractionRun c.rest, value, ⟨digits, run _⟩, ⟨whole, fraction⟩, text, known, rfl⟩
    · exact spelled_error _ _

/-- The bytes that continue a name are name bytes, as far as they are ASCII. -/
theorem nameExtent_names {bs : Bytes} (ascii : ∀ b ∈ bs.take (nameExtent 0 bs), b < 0x80) :
    ∀ b ∈ bs.take (nameExtent 0 bs), isNameByte b = true := by
  induction bs with
  | nil => simp
  | cons b bs ih =>
    unfold nameExtent at ascii ⊢
    simp only at ascii ⊢
    by_cases low : b < 0x80
    · rw [if_pos low] at ascii ⊢
      by_cases isName : isNameByte b = true
      · rw [if_pos isName, List.take_succ_cons] at ascii ⊢
        intro c member
        obtain rfl | inside := List.mem_cons.mp member
        · exact isName
        · exact ih (fun c member => ascii c (List.mem_cons_of_mem b member)) c inside
      · simp [isName]
    · rw [if_neg low] at ascii ⊢
      split at ascii
      · exact absurd (ascii b (by simp)) low
      · next other => simp [other]

theorem word_spelled (file : Nat) {source : Bytes} {b : UInt8} {tail : Bytes} {off : Nat}
    (place : b :: tail = source.drop off) (starts : (isNameStartByte b || b ≥ 0x80) = true)
    (ascii : AsciiNames source [(word file ⟨off, b :: tail⟩).1]) : (word file ⟨off, b :: tail⟩).1.Spelled := by
  unfold word unexpected at ascii ⊢
  simp only at ascii ⊢
  by_cases named : isNameStart (Text.decodeHead (b :: tail)).1 = true
  · rw [if_pos named] at ascii ⊢
    have width := decodeHead_width b tail
    generalize extent : (Text.decodeHead (b :: tail)).2 + nameExtent 0 ((b :: tail).drop (Text.decodeHead (b :: tail)).2) =
      n at ascii ⊢
    obtain isName | ⟨fixed, name⟩ := wordKind_cases (wordText ((b :: tail).take n))
    · have bytes := ascii _ (List.mem_singleton.mpr rfl) isName
      simp only [Lexeme.bytes, Lexeme.span, Lexeme.toToken, Cursor.span, List.drop_take, ← place, Nat.add_sub_cancel_left] at bytes
      have first : b ∈ (b :: tail).take n := by
        rw [show n = n - 1 + 1 by omega, List.take_succ_cons]
        exact List.mem_cons_self ..
      have low := UInt8.lt_iff_toNat_lt.mp (bytes b first)
      have start : isNameStartByte b = true := by
        have notHigh : ¬ b ≥ 0x80 := by
          rw [ge_iff_le, UInt8.le_iff_toNat_le]
          exact Nat.not_le.mpr low
        simpa [notHigh] using starts
      rw [Text.decodeHead_one low, List.drop_one, List.tail_cons, Nat.add_comm] at extent
      have isWord : IsWord ((b :: tail).take n) := by
        rw [← extent, List.take_succ_cons] at bytes ⊢
        exact ⟨b, _, rfl, start, nameExtent_names fun c member => bytes c (List.mem_cons_of_mem b member)⟩
      rw [isName]
      exact ⟨rfl, _, isWord, wordText_ascii bytes, isName⟩
    · generalize wordText ((b :: tail).take n) = text at name fixed ⊢
      rw [show (⟨wordKind text, Cursor.span ⟨off, b :: tail⟩ file n, text, .none⟩ : Token) =
        ⟨wordKind text, Cursor.span ⟨off, b :: tail⟩ file n, (wordKind text).name, .none⟩ by rw [← name]]
      exact spelled_fixed fixed _
  · rw [if_neg named]
    exact spelled_error _ _

theorem lexeme_spelled (file : Nat) {source : Bytes} {c : Cursor} (place : c.rest = source.drop c.off)
    (ascii : AsciiNames source [(lexeme file c).1]) : (lexeme file c).1.Spelled := by
  obtain ⟨off, bs⟩ := c
  revert ascii
  unfold lexeme
  simp only at place ⊢
  split
  · split
    · exact word_spelled file place rfl
    · exact fun _ => operator_spelled file _
  · exact fun _ => operator_spelled file _
  · split
    · next starts => exact word_spelled file place starts
    · split
      · next isDigit =>
        refine fun _ => number_spelled file ?_
        rw [digitRun, List.takeWhile_cons_of_pos isDigit]
        exact List.cons_ne_nil _ _
      · split
        · exact fun _ => stringBody_spelled _ _ _ _ _
        · exact fun _ => operator_spelled file _
  · exact fun _ => operator_spelled file _

theorem Cursor.Reaches.place {source : Bytes} {c c' : Cursor} {n : Nat} (reaches : c.Reaches c' n)
    (place : c.rest = source.drop c.off) : c'.rest = source.drop c'.off := by
  obtain ⟨k, -, -, rfl⟩ := reaches
  rw [Cursor.advance, place, List.drop_drop]

theorem layout_spelled (file old new off : Nat) : ∀ l ∈ layout file old new off, l.Spelled := by
  unfold layout
  split <;> intro l member <;> rw [List.eq_of_mem_replicate member] <;> trivial

theorem lineBreak_spelled (file depth : Nat) (c : Cursor) : ∀ l ∈ (lineBreak file depth c).1, l.Spelled := by
  intro l member
  simp only [lineBreak, lineTo, List.mem_append, List.mem_cons] at member
  obtain uneven | rfl | deeper := member
  · split at uneven
    · cases uneven
    · rw [List.mem_singleton.mp uneven]
      exact spelled_error _ _
  · trivial
  · exact layout_spelled _ _ _ _ l deeper

theorem lexemesFrom_spelled (file : Nat) {source : Bytes} : ∀ (n depth : Nat) (c : Cursor), c.rest = source.drop c.off →
    AsciiNames source (lexemesFrom file n depth c) → ∀ l ∈ lexemesFrom file n depth c, l.Spelled
  | 0, _, _, _, _ => List.forall_mem_nil _
  | n + 1, depth, c, place, ascii => by
    have here := (skipTrivia_reaches c).place place
    revert ascii
    unfold lexemesFrom
    simp only
    split
    · intro _ l member
      obtain inside | last := List.mem_append.mp member
      · exact layout_spelled _ _ _ _ l inside
      · rw [List.mem_singleton.mp last]
        trivial
    · next tail atBreak =>
      intro ascii l member
      have next := (lineBreak_reaches file depth (c := skipTrivia c) (by simp [atBreak])).place here
      obtain inside | later := List.mem_append.mp member
      · exact lineBreak_spelled file depth _ l inside
      · exact lexemesFrom_spelled file n _ _ next (ascii.mono (List.subset_append_right _ _)) l later
    · next notEnd _ =>
      intro ascii l member
      have next := (lexeme_reaches file (c := skipTrivia c) notEnd).place here
      obtain rfl | later := List.mem_cons.mp member
      · exact lexeme_spelled file here (ascii.mono (by simp))
      · exact lexemesFrom_spelled file n _ _ next (ascii.mono (List.subset_cons_self _ _)) l later

end Lexer

/-- The tokens of a source whose names are ASCII are spelled as their kinds call for. -/
theorem spelled_of_mem {file : Nat} {source : Bytes} (ascii : AsciiNames source (lexemes file source)) :
    ∀ l ∈ lexemes file source, l.Spelled :=
  lexemesFrom_spelled file _ 0 ⟨0, source⟩ rfl ascii

/-! ## Reading tokens back -/

namespace Lexer

variable {l : Lexeme} {k : Kind}

theorem exists_token (isKind : l.kind = k) (known : k ≠ .invalid) : ∃ t, l = .token t ∧ t.kind = k := by
  cases l with
  | token t => exact ⟨t, rfl, isKind⟩
  | error e earlier => exact absurd isKind.symm known

theorem exists_fixed (spelled : l.Spelled) (isKind : l.kind = k) (fixed : isFixed k = true) :
    ∃ span, l = .token ⟨k, span, k.name, .none⟩ := by
  obtain ⟨⟨k', span, text, payload⟩, rfl, same⟩ := exists_token isKind (by rintro rfl; cases fixed)
  cases same
  obtain ⟨(rfl : text = k'.name), (rfl : payload = .none)⟩ := Spelled.fixed spelled fixed
  exact ⟨span, rfl⟩

theorem Reads.sign {bs : Bytes} (spelled : l.Spelled) (isKind : l.kind = k) (isSign : (k, bs) ∈ signs) :
    Reads Apart bs [l] := by
  have fixed : ∀ s ∈ signs, isFixed s.1 = true := by decide
  obtain ⟨span, rfl⟩ := exists_fixed spelled isKind (fixed _ isSign)
  exact .operator isSign span

/-- The kinds that are spelled as words. -/
def wordKinds : List Kind := .underscore :: Kind.keywords

theorem wordKinds_spelling : ∀ k ∈ wordKinds, isFixed k = true ∧ (∃ b ∈ (utf8 k.name).head?, isNameStartByte b = true) ∧
    (∀ c ∈ (utf8 k.name).tail, isNameByte c = true) ∧ wordKind k.name = k ∧ asciiText (utf8 k.name) = k.name := by
  decide +kernel

theorem IsWord.opens {bs : Bytes} (isWord : IsWord bs) : Opens bs := by
  obtain ⟨b, tail, rfl, starts, -⟩ := isWord
  exact ⟨b, tail, rfl, by simp [isOpening, isNameByte, starts]⟩

theorem isWord_name (isWord : k ∈ wordKinds) : IsWord (utf8 k.name) := by
  obtain ⟨-, ⟨b, first, starts⟩, names, -⟩ := wordKinds_spelling k isWord
  obtain ⟨tail, shape⟩ := List.head?_eq_some_iff.mp first
  rw [shape] at names
  exact ⟨b, tail, shape, starts, names⟩

/-- Text that starts with an operand, a statement or a declaration, and what it reads as before text
    that cannot continue it. -/
structure Prints (bs : Bytes) (ls : List Lexeme) : Prop where
  reads : Reads Cut bs ls
  opens : Opens bs

theorem Prints.fixedWord {s : String} (spelled : l.Spelled) (isKind : l.kind = k) (isWord : k ∈ wordKinds)
    (text : s = k.name) : Prints (utf8 s) [l] := by
  subst text
  refine ⟨?_, (isWord_name isWord).opens⟩
  obtain ⟨fixed, -, -, same, text⟩ := wordKinds_spelling k isWord
  obtain ⟨span, rfl⟩ := exists_fixed spelled isKind fixed
  have reads := Reads.word (isWord_name isWord) span
  rwa [text, same] at reads

theorem isWord_ident (spelled : l.Spelled) (isName : l.kind = .ident) : IsWord (utf8 l.text) := by
  obtain ⟨⟨_, span, text, payload⟩, rfl, rfl⟩ := exists_token isName (by decide)
  obtain ⟨-, bs, isWord, same, -⟩ := spelled
  have bytes : utf8 text = bs := by
    rw [show text = asciiText bs from same]
    exact utf8_ofBytes isWord.ascii
  rwa [← bytes] at isWord

theorem Prints.name (spelled : l.Spelled) (isName : l.kind = .ident) : Prints (utf8 l.text) [l] := by
  refine ⟨?_, (isWord_ident spelled isName).opens⟩
  obtain ⟨⟨k', span, text, payload⟩, rfl, same⟩ := exists_token isName (by decide)
  cases same
  obtain ⟨(rfl : payload = .none), bs, isWord, (rfl : text = asciiText bs), (isIdent : wordKind (asciiText bs) = .ident)⟩ := spelled
  have reads := Reads.word isWord span
  rw [isIdent] at reads
  have bytes : utf8 (Lexeme.text (.token ⟨.ident, span, asciiText bs, .none⟩)) = bs := utf8_ofBytes isWord.ascii
  rwa [bytes]

theorem primitive_spelling {ty : Ty} (isType : k.primitive? = some ty) : k ∈ wordKinds ∧ ty.text = k.name := by
  cases k <;> cases isType <;> exact ⟨by decide, rfl⟩

/-- A type is read back as the lexeme it came from. -/
theorem Prints.annotation {ref : TypeRef} (spelled : l.Spelled) (isType : Grammar.annotation? l = some ref) :
    Prints (utf8 ref.ty.text) [l] := by
  unfold Grammar.annotation? at isType
  split at isType
  · next ty primitive =>
    obtain ⟨isWord, text⟩ := primitive_spelling primitive
    cases isType
    exact .fixedWord spelled rfl isWord text
  · next underscore =>
    cases isType
    exact .fixedWord spelled underscore (by decide) rfl
  · next isName =>
    cases isType
    exact .name spelled isName
  · cases isType

theorem IsDigits.opens {bs rest : Bytes} (digits : IsDigits bs) : Opens (bs ++ rest) := by
  obtain ⟨b, tail, shape, isDigit⟩ := digits.starts rest
  exact ⟨b, tail, shape, by simp [isOpening, isNameByte, isDigit]⟩

theorem IsDigits.text {bs rest : Bytes} (digits : IsDigits bs) : (asciiText (bs ++ rest)).isEmpty = false := by
  obtain ⟨b, tail, shape, -⟩ := digits.starts rest
  rw [shape]
  simp [asciiText]

theorem ascii_of_decimal {b : UInt8} (isDigit : isDecimal b = true) : b < 0x80 :=
  ascii_of_nameByte (by rw [isNameByte, isDigit, Bool.or_true])

/-- A number is read back as the lexeme it came from. -/
theorem Prints.int (spelled : l.Spelled) (isInt : l.kind = .intLit) :
    Prints (utf8 (Literal.int l.toToken.payload.toInt l.text).text) [l] := by
  obtain ⟨⟨k', span, text, payload⟩, rfl, same⟩ := exists_token isInt (by decide)
  cases same
  obtain ⟨bs, digits, (rfl : text = asciiText bs), bound, (rfl : payload = _)⟩ := spelled
  have bytes : utf8 (asciiText bs) = bs := utf8_ofBytes fun b member => ascii_of_decimal (digits.2 b member)
  have some : (asciiText (bs ++ [])).isEmpty = false := digits.text
  have opens : Opens (bs ++ []) := digits.opens
  rw [List.append_nil] at some opens
  simp only [Literal.text, Lexeme.text, Lexeme.toToken, some, Bool.false_eq_true, if_false, bytes]
  exact ⟨Reads.int digits bound span, opens⟩

theorem Prints.float (spelled : l.Spelled) (isFloat : l.kind = .floatLit) :
    Prints (utf8 (Literal.float l.toToken.payload.toFloat l.text).text) [l] := by
  obtain ⟨⟨k', span, text, payload⟩, rfl, same⟩ := exists_token isFloat (by decide)
  cases same
  obtain ⟨bs, fs, value, digits, fraction, (rfl : text = asciiText (bs ++ 0x2E :: fs)), known, (rfl : payload = _)⟩ := spelled
  have bytes : utf8 (asciiText (bs ++ 0x2E :: fs)) = bs ++ 0x2E :: fs := by
    refine utf8_ofBytes fun b member => ?_
    simp only [List.mem_append, List.mem_cons] at member
    obtain whole | rfl | part := member
    · exact ascii_of_decimal (digits.2 b whole)
    · decide
    · exact ascii_of_decimal (fraction.2 b part)
  simp only [Literal.text, Lexeme.text, Lexeme.toToken, digits.text, Bool.false_eq_true, if_false, bytes]
  exact ⟨Reads.float digits fraction known span, digits.opens⟩

theorem Prints.string (spelled : l.Spelled) (isString : l.kind = .stringLit) :
    Prints (utf8 (quoteString l.text)) [l] := by
  obtain ⟨⟨k', span, text, payload⟩, rfl, same⟩ := exists_token isString (by decide)
  cases same
  obtain (rfl : payload = .none) := spelled
  refine ⟨(Reads.string text span).mono fun _ => Cut.apart, ?_⟩
  have quote : utf8 "\"" = [0x22] := by simp only [utf8_eq]; decide
  rw [quoteString, utf8_append, utf8_append, quote]
  exact ⟨0x22, _, rfl, rfl⟩

/-- A name or a literal is read back as the lexeme it came from. -/
theorem Prints.leaf {e : Expr} (spelled : l.Spelled) (isLeaf : Grammar.leaf? l = some e) : Prints (utf8 e.text) [l] := by
  unfold Grammar.leaf? at isLeaf
  split at isLeaf <;> cases isLeaf
  · next isName => exact .name spelled isName
  · next isSelf => exact .fixedWord spelled isSelf (by decide) rfl
  · next isInt => exact .int spelled isInt
  · next isFloat => exact .float spelled isFloat
  · next isString => exact .string spelled isString
  · next isTrue => exact .fixedWord spelled isTrue (by decide) rfl
  · next isFalse => exact .fixedWord spelled isFalse (by decide) rfl
  · next isNil => exact .fixedWord spelled isNil (by decide) rfl

/-- A binary operator is read back as the lexeme it came from. -/
theorem Reads.joiner {op : BinaryOp} (spelled : l.Spelled) (isOp : l.kind.joiner? = some (.op op)) :
    Reads Cut (utf8 op.text) [l] := by
  have spelling : ∀ k : Kind, k.joiner? = some (.op op) →
      op.text = k.name ∧ (k ∈ wordKinds ∨ (k, utf8 k.name) ∈ signs) := by
    intro k isOp
    cases k <;> cases isOp <;> exact ⟨rfl, by simp only [utf8_eq]; decide⟩
  obtain ⟨text, isWord | isSign⟩ := spelling l.kind isOp
  · exact (Prints.fixedWord spelled rfl isWord text).reads
  · rw [text]
    exact (Reads.sign spelled rfl isSign).mono fun _ => Cut.apart

/-- A prefix operator is read back as the lexeme it came from. -/
theorem Reads.unary {op : UnaryOp} (spelled : l.Spelled) (isOp : l.kind.unary? = some op) :
    Reads Apart (utf8 op.text) [l] ∧ Opens (utf8 op.text) := by
  have spelling : ∀ k : Kind, k.unary? = some op → ∃ b, utf8 op.text = [b] ∧ (k, [b]) ∈ signs ∧ isOpening b = true := by
    intro k isOp
    cases k <;> cases isOp
    · exact ⟨0x2D, by simp only [utf8_eq]; decide, by decide, by decide⟩
    · exact ⟨0x21, by simp only [utf8_eq]; decide, by decide, by decide⟩
  obtain ⟨b, bytes, isSign, opening⟩ := spelling l.kind isOp
  rw [bytes]
  exact ⟨.sign spelled rfl isSign, b, [], rfl, opening⟩

end Lexer
end PineLang
