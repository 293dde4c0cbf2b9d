import PineLang.Proofs.CSpelling
import PineLang.Proofs.SourceGaps

/-!
# String literals

What a string literal denotes is read off the characters between its quotes (`unescaped?`), a malformed byte among them
being U+FFFD. Every string token has the text that the literal it covers denotes (`lexemes_string`), and quoting a text
gives a literal that is read as that text and as nothing else (`lexemes_quoted`).
-/
namespace PineLang
namespace Lexer
open Text (decodeHead chars unitsFrom)

/-! ## What a literal denotes -/

/-- A character that stands for itself between quotes. -/
def isUnescaped (c : Char) : Bool := c != '"' && c != '\n' && c != '\\' && c.toNat != 0

/-- The characters that the characters between quotes stand for. -/
@[grind =] def unescaped? : List Char → Option (List Char)
  | [] => some []
  | '\\' :: c :: rest => (escape? c).bind fun d => (unescaped? rest).map (d :: ·)
  | c :: rest => if isUnescaped c then (unescaped? rest).map (c :: ·) else none

theorem unescaped_escape {c d : Char} {cs ds : List Char} (known : escape? c = some d) (more : unescaped? cs = some ds) :
    unescaped? ('\\' :: c :: cs) = some (d :: ds) := by
  rw [unescaped?, known, more]
  rfl

theorem unescaped_plain {c : Char} {cs ds : List Char} (plain : isUnescaped c = true) (more : unescaped? cs = some ds) :
    unescaped? (c :: cs) = some (c :: ds) := by
  have notEscape : c ≠ '\\' := by
    rintro rfl
    cases plain
  rw [unescaped?, if_pos plain, more]
  · rfl
  · rintro d rest rfl _
    exact notEscape rfl

/-! ## What is read between the quotes -/

/-- A byte that neither ends a string nor escapes anything begins a character that stands for itself. -/
theorem isUnescaped_decoded {b : UInt8} (rest : Bytes) (inLine : b ≠ 0x0A) (notNull : b ≠ 0) (notQuote : b ≠ 0x22)
    (notEscape : b ≠ 0x5C) : isUnescaped (decodeHead (b :: rest)).1 = true := by
  by_cases low : b.toNat < 0x80
  · rw [Text.decodeHead_one low]
    have differs {n : Nat} (small : n < 0x80) (other : b ≠ UInt8.ofNat n) : (Char.ofNat b.toNat).toNat ≠ n := by
      rw [Text.toNat_ofNat (.inl (by omega))]
      rintro rfl
      exact other (UInt8.ofNat_toNat).symm
    have char (c : Char) (small : c.toNat < 0x80) (other : b ≠ UInt8.ofNat c.toNat) : Char.ofNat b.toNat ≠ c :=
      fun same => differs small other (congrArg Char.toNat same)
    rw [isUnescaped, bne_iff_ne.mpr (char '"' (by decide) notQuote), bne_iff_ne.mpr (char '\n' (by decide) inLine),
      bne_iff_ne.mpr (char '\\' (by decide) notEscape), bne_iff_ne.mpr (differs (by decide) notNull)]
    rfl
  · have beyond := Text.decodeHead_beyond (Nat.not_lt.mp low) rest
    have char {c : Char} (small : c.toNat < 0x80) : (decodeHead (b :: rest)).1 ≠ c := by
      intro same
      rw [same] at beyond
      omega
    have null : (decodeHead (b :: rest)).1.toNat ≠ 0 := by omega
    rw [isUnescaped, bne_iff_ne.mpr (char (by decide)), bne_iff_ne.mpr (char (by decide)), bne_iff_ne.mpr (char (by decide)),
      bne_iff_ne.mpr null]
    rfl

/-- An escape is of an ASCII character. -/
theorem escape_ascii {e : UInt8} {rest : Bytes} {d : Char} (known : escape? (decodeHead (e :: rest)).1 = some d) :
    e.toNat < 0x80 := by
  by_contra high
  have beyond := Text.decodeHead_beyond (Nat.not_lt.mp high) rest
  unfold escape? at known
  split at known
  all_goals first | (next same => rw [same] at beyond; exact absurd beyond (by decide)) | cases known

/-- What a string token is that was read from `bs`, where the first `skip` bytes belong to a character already taken: the
literal goes up to a quote, and the text goes on with what the characters from there on denote. -/
structure Literal (file start skip off : Nat) (text : List Char) (bs : Bytes) (t : Token) (next : Cursor) (body : Bytes)
    (cs : List Char) : Prop where
  split : bs = body ++ 0x22 :: next.rest
  skipped : skip ≤ body.length
  stop : next.off = off + body.length + 1
  denotes : unescaped? ((unitsFrom skip body).map Text.Unit8.toChar) = some cs
  token : t = ⟨.stringLit, ⟨file, start, next.off⟩, String.ofList (text.reverse ++ cs), .none⟩

/-- Where the body of a string is read to a token, no escape was bad and the token has the text that the body denotes. -/
theorem stringBody_literal {file start : Nat} {t : Token} {next : Cursor} : ∀ (bs : Bytes) (skip off : Nat) (text : List Char)
    (bad : Option LexError), stringBody file start skip off text bad bs = (.token t, next) →
      bad = none ∧ ∃ body cs, Literal file start skip off text bs t next body cs
  | [], _, _, _, _, read => by cases (Prod.mk.inj read).1
  | b :: rest, k + 1, off, text, bad, read => by
    obtain ⟨good, body, cs, known⟩ := stringBody_literal rest k (off + 1) text bad read
    refine ⟨good, b :: body, cs, ?_⟩
    constructor
    · rw [known.split, List.cons_append]
    · exact Nat.succ_le_succ known.skipped
    · rw [known.stop, List.length_cons]
      omega
    · exact known.denotes
    · exact known.token
  | b :: rest, 0, off, text, bad, read => by
    rw [stringBody.eq_def] at read
    simp only at read
    split at read
    · cases (Prod.mk.inj read).1
    · next goesOn =>
      simp only [Bool.or_eq_true, beq_iff_eq, not_or] at goesOn
      split at read
      · next isQuote =>
        rw [beq_iff_eq] at isQuote
        split at read
        · cases (Prod.mk.inj read).1
        · obtain ⟨token, rfl⟩ := Prod.mk.inj read
          refine ⟨rfl, [], [], ?_⟩
          constructor
          · rw [isQuote, List.nil_append]
          · exact Nat.le_refl 0
          · rfl
          · rfl
          · rw [List.append_nil, ← Lexeme.token.inj token]
      · next notQuote =>
        rw [beq_iff_eq] at notQuote
        split at read
        · next isEscape =>
          rw [beq_iff_eq] at isEscape
          rcases rest with _ | ⟨e, rest'⟩
          · cases (Prod.mk.inj read).1
          · simp only at read
            split at read
            · cases (Prod.mk.inj read).1
            · split at read
              · next d known =>
                have low := escape_ascii known
                have head := @Text.decodeHead_one e rest' low
                rw [head] at known read
                obtain ⟨good, body, cs, more⟩ := stringBody_literal rest' _ _ _ _ read
                refine ⟨good, 0x5C :: e :: body, d :: cs, ?_⟩
                have ascii : decodeHead (e :: body) = (Char.ofNat e.toNat, 1) := Text.decodeHead_one low
                have slash : decodeHead (0x5C :: e :: body) = ('\\', 1) := Text.decodeHead_one (by decide)
                constructor
                · rw [isEscape, more.split, List.cons_append, List.cons_append]
                · exact Nat.zero_le _
                · rw [more.stop, List.length_cons, List.length_cons]
                  omega
                · rw [units_cons, slash, Nat.sub_self, units_cons, ascii]
                  exact unescaped_escape known more.denotes
                · rw [more.token, List.reverse_cons, List.append_assoc, List.singleton_append]
              · exact absurd (stringBody_literal rest' _ _ _ _ read).1 (Option.some_ne_none _)
        · next notEscape =>
          rw [beq_iff_eq] at notEscape
          obtain ⟨good, body, cs, more⟩ := stringBody_literal rest _ _ _ _ read
          have plain := isUnescaped_decoded rest goesOn.1 goesOn.2 notQuote notEscape
          -- The body has all bytes of the character, so that the same is decoded from it.
          have width := (decodeHead_width b rest).1
          have same : decodeHead (b :: body) = decodeHead (b :: rest) := by
            have room : (decodeHead (b :: rest)).2 ≤ body.length + 1 := by
              have := more.skipped
              omega
            rw [← decodeHead_take room, List.take_succ_cons, more.split, List.take_left]
          refine ⟨good, b :: body, (decodeHead (b :: rest)).1 :: cs, ?_⟩
          constructor
          · rw [more.split, List.cons_append]
          · exact Nat.zero_le _
          · rw [more.stop, List.length_cons]
            omega
          · rw [units_cons, same]
            exact unescaped_plain plain more.denotes
          · rw [more.token, List.reverse_cons, List.append_assoc, List.singleton_append]

/-! ## Strings of a source -/

/-- A string token is read from a quote on, as what the body behind the quote is read to. -/
theorem lexeme_string {file : Nat} {c : Cursor} (isString : (lexeme file c).1.kind = .stringLit) :
    ∃ tail, c.rest = 0x22 :: tail ∧ lexeme file c = stringBody file c.off 0 (c.off + 1) [] none tail := by
  cases lexeme_readBy file c with
  | word _ read => exact absurd (read ▸ isString) (kind_ne_of_plain (word_plain file c) rfl)
  | operator read => exact absurd (read ▸ isString) (kind_ne_of_plain (operator_plain file c) rfl)
  | number _ _ read =>
    rw [read] at isString
    obtain kind | kind | kind := number_kind file c <;> cases kind.symm.trans isString
  | string shape read =>
    refine ⟨_, shape, ?_⟩
    rw [read, string, shape]
    rfl

/-- The token covers a literal of the source: two quotes, and between them a body that denotes the text. -/
def CoversLiteral (file : Nat) (source : Bytes) (t : Token) : Prop :=
  ∃ before body rest, source = before ++ (0x22 :: body ++ [0x22]) ++ rest ∧
    t.span = ⟨file, before.length, before.length + (body.length + 2)⟩ ∧ unescaped? (chars body) = some t.text.toList

/-- Every string token of a source covers a literal that denotes its text. -/
theorem lexemes_string {file : Nat} {source : Bytes} {t : Token} (member : .token t ∈ lexemes file source)
    (isString : t.kind = .stringLit) : CoversLiteral file source t := by
  have run : Run file 0 ⟨0, source⟩ (lexemes file source) := lexemesFrom_run file (c := ⟨0, source⟩) (Nat.lt_succ_self _)
  obtain ⟨ms, us, shape⟩ := List.append_of_mem member
  obtain ⟨_, c, reaches, _, token, _⟩ := run.inline shape (by rw [Lexeme.kind, Lexeme.toToken, isString]; rfl)
  have here : Cursor.At source ⟨0, source⟩ := ⟨[], rfl, rfl⟩
  obtain ⟨before, place, whole⟩ := here.reaches reaches
  obtain ⟨tail, quoted, read⟩ := @lexeme_string file c (by rw [← token]; exact isString)
  have closed : stringBody file c.off 0 (c.off + 1) [] none tail = (.token t, (lexeme file c).2) := by rw [← read, token]
  obtain ⟨-, body, cs, known⟩ := stringBody_literal tail 0 (c.off + 1) [] none closed
  have stop : (lexeme file c).2.off = c.off + (body.length + 2) := by
    rw [known.stop]
    omega
  refine ⟨before, body, (lexeme file c).2.rest, ?_, ?_, ?_⟩
  · rw [← whole, quoted, known.split]
    simp
  · rw [known.token, stop, place]
  · rw [known.token, List.reverse_nil, List.nil_append, String.toList_ofList]
    exact known.denotes

/-- A quoted string by itself is read as one token, which covers all of it and has the string for its text. -/
theorem lexemes_quoted (file : Nat) (s : String) : lexemes file (utf8 (quoteString s)) =
    [.token ⟨.stringLit, ⟨file, 0, (utf8 (quoteString s)).length⟩, s, .none⟩, endOfFile file (utf8 (quoteString s)).length] := by
  have read := lexeme_quoted file 0 s []
  have trivia : skipTrivia ⟨0, utf8 (quoteString s)⟩ = ⟨0, utf8 (quoteString s)⟩ := by
    rw [utf8_quoteString]
    exact skipTrivia_eq (by decide) rfl
  obtain ⟨n, length⟩ : ∃ n, (utf8 (quoteString s)).length = n + 1 := ⟨_, by rw [utf8_quoteString, List.length_cons]⟩
  rw [List.append_nil, Nat.zero_add] at read
  rw [lexemes, lexemesFrom, trivia]
  simp only
  split
  · next atEnd => cases (utf8_quoteString s).symm.trans atEnd
  · next atBreak => exact absurd (List.cons.inj ((utf8_quoteString s).symm.trans atBreak)).1 (by decide)
  · rw [read, length]
    rfl

end Lexer

/-- A quoted string is read back as the string, from one token that covers all of it. Every string token of a source has the
    text that its literal denotes, which is UTF-8 whatever bytes the source has, and which is read back once it is quoted. -/
theorem string_requoted (file : Nat) :
    (∀ s : String, lexemes file (utf8 (quoteString s)) =
      [.token ⟨.stringLit, ⟨file, 0, (utf8 (quoteString s)).length⟩, s, .none⟩,
        Lexer.endOfFile file (utf8 (quoteString s)).length]) ∧
    ∀ (source : Bytes) (t : Token), .token t ∈ lexemes file source → t.kind = .stringLit →
      Lexer.CoversLiteral file source t ∧ Text.string? (utf8 t.text) = some t.text ∧
      ∀ file', lexemes file' (utf8 (quoteString t.text)) =
        [.token ⟨.stringLit, ⟨file', 0, (utf8 (quoteString t.text)).length⟩, t.text, .none⟩,
          Lexer.endOfFile file' (utf8 (quoteString t.text)).length] := by
  refine ⟨Lexer.lexemes_quoted file, fun source t member isString => ⟨Lexer.lexemes_string member isString, ?_, fun file' => ?_⟩⟩
  · exact C.string_utf8 t.text
  · exact Lexer.lexemes_quoted file' t.text

/-- A literal with a letter, an escape and a byte that is part of no character. -/
def malformed : Bytes := [0x22, 0x61, 0x5C, 0x6E, 0xFF, 0x22]

/-- The byte that is part of no character is U+FFFD in the text, which is quoted and read back. -/
theorem string_requoted_malformed : Lexer.CoversLiteral 0 malformed ⟨.stringLit, ⟨0, 0, 6⟩, "a\n\uFFFD", .none⟩ ∧
    lexemes 1 (utf8 (quoteString "a\n\uFFFD")) =
      [.token ⟨.stringLit, ⟨1, 0, (utf8 (quoteString "a\n\uFFFD")).length⟩, "a\n\uFFFD", .none⟩,
        Lexer.endOfFile 1 (utf8 (quoteString "a\n\uFFFD")).length] := by
  have member : .token ⟨.stringLit, ⟨0, 0, 6⟩, "a\n\uFFFD", .none⟩ ∈ lexemes 0 malformed := by decide
  obtain ⟨covers, -, back⟩ := (string_requoted 0).2 malformed _ member rfl
  exact ⟨covers, back 1⟩

end PineLang
