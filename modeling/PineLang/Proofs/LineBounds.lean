import PineLang.Proofs.Pieces

/-!
A line stands alone. A line break ends a lexeme as the end of the source does, so the lexemes of a line say the same
whatever lines follow (`lexeme_line`, `skipTrivia_line`). So does a carriage return, for all but strings. Only the search
for the next content looks at several lines, and it passes over a line without content as if the line were not there
(`lineHead_idle`).
-/
namespace PineLang
namespace Lexer
open Text (decodeHead)

/-- The place, with a line break and later lines behind what is left. -/
def Cursor.before (c : Cursor) (later : Bytes) : Cursor := ⟨c.off, c.rest ++ 0x0A :: later⟩

theorem Cursor.before_advance {c : Cursor} {n : Nat} (within : n ≤ c.rest.length) (later : Bytes) :
    (c.before later).advance n = (c.advance n).before later := by
  simp only [before, advance, List.drop_append_of_le_length within]

@[simp] theorem Cursor.before_off (c : Cursor) (later : Bytes) : (c.before later).off = c.off := rfl

@[simp] theorem Cursor.before_rest (c : Cursor) (later : Bytes) : (c.before later).rest = c.rest ++ 0x0A :: later := rfl

@[simp] theorem Cursor.before_span (c : Cursor) (later : Bytes) (file n : Nat) :
    (c.before later).span file n = c.span file n := rfl

/-- The place, with the byte and others behind what is left. -/
def Cursor.upTo (c : Cursor) (b : UInt8) (later : Bytes) : Cursor := ⟨c.off, c.rest ++ b :: later⟩

theorem Cursor.upTo_advance {c : Cursor} {n : Nat} (within : n ≤ c.rest.length) (b : UInt8) (later : Bytes) :
    (c.upTo b later).advance n = (c.advance n).upTo b later := by
  simp only [upTo, advance, List.drop_append_of_le_length within]

@[simp] theorem Cursor.upTo_rest (c : Cursor) (b : UInt8) (later : Bytes) : (c.upTo b later).rest = c.rest ++ b :: later := rfl

@[simp] theorem Cursor.upTo_span (c : Cursor) (b : UInt8) (later : Bytes) (file n : Nat) :
    (c.upTo b later).span file n = c.span file n := rfl

/-- The bytes at which lines end: a line feed, and a carriage return. -/
def endsLine (b : UInt8) : Prop := b = 0x0A ∨ b = 0x0D

variable {line : Bytes} {e : UInt8}

/-! ## Names and numbers -/

/-- The end of a line is part of no longer character. -/
theorem decodeHead_line (isEnd : endsLine e) (some : line ≠ []) (later : Bytes) :
    decodeHead (line ++ e :: later) = decodeHead line := by
  obtain ⟨a, tail, rfl⟩ := List.exists_cons_of_ne_nil some
  have notTail : Text.isTail e = false := by obtain rfl | rfl := isEnd <;> rfl
  have notThree : ¬ (if a = 0xE0 then 0xA0 else 0x80 : UInt8) ≤ e := by obtain rfl | rfl := isEnd <;> split <;> decide
  have notFour : ¬ (if a = 0xF0 then 0x90 else 0x80 : UInt8) ≤ e := by obtain rfl | rfl := isEnd <;> split <;> decide
  simp only [List.cons_append, decodeHead]
  obtain _ | ⟨b, _ | ⟨c, _ | ⟨d, rest⟩⟩⟩ := tail
  · obtain _ | ⟨x, _ | ⟨y, later⟩⟩ := later <;> simp [notTail, notThree, notFour]
  · obtain _ | ⟨x, later⟩ := later <;> simp [notTail]
  · simp [notTail]
  · rfl

theorem decodeHead_within (some : line ≠ []) : (decodeHead line).2 ≤ line.length := by
  obtain ⟨a, tail, rfl⟩ := List.exists_cons_of_ne_nil some
  exact (decodeHead_width a tail).2

theorem nameExtent_line (isEnd : endsLine e) (later : Bytes) : ∀ (line : Bytes) (skip : Nat), skip ≤ line.length →
    nameExtent skip (line ++ e :: later) = nameExtent skip line
  | [], 0, _ => by obtain rfl | rfl := isEnd <;> rfl
  | b :: rest, skip + 1, room => by
    have ih := nameExtent_line isEnd later rest skip (Nat.le_of_succ_le_succ room)
    simp only [List.cons_append, nameExtent, ih]
  | b :: rest, 0, _ => by
    have width := (decodeHead_width b rest).2
    have next := nameExtent_line isEnd later rest 0 (Nat.zero_le _)
    have wide := nameExtent_line isEnd later rest ((decodeHead (b :: rest)).2 - 1) (by omega)
    have head := decodeHead_line isEnd (List.cons_ne_nil b rest) later
    rw [List.cons_append] at head ⊢
    simp only [nameExtent, head, next, wide]

theorem takeWhile_line {p : UInt8 → Bool} (stops : p e = false) (line later : Bytes) :
    (line ++ e :: later).takeWhile p = line.takeWhile p := by
  rw [List.takeWhile_append]
  split
  · next whole =>
    have all : line.takeWhile p = line := (List.takeWhile_prefix p).eq_of_length whole
    rw [List.takeWhile_cons_of_neg (by simp [stops]), List.append_nil, all]
  · rfl

theorem digitRun_line (isEnd : endsLine e) (line later : Bytes) : digitRun (line ++ e :: later) = digitRun line :=
  takeWhile_line (by obtain rfl | rfl := isEnd <;> decide) line later

theorem fractionRun_line (isEnd : endsLine e) (line later : Bytes) : fractionRun (line ++ e :: later) = fractionRun line := by
  unfold fractionRun
  rw [digitRun_line isEnd, List.drop_append_of_le_length (digitRun_le line)]
  cases line.drop (digitRun line).length with
  | nil => obtain rfl | rfl := isEnd <;> rfl
  | cons b rest =>
    rw [List.cons_append]
    split
    · next rest' shape =>
      cases shape
      exact digitRun_line isEnd rest later
    · next other =>
      split
      · next rest' shape =>
        cases shape
        exact absurd rfl (other _)
      · rfl

/-! ## Lexemes -/

/-- Reading does not look behind the line: with later lines, it gives the same, and they stay behind what is left. -/
def KeepsToLine (read : Cursor → Lexeme × Cursor) (c : Cursor) : Prop :=
  ∀ later, read (c.before later) = ((read c).1, (read c).2.before later)

/-- Reading does not look behind the byte. -/
def KeepsTo (b : UInt8) (read : Cursor → Lexeme × Cursor) (c : Cursor) : Prop :=
  ∀ later, read (c.upTo b later) = ((read c).1, (read c).2.upTo b later)

variable {file : Nat} {c : Cursor}

theorem unexpected_line (isEnd : endsLine e) (inside : c.rest ≠ []) : KeepsTo e (unexpected file) c := by
  intro later
  have head := decodeHead_line isEnd inside later
  simp only [unexpected, Cursor.upTo_rest, head, Cursor.upTo_advance (decodeHead_within inside), Cursor.upTo_span]

theorem word_line (isEnd : endsLine e) (inside : c.rest ≠ []) : KeepsTo e (word file) c := by
  intro later
  have head := decodeHead_line isEnd inside later
  have width := decodeHead_within inside
  have extent := nameExtent_line isEnd later (c.rest.drop (decodeHead c.rest).2) 0 (Nat.zero_le _)
  have within : (decodeHead c.rest).2 + nameExtent 0 (c.rest.drop (decodeHead c.rest).2) ≤ c.rest.length := by
    have least := nameExtent_le (c.rest.drop (decodeHead c.rest).2) 0
    rw [List.length_drop] at least
    omega
  unfold word
  simp only [Cursor.upTo_rest, head, List.drop_append_of_le_length width, extent, List.take_append_of_le_length within,
    Cursor.upTo_advance within, Cursor.upTo_span]
  split
  · rfl
  · exact unexpected_line isEnd inside later

theorem number_line (isEnd : endsLine e) : KeepsTo e (number file) c := by
  intro later
  have whole := digitRun_line isEnd c.rest later
  have fraction := fractionRun_line isEnd c.rest later
  by_cases noFraction : fractionRun c.rest = []
  · rw [number_int noFraction, number_int (c := c.upTo e later) (fraction.trans noFraction)]
    simp only [Cursor.upTo_rest, whole, Cursor.upTo_advance (digitRun_le c.rest), Cursor.upTo_span]
    split <;> rfl
  · rw [number_float noFraction, number_float (c := c.upTo e later) (fun none => noFraction (fraction.symm.trans none))]
    simp only [Cursor.upTo_rest, whole, fraction, Cursor.upTo_advance (fractionRun_le c.rest noFraction), Cursor.upTo_span]
    split <;> rfl

theorem stringBody_line {start : Nat} (later : Bytes) : ∀ (line : Bytes) {skip : Nat} (off : Nat) (text : List Char)
    (bad : Option LexError), skip ≤ line.length → stringBody file start skip off text bad (line ++ 0x0A :: later) =
      ((stringBody file start skip off text bad line).1, (stringBody file start skip off text bad line).2.before later)
  | [], 0, off, text, bad, _ => by
    rw [List.nil_append, stringBody.eq_def]
    rfl
  | b :: rest, skip + 1, off, text, bad, room =>
    stringBody_line later rest (off + 1) text bad (Nat.le_of_succ_le_succ room)
  | b :: rest, 0, off, text, bad, _ => by
    have head := decodeHead_line (.inl rfl) (List.cons_ne_nil b rest) later
    have width := (decodeHead_width b rest).2
    rw [List.cons_append] at head ⊢
    rw [stringBody.eq_def, stringBody.eq_def file start 0 off text bad (b :: rest)]
    simp only
    split
    · rfl
    · split
      · split <;> rfl
      · split
        · cases rest with
          | nil => rfl
          | cons e rest' =>
            have escape := decodeHead_line (.inl rfl) (List.cons_ne_nil e rest') later
            have escapeWidth := (decodeHead_width e rest').2
            rw [List.cons_append] at escape ⊢
            simp only [escape]
            split
            · rfl
            · split
              · exact stringBody_line later rest' _ _ _ (by omega)
              · exact stringBody_line later rest' _ _ _ (by omega)
        · rw [head]
          exact stringBody_line later rest _ _ _ (by omega)

theorem operator?_line (isEnd : endsLine e) (inside : line ≠ []) (later : Bytes) :
    operator? (line ++ e :: later) = operator? line := by
  have head {b : UInt8} (other : ∀ rest, line = b :: rest → False) :
      ∀ rest, line ++ e :: later = b :: rest → False := by
    obtain ⟨a, tail, rfl⟩ := List.exists_cons_of_ne_nil inside
    intro rest shape
    exact other tail (by rw [(List.cons.inj shape).1])
  have second {b : UInt8} {tail : Bytes} (other : ∀ rest, tail = b :: rest → False) (notEnd : ¬ endsLine b) :
      ∀ rest, tail ++ e :: later = b :: rest → False := by
    intro rest shape
    cases tail with
    | nil =>
      obtain rfl := (List.cons.inj shape).1
      exact notEnd isEnd
    | cons c tail => exact other tail (by rw [(List.cons.inj shape).1])
  -- Where no rule fits, none does with the end of a line behind; and no longer operator has one in it.
  fun_cases operator? line <;> try rfl
  case case14 tail other => exact operator?.eq_14 _ (second other (by unfold endsLine; decide))
  case case21 tail other => exact operator?.eq_21 _ (second other (by unfold endsLine; decide))
  case case22 tail other => exact operator?.eq_22 _ (second other (by unfold endsLine; decide))
  case case23 tail other => exact operator?.eq_23 _ (second other (by unfold endsLine; decide))
  case case24 tail other => exact operator?.eq_24 _ (second other (by unfold endsLine; decide))
  case case26 => apply operator?.eq_26 <;> first | exact head ‹_› | exact fun rest => head ‹_› _

theorem operator_line (isEnd : endsLine e) (inside : c.rest ≠ []) : KeepsTo e (operator file) c := by
  intro later
  have found := operator?_line isEnd inside later
  unfold operator
  rw [Cursor.upTo_rest, found]
  split
  · next k isOperator =>
    simp only [Cursor.upTo_advance (operator_length isOperator).2, Cursor.upTo_span]
  · exact unexpected_line isEnd inside later

theorem string_line (inside : c.rest ≠ []) : KeepsToLine (string file) c := by
  intro later
  obtain ⟨off, rest⟩ := c
  obtain ⟨a, tail, rfl⟩ := List.exists_cons_of_ne_nil inside
  exact stringBody_line later tail _ _ _ (Nat.zero_le _)

/-- A lexeme keeps to its line. -/
theorem lexeme_line (inside : c.rest ≠ []) : KeepsToLine (lexeme file) c := by
  intro later
  obtain ⟨off, rest⟩ := c
  obtain ⟨a, tail, rfl⟩ := List.exists_cons_of_ne_nil inside
  by_cases underscore : a = 0x5F
  · subst underscore
    cases tail with
    | nil => exact operator_line (.inl rfl) inside later
    | cons b tail =>
      unfold lexeme
      simp only [Cursor.before_rest, List.cons_append]
      split
      · exact word_line (.inl rfl) inside later
      · exact operator_line (.inl rfl) inside later
  · rw [lexeme_of_not_underscore underscore, Cursor.before, List.cons_append, lexeme_of_not_underscore underscore]
    split
    · exact word_line (.inl rfl) inside later
    · split
      · exact number_line (.inl rfl) later
      · split
        · exact string_line inside later
        · exact operator_line (.inl rfl) inside later

/-! ## White space and comments -/

theorem startsComment_line (line later : Bytes) : startsComment (line ++ 0x0A :: later) = startsComment line := by
  obtain _ | ⟨a, _ | ⟨b, rest⟩⟩ := line
  · rfl
  · simp [startsComment]
  · by_cases both : a = 0x2F ∧ b = 0x2F
    · obtain ⟨rfl, rfl⟩ := both
      rfl
    · have plain (tail : Bytes) : startsComment (a :: b :: tail) = false := by
        refine startsComment.eq_2 _ fun tail' shape => both ?_
        cases shape
        exact ⟨rfl, rfl⟩
      rw [List.cons_append, List.cons_append, plain, plain]

theorem skipTrivia_line (c : Cursor) (later : Bytes) : skipTrivia (c.before later) = (skipTrivia c).before later := by
  have blanks := @takeWhile_line 0x0A isBlank rfl c.rest later
  have within : (c.rest.takeWhile isBlank).length ≤ c.rest.length := (List.takeWhile_prefix _).length_le
  unfold skipTrivia
  simp only [Cursor.before_rest, blanks, Cursor.before_advance within, startsComment_line, lineExtent,
    @takeWhile_line 0x0A (· != 0x0A) rfl, Cursor.before_advance (List.takeWhile_prefix _).length_le]
  split <;> rfl

/-! ## The next line with content -/

/-- The line head found in some lines: where they have content, the later ones stay behind it, and else it is looked
    for in the later ones. -/
def LineHead.orLater (head : LineHead) (off : Nat) (later : Bytes) : LineHead :=
  if head.cursor.rest = [] then lineHead 0 off off later else { head with cursor := head.cursor.before later }

theorem lineHead_line (width start off : Nat) (line later : Bytes) : lineHead width start off (line ++ 0x0A :: later) =
    (lineHead width start off line).orLater (off + line.length + 1) later := by
  refine lineHead.induct
    (fun width start off line => lineHead width start off (line ++ 0x0A :: later) =
      (lineHead width start off line).orLater (off + line.length + 1) later)
    (fun start off line => commentLine start off (line ++ 0x0A :: later) =
      (commentLine start off line).orLater (off + line.length + 1) later)
    ?_ ?_ ?_ ?_ ?_ ?_ ?_ ?_ ?_ ?_ width start off line
  · intro width start off
    simp [lineHead, LineHead.orLater]
  · intro width start off rest ih
    simp only [List.cons_append, lineHead, ih, List.length_cons, Nat.add_right_comm, ← Nat.add_assoc]
  · intro width start off rest ih
    simp only [List.cons_append, lineHead, ih, List.length_cons, Nat.add_right_comm, ← Nat.add_assoc]
  · intro width start off rest ih
    simp only [List.cons_append, lineHead, ih, List.length_cons, Nat.add_right_comm, ← Nat.add_assoc]
  · intro width start off rest ih
    simp only [List.cons_append, lineHead, ih, List.length_cons, Nat.add_right_comm, ← Nat.add_assoc]
  · intro width start off rest ih
    simp only [List.cons_append, lineHead, ih, List.length_cons]
    congr 1
    omega
  · intro width start off b rest notSpace notTab notReturn notBreak notComment
    have stays (tail : Bytes) (plain : ∀ rest', b = 0x2F → tail = 0x2F :: rest' → False) :
        lineHead width start off (b :: tail) = ⟨width, start, ⟨off, b :: tail⟩⟩ :=
      lineHead.eq_7 _ _ _ _ _ notSpace notTab notReturn notBreak plain
    have plain : ∀ rest', b = 0x2F → rest ++ 0x0A :: later = 0x2F :: rest' → False := by
      intro rest' slash shape
      cases rest with
      | nil => cases shape
      | cons c rest =>
        cases shape
        exact notComment _ slash rfl
    rw [List.cons_append, stays rest notComment, stays _ plain]
    rfl
  · intro start off
    simp [commentLine, LineHead.orLater]
  · intro start off rest ih
    simp only [List.cons_append, commentLine, ih, List.length_cons, Nat.add_right_comm, ← Nat.add_assoc]
  · intro start off b rest notBreak ih
    rw [List.cons_append, commentLine.eq_3 _ _ _ _ notBreak, commentLine.eq_3 _ _ _ _ notBreak, ih]
    simp only [List.length_cons, Nat.add_right_comm, ← Nat.add_assoc]

/-- The columns that white space at the start of a line takes. -/
def columns (blanks : Bytes) : Nat := blanks.countP (· == 0x20) + 4 * blanks.countP (· == 0x09)

theorem lineHead_blanks (rest : Bytes) : ∀ {blanks : Bytes}, (∀ b ∈ blanks, isBlank b = true) → ∀ width start off,
    lineHead width start off (blanks ++ rest) = lineHead (width + columns blanks) start (off + blanks.length) rest
  | [], _, _, _, _ => rfl
  | b :: blanks, blank, width, start, off => by
    have ih := lineHead_blanks rest fun c member => blank c (List.mem_cons_of_mem b member)
    have first := blank b (List.mem_cons_self ..)
    simp only [isBlank, Bool.or_eq_true, beq_iff_eq, or_assoc] at first
    have behind : off + 1 + blanks.length = off + (blanks.length + 1) := by omega
    obtain rfl | rfl | rfl := first
    · have wider : width + 1 + columns blanks = width + columns (0x20 :: blanks) := by
        simp [columns]
        omega
      rw [List.cons_append, lineHead, ih, wider, behind, List.length_cons]
    · have wider : width + indentWidth + columns blanks = width + columns (0x09 :: blanks) := by
        simp [columns, indentWidth]
        omega
      rw [List.cons_append, lineHead, ih, wider, behind, List.length_cons]
    · have same : columns (0x0D :: blanks) = columns blanks := by simp [columns]
      rw [List.cons_append, lineHead, ih, same, behind, List.length_cons]

theorem commentLine_end : ∀ {text : Bytes}, 0x0A ∉ text → ∀ start off,
    commentLine start off text = ⟨0, start, ⟨off + text.length, []⟩⟩
  | [], _, _, _ => rfl
  | b :: text, single, start, off => by
    rw [List.mem_cons, not_or] at single
    rw [commentLine.eq_3 _ _ _ _ (Ne.symm single.1), commentLine_end single.2, List.length_cons, Nat.add_assoc,
      Nat.add_comm 1]

/-- What a line with content starts with behind its white space. -/
def IsContent (bs : Bytes) : Prop := ∃ b tail, bs = b :: tail ∧ isBlank b = false ∧ b ≠ 0x0A ∧ startsComment bs = false

theorem lineHead_content {bs : Bytes} (content : IsContent bs) (width start off : Nat) :
    lineHead width start off bs = ⟨width, start, ⟨off, bs⟩⟩ := by
  obtain ⟨b, tail, rfl, notBlank, notBreak, plain⟩ := content
  have other {c : UInt8} (blank : isBlank c = true) : b = c → False := by
    rintro rfl
    rw [blank] at notBlank
    cases notBlank
  refine lineHead.eq_7 _ _ _ _ _ (other rfl) (other rfl) (other rfl) notBreak fun rest slash shape => ?_
  rw [slash, shape] at plain
  cases plain

end Lexer
end PineLang
