import PineLang.Proofs.LineBounds
import PineLang.Proofs.Reports

/-!
The depth of a line is its width. Every line behind the first that is neither blank nor a comment stands as deep as the
white space before it is wide, in steps of four columns; if the width is not a multiple of four, that is reported once
(`indentation_width`). The lines are told apart in the bytes alone (`linesAfter`); a line break leads to the next of
them that has content (`lineHead_finds`), and everything else that is read stays in its line (`Cursor.WithinLine`).
-/
namespace PineLang
namespace Lexer

/-! ## Lines -/

/-- A line of a source: where it starts, and its bytes up to the line break. -/
structure Line where
  start : Nat
  text : Bytes

namespace Line

/-- The white space that the line starts with. -/
def blanks (line : Line) : Bytes := line.text.takeWhile isBlank

/-- What is behind the white space. -/
def body (line : Line) : Bytes := line.text.dropWhile isBlank

/-- The line is neither blank nor just a comment. -/
def hasContent (line : Line) : Bool := !line.body.isEmpty && !startsComment line.body

/-- The columns of white space that the line starts with: one for a space, four for a tab, none for a carriage
    return. -/
def width (line : Line) : Nat := columns line.blanks

/-- The line's indentation is reported. -/
def isUneven (line : Line) : Bool := line.hasContent && line.width % 4 != 0

/-- The report of the line's indentation. -/
def unevenError (file : Nat) (line : Line) : LexError :=
  ⟨.unevenIndent line.width, ⟨file, line.start, line.start + line.blanks.length⟩⟩

end Line

/-- The bytes up to the next line break. -/
def untilBreak (bs : Bytes) : Bytes := bs.takeWhile (· != 0x0A)

/-- The lines behind the line breaks of the bytes, which start at an offset. -/
def linesAfter (off : Nat) : Bytes → List Line
  | [] => []
  | b :: rest => if b = 0x0A then ⟨off + 1, untilBreak rest⟩ :: linesAfter (off + 1) rest else linesAfter (off + 1) rest

theorem linesAfter_append (rest : Bytes) : ∀ {text : Bytes}, 0x0A ∉ text → ∀ off,
    linesAfter off (text ++ rest) = linesAfter (off + text.length) rest
  | [], _, _ => rfl
  | b :: text, single, off => by
    rw [List.mem_cons, not_or] at single
    rw [List.cons_append, linesAfter, if_neg (Ne.symm single.1), linesAfter_append rest single.2, List.length_cons,
      Nat.add_assoc, Nat.add_comm 1]

theorem linesAfter_start : ∀ {off : Nat} {bs : Bytes}, ∀ line ∈ linesAfter off bs, off < line.start
  | off, b :: rest, line, member => by
    have later := @linesAfter_start (off + 1) rest line
    unfold linesAfter at member
    split at member
    · obtain rfl | behind := List.mem_cons.mp member
      · exact Nat.lt_succ_self off
      · exact Nat.lt_of_succ_lt (later behind)
    · exact Nat.lt_of_succ_lt (later member)

theorem untilBreak_single (bs : Bytes) : 0x0A ∉ untilBreak bs := by
  intro member
  have other := List.all_eq_true.mp (List.all_takeWhile (p := (· != (0x0A : UInt8))) (l := bs)) _ member
  cases other

/-- Bytes are their first line, or their first line and later ones. -/
theorem untilBreak_cases (bs : Bytes) : bs = untilBreak bs ∨ ∃ later, bs = untilBreak bs ++ 0x0A :: later := by
  have whole : untilBreak bs ++ bs.dropWhile (· != 0x0A) = bs := List.takeWhile_append_dropWhile
  cases rest : bs.dropWhile (· != 0x0A) with
  | nil =>
    rw [rest, List.append_nil] at whole
    exact .inl whole.symm
  | cons b later =>
    have stops : ¬ (b != 0x0A) = true := by
      have head := List.head?_dropWhile_not (· != (0x0A : UInt8)) bs
      rw [rest] at head
      simpa using head
    obtain rfl : b = 0x0A := by simpa using stops
    exact .inr ⟨later, by rw [← rest]; exact whole.symm⟩

/-! ## Staying in a line -/

/-- The second place is in the line of the first, and not before it. -/
def Cursor.WithinLine (c d : Cursor) : Prop :=
  ∃ text, 0x0A ∉ text ∧ c.rest = text ++ d.rest ∧ d.off = c.off + text.length

namespace Cursor.WithinLine

variable {c d : Cursor}

theorem lines (within : c.WithinLine d) : linesAfter d.off d.rest = linesAfter c.off c.rest := by
  obtain ⟨text, single, shape, off⟩ := within
  rw [shape, linesAfter_append d.rest single, off]

theorem forward (within : c.WithinLine d) : c.off ≤ d.off := by
  obtain ⟨text, -, -, off⟩ := within
  omega

/-- A place in the line is not behind its end. -/
theorem off_le (within : c.WithinLine d) : d.off ≤ c.off + (untilBreak c.rest).length := by
  obtain ⟨text, single, shape, off⟩ := within
  have all : ∀ b ∈ text, (b != 0x0A) = true := by
    intro b member
    have other : b ≠ 0x0A := fun same => single (same ▸ member)
    simpa using other
  have longer : untilBreak c.rest = text ++ untilBreak d.rest := by
    rw [untilBreak, shape, List.takeWhile_append_of_pos all]
    rfl
  rw [longer, List.length_append]
  omega

/-- What does not look behind the line stays in it. -/
theorem of_keeps {next : Cursor → Cursor} {off : Nat} {line bs : Bytes} (single : 0x0A ∉ line)
    (shape : bs = line ∨ ∃ later, bs = line ++ 0x0A :: later) (reaches : Reaches ⟨off, line⟩ (next ⟨off, line⟩) 0)
    (keeps : ∀ later, next (Cursor.before ⟨off, line⟩ later) = (next ⟨off, line⟩).before later) :
    WithinLine ⟨off, bs⟩ (next ⟨off, bs⟩) := by
  obtain ⟨n, -, room, there⟩ := reaches
  have passed : 0x0A ∉ line.take n := fun member => single (List.mem_of_mem_take member)
  have length : (line.take n).length = n := List.length_take_of_le room
  refine ⟨line.take n, passed, ?_⟩
  obtain rfl | ⟨later, rfl⟩ := shape
  · rw [there, length]
    exact ⟨(List.take_append_drop ..).symm, rfl⟩
  · have there' := (keeps later).trans (congrArg (Cursor.before · later) there)
    rw [Cursor.before] at there'
    rw [there', length]
    refine ⟨?_, rfl⟩
    simp only [Cursor.before_rest, advance, ← List.append_assoc, List.take_append_drop]

end Cursor.WithinLine

theorem skipTrivia_within (c : Cursor) : c.WithinLine (skipTrivia c) :=
  .of_keeps (untilBreak_single c.rest) (untilBreak_cases c.rest) (skipTrivia_reaches _) fun _ => skipTrivia_line ..

theorem lexeme_within (file : Nat) {c : Cursor} (inside : c.rest ≠ []) (inLine : c.rest.head? ≠ some 0x0A) :
    c.WithinLine (lexeme file c).2 := by
  have some : untilBreak c.rest ≠ [] := by
    obtain ⟨b, tail, shape⟩ := List.exists_cons_of_ne_nil inside
    have other : (b != 0x0A) = true := by
      rw [shape] at inLine
      simpa using inLine
    rw [untilBreak, shape, List.takeWhile_cons_of_pos (p := (· != 0x0A)) other]
    exact List.cons_ne_nil _ _
  exact @Cursor.WithinLine.of_keeps (fun c => (lexeme file c).2) _ _ _ (untilBreak_single c.rest) (untilBreak_cases c.rest)
    ((lexeme_reaches file (c := ⟨c.off, untilBreak c.rest⟩) some).mono (Nat.zero_le 1))
    fun later => congrArg Prod.snd (lexeme_line (c := ⟨c.off, untilBreak c.rest⟩) some later)

/-! ## The next line with content -/

/-- Where a line head stands among the lines from some line on: at the content of one of them, with no content in those
    before; or at the end of the source. -/
inductive Finds (lines : List Line) (head : LineHead) : Prop
  | ended (idle : ∀ line ∈ lines, line.hasContent = false) (atEnd : head.cursor.rest = []) (none : head.width = 0)
  | content {skipped : List Line} {line : Line} (idle : ∀ l ∈ skipped, l.hasContent = false)
    (found : line.hasContent = true) (among : lines = skipped ++ line :: linesAfter head.cursor.off head.cursor.rest)
    (starts : IsContent head.cursor.rest) (width : head.width = line.width) (start : head.lineStart = line.start)
    (behind : head.cursor.off = line.start + line.blanks.length)
    (ends : head.cursor.off + (untilBreak head.cursor.rest).length = line.start + line.text.length)

theorem Finds.cons {line : Line} {lines : List Line} {head : LineHead} (idle : line.hasContent = false)
    (finds : Finds lines head) : Finds (line :: lines) head := by
  cases finds with
  | ended others atEnd none => exact .ended (List.forall_mem_cons.mpr ⟨idle, others⟩) atEnd none
  | content others found among starts width start behind ends =>
    exact .content (List.forall_mem_cons.mpr ⟨idle, others⟩) found (by rw [among]; rfl) starts width start behind ends

section Heads

variable {start : Nat} {text rest : Bytes}

/-- What may stand behind the text of a line: nothing, or a line break. -/
def EndsLine (rest : Bytes) : Prop := rest = [] ∨ ∃ later, rest = 0x0A :: later

theorem Line.text_eq (line : Line) : line.blanks ++ line.body = line.text := List.takeWhile_append_dropWhile

theorem Line.blank (line : Line) : ∀ b ∈ line.blanks, isBlank b = true := List.all_eq_true.mp List.all_takeWhile

theorem untilBreak_line (single : 0x0A ∉ text) (ends : EndsLine rest) : untilBreak (text ++ rest) = text := by
  have all : ∀ b ∈ text, (b != 0x0A) = true := by
    intro b member
    have other : b ≠ 0x0A := fun same => single (same ▸ member)
    simpa using other
  rw [untilBreak, List.takeWhile_append_of_pos all]
  obtain rfl | ⟨later, rfl⟩ := ends
  · exact List.append_nil _
  · exact List.append_nil _

theorem Line.content {line : Line} (single : 0x0A ∉ line.text) (ends : EndsLine rest) (found : line.hasContent = true) :
    IsContent (line.body ++ rest) := by
  simp only [hasContent, Bool.and_eq_true, Bool.not_eq_true', List.isEmpty_eq_false_iff] at found
  obtain ⟨some, plain⟩ := found
  obtain ⟨b, tail, shape⟩ := List.exists_cons_of_ne_nil some
  have notBlank : isBlank b = false := by
    have head := List.head?_dropWhile_not isBlank line.text
    rw [show line.text.dropWhile isBlank = b :: tail from shape] at head
    simpa using head
  have notBreak : b ≠ 0x0A := by
    rintro rfl
    exact single (line.text_eq ▸ List.mem_append_right _ (shape ▸ List.mem_cons_self ..))
  refine ⟨b, tail ++ rest, by rw [shape, List.cons_append], notBlank, notBreak, ?_⟩
  obtain rfl | ⟨later, rfl⟩ := ends
  · rwa [List.append_nil]
  · rwa [startsComment_line]

/-- A line with content is where its line head is found. -/
theorem lineHead_of_content {line : Line} (single : 0x0A ∉ line.text) (ends : EndsLine rest) (found : line.hasContent = true) :
    lineHead 0 line.start line.start (line.text ++ rest) =
      ⟨line.width, line.start, ⟨line.start + line.blanks.length, line.body ++ rest⟩⟩ := by
  rw [← line.text_eq, List.append_assoc, lineHead_blanks _ line.blank, lineHead_content (line.content single ends found),
    Nat.zero_add]
  rfl

/-- A line without content is passed over. -/
theorem lineHead_of_idle {line : Line} (single : 0x0A ∉ line.text) (idle : line.hasContent = false) :
    (lineHead 0 line.start line.start line.text).cursor.rest = [] ∧ (lineHead 0 line.start line.start line.text).width = 0 := by
  have behind : 0x0A ∉ line.body := fun member => single (line.text_eq ▸ List.mem_append_right _ member)
  simp only [Line.hasContent, Bool.and_eq_false_iff, Bool.not_eq_false', List.isEmpty_iff] at idle
  have parts := lineHead_blanks line.body line.blank 0 line.start line.start
  rw [line.text_eq] at parts
  rw [parts]
  obtain none | comment := idle
  · rw [none]
    exact ⟨rfl, rfl⟩
  · unfold startsComment at comment
    split at comment
    · next note shape =>
      rw [shape] at behind ⊢
      rw [lineHead, commentLine_end fun member => behind (List.mem_cons_of_mem _ (List.mem_cons_of_mem _ member))]
      exact ⟨rfl, rfl⟩
    · cases comment

theorem linesAfter_single (single : 0x0A ∉ text) (off : Nat) : linesAfter off text = [] := by
  have all := linesAfter_append [] single off
  rwa [List.append_nil] at all

theorem finds_of_content {line : Line} (single : 0x0A ∉ line.text) (ends : EndsLine rest) (found : line.hasContent = true) :
    Finds (line :: linesAfter line.start (line.text ++ rest)) (lineHead 0 line.start line.start (line.text ++ rest)) := by
  have before : 0x0A ∉ line.blanks := fun member => single (line.text_eq ▸ List.mem_append_left _ member)
  have behind : 0x0A ∉ line.body := fun member => single (line.text_eq ▸ List.mem_append_right _ member)
  have length : line.blanks.length + line.body.length = line.text.length := by
    rw [← List.length_append, line.text_eq]
  rw [lineHead_of_content single ends found]
  refine @Finds.content _ _ [] line (List.forall_mem_nil _) found ?_ (line.content single ends found) rfl rfl rfl ?_
  · rw [← linesAfter_append (line.body ++ rest) before, ← List.append_assoc, line.text_eq]
    rfl
  · rw [untilBreak_line behind ends]
    exact (Nat.add_assoc ..).trans (congrArg _ length)

/-- Behind a line break, the next content is found in the next line that has some. -/
theorem lineHead_finds : ∀ (n start : Nat) {bs : Bytes}, bs.length < n →
    Finds (⟨start, untilBreak bs⟩ :: linesAfter start bs) (lineHead 0 start start bs)
  | 0, _, _, room => absurd room (Nat.not_lt_zero _)
  | n + 1, start, bs, room => by
    obtain ⟨text, single, shape⟩ : ∃ text, 0x0A ∉ text ∧ (bs = text ∨ ∃ later, bs = text ++ 0x0A :: later) :=
      ⟨untilBreak bs, untilBreak_single bs, untilBreak_cases bs⟩
    have first {rest : Bytes} (ends : EndsLine rest) (found : Line.hasContent ⟨start, text⟩ = true) :
        Finds (⟨start, untilBreak (text ++ rest)⟩ :: linesAfter start (text ++ rest)) (lineHead 0 start start (text ++ rest)) := by
      rw [untilBreak_line single ends]
      exact @finds_of_content _ ⟨start, text⟩ single ends found
    obtain rfl | ⟨later, rfl⟩ := shape
    · cases content : Line.hasContent ⟨start, bs⟩ with
      | true =>
        have found := first (.inl rfl) content
        rwa [List.append_nil] at found
      | false =>
        have only := untilBreak_line single (.inl rfl)
        rw [List.append_nil] at only
        obtain ⟨atEnd, none⟩ := @lineHead_of_idle ⟨start, bs⟩ single content
        rw [only, linesAfter_single single]
        exact .ended (List.forall_mem_singleton.mpr content) atEnd none
    · cases content : Line.hasContent ⟨start, text⟩ with
      | true => exact first (.inr ⟨later, rfl⟩) content
      | false =>
        have shorter : later.length < n := by
          simp at room
          omega
        have rest := lineHead_finds n (start + text.length + 1) shorter
        have passed := (@lineHead_of_idle ⟨start, text⟩ single content).1
        rw [untilBreak_line single (.inr ⟨later, rfl⟩), lineHead_line, LineHead.orLater, if_pos passed,
          linesAfter_append _ single, linesAfter, if_pos rfl]
        exact rest.cons content

end Heads

/-! ## What belongs to a line -/

end Lexer

/-- Where the lexeme starts. -/
def Lexeme.start (l : Lexeme) : Nat := l.toToken.span.start

/-- The error of an uneven indentation, if the lexeme is one. -/
def Lexeme.uneven? : Lexeme → Option LexError
  | .token _ => none
  | .error e _ =>
    match e.fault with
    | .unevenIndent _ => some e
    | _ => none

/-- The lexeme is a token or an error of a line itself, and not of the lines' layout. -/
def Lexeme.isContent : Lexeme → Bool
  | .token t => !(t.kind.isLayout || t.kind == .eof)
  | .error e earlier => (Lexeme.error e earlier).uneven?.isNone

namespace Lexer

theorem operator_content (file : Nat) (c : Cursor) : (operator file c).1.isContent = true := by
  unfold operator unexpected
  split
  · next k found =>
    unfold operator? at found
    split at found <;> cases found <;> rfl
  · rfl

theorem isContent_of_fixed {k : Kind} (fixed : isFixed k = true) (span : Span) (text : String) (payload : Payload) :
    (Lexeme.token ⟨k, span, text, payload⟩).isContent = true := by
  cases k <;> first | rfl | cases fixed

theorem word_content (file : Nat) (c : Cursor) : (word file c).1.isContent = true := by
  unfold word unexpected
  simp only
  split
  · obtain isName | ⟨fixed, -⟩ := wordKind_cases
      (wordText (c.rest.take ((Text.decodeHead c.rest).2 + nameExtent 0 (c.rest.drop (Text.decodeHead c.rest).2))))
    · simp only [Lexeme.isContent, isName]
      rfl
    · exact isContent_of_fixed fixed _ _ _
  · rfl

theorem number_content (file : Nat) (c : Cursor) : (number file c).1.isContent = true := by
  by_cases whole : fractionRun c.rest = []
  · rw [number_int whole]
    simp only
    split <;> rfl
  · rw [number_float whole]
    simp only
    split <;> rfl

theorem stringBody_content {file start : Nat} : ∀ (bs : Bytes) (skip off : Nat) (text : List Char) (bad : Option LexError),
    (∀ e ∈ bad, (Lexeme.error e).isContent = true) → (stringBody file start skip off text bad bs).1.isContent = true
  | [], _, _, _, _, _ => rfl
  | b :: rest, k + 1, off, text, bad, early => stringBody_content rest k (off + 1) text bad early
  | b :: rest, 0, off, text, bad, early => by
    rw [stringBody.eq_def]
    simp only
    split
    · rfl
    · split
      · cases bad with
        | none => rfl
        | some e => exact early e rfl
      · split
        · cases rest with
          | nil => rfl
          | cons e rest' =>
            simp only
            split
            · rfl
            · split
              · exact stringBody_content rest' _ _ _ _ early
              · refine stringBody_content rest' _ _ _ _ ?_
                cases bad with
                | none =>
                  intro e known
                  cases known
                  rfl
                | some e' => exact early
        · exact stringBody_content rest _ _ _ _ early

theorem lexeme_content (file : Nat) (c : Cursor) : (lexeme file c).1.isContent = true := by
  cases lexeme_readBy file c with
  | word _ read => exact read ▸ word_content file c
  | number _ _ read => exact read ▸ number_content file c
  | string _ read => exact read ▸ stringBody_content _ _ _ _ _ nofun
  | operator read => exact read ▸ operator_content file c

/-- A lexeme starts where it is read, or behind that place if it is the error of an escape. -/
theorem lexeme_start (file : Nat) {c : Cursor} (inside : c.rest ≠ []) :
    c.off ≤ (lexeme file c).1.start ∧ (lexeme file c).1.start < (lexeme file c).2.off := by
  have shorter := (lexeme_reaches file inside).length
  have total := (lexeme_reaches file inside).off.2
  have covers := lexeme_covers file c
  have errors := (lexeme_scattered file inside).within
  generalize lexeme file c = read at *
  obtain ⟨l, d⟩ := read
  cases l with
  | token t =>
    have span := covers.span t rfl
    simp only [Lexeme.start, Lexeme.toToken, span]
    exact ⟨Nat.le_refl _, by simp only at total shorter; omega⟩
  | error e earlier => exact errors e (List.mem_append_right _ (List.mem_singleton_self e))

/-- The lexemes of a line break belong to no line. -/
theorem lineBreak_layout (file depth : Nat) (c : Cursor) : ∀ l ∈ (lineBreak file depth c).1, l.isContent = false := by
  intro l member
  obtain inUneven | inRest := List.mem_append.mp member
  · split at inUneven
    · cases inUneven
    · rw [List.mem_singleton.mp inUneven]
      rfl
  · obtain rfl | inLayout := List.mem_cons.mp inRest
    · rfl
    · unfold layout at inLayout
      split at inLayout <;> rw [List.eq_of_mem_replicate inLayout] <;> rfl

theorem uneven?_of_content {l : Lexeme} (content : l.isContent = true) : l.uneven? = none := by
  cases l with
  | token t => rfl
  | error e earlier => exact Option.isNone_iff_eq_none.mp content

theorem uneven?_layout (file old new off : Nat) : (layout file old new off).filterMap Lexeme.uneven? = [] := by
  unfold layout
  split <;> exact List.filterMap_replicate_of_none rfl

/-! ## Lines among the lexemes of a source -/

/-- Among lexemes that are read from a depth on, the first one of a line comes when the line's depth is reached. -/
def Placed (depth : Nat) (line : Line) (ls : List Lexeme) : Prop :=
  ∃ before l behind, ls = before ++ l :: behind ∧ l.isContent = true ∧ line.start ≤ l.start ∧
    l.start < line.start + line.text.length ∧ (∀ m ∈ before, m.isContent = true → m.start < line.start) ∧
      depth + count .indent (tokens before) = line.width / 4 + count .dedent (tokens before)

variable {file depth new : Nat} {c : Cursor} {line : Line} {ls ms : List Lexeme}

theorem Placed.prepend (placed : Placed new line ms)
    (climbs : depth + count .indent (tokens ls) = new + count .dedent (tokens ls))
    (earlier : ∀ m ∈ ls, m.isContent = true → m.start < line.start) : Placed depth line (ls ++ ms) := by
  obtain ⟨before, l, behind, rfl, content, starts, inside, others, level⟩ := placed
  refine ⟨ls ++ before, l, behind, (List.append_assoc ..).symm, content, starts, inside,
    List.forall_mem_append.mpr ⟨earlier, others⟩, ?_⟩
  rw [tokens_append, count_append, count_append]
  omega

theorem Run.opens_with (run : Run file depth c ls) (starts : IsContent c.rest) :
    ∃ behind, ls = (lexeme file c).1 :: behind := by
  obtain ⟨b, tail, shape, notBlank, notBreak, plain⟩ := starts
  have here : skipTrivia c = c := by
    have blanks : c.rest.takeWhile isBlank = [] := by rw [shape, List.takeWhile_cons_of_neg (by simp [notBlank])]
    have stay : c.advance 0 = c := rfl
    simp only [skipTrivia, blanks, List.length_nil, stay, plain, Bool.false_eq_true, if_false]
  cases run with
  | stop atEnd => rw [here, shape] at atEnd; cases atEnd
  | line atBreak =>
    rw [here, shape] at atBreak
    exact absurd (Option.some.inj atBreak) notBreak
  | piece => exact ⟨_, by rw [here]⟩

/-- The lines behind a line break, and where its line head stands among them. -/
theorem lineBreak_finds {c : Cursor} (atBreak : c.rest.head? = some 0x0A) :
    Finds (linesAfter c.off c.rest) (lineHead 0 (c.off + 1) (c.off + 1) (c.rest.drop 1)) := by
  obtain ⟨tail, shape⟩ := List.head?_eq_some_iff.mp atBreak
  rw [shape, linesAfter, if_pos rfl]
  exact lineHead_finds _ _ (Nat.lt_succ_self _)

/-- Every line with content is reached at its depth. -/
theorem Run.placed (run : Run file depth c ls) : ∀ row ∈ linesAfter c.off c.rest, row.hasContent = true →
    Placed depth row ls := by
  induction run with
  | stop atEnd =>
    rw [← (skipTrivia_within _).lines, atEnd]
    nofun
  | @piece depth c ls inside inLine more ih =>
    have within := lexeme_within file inside inLine
    rw [← (skipTrivia_within _).lines, ← within.lines]
    intro row member content
    have later := linesAfter_start row member
    have started := (lexeme_start file inside).2
    rw [← List.singleton_append]
    refine (ih row member content).prepend (lexeme_climbs file depth _).2 ?_
    rw [List.forall_mem_singleton]
    omega
  | @line depth c ls atBreak more ih =>
    have climbs := (lineBreak_climbs file depth (skipTrivia c)).2
    have foreign (row : Line) : ∀ m ∈ (lineBreak file depth (skipTrivia c)).1, m.isContent = true → m.start < row.start := by
      intro m member content
      rw [lineBreak_layout file depth _ m member] at content
      cases content
    rw [← (skipTrivia_within _).lines]
    intro row member content
    cases lineBreak_finds atBreak with
    | ended idle =>
      rw [idle row member] at content
      cases content
    | @content skipped found idle _ among starts width start behind ends =>
      rw [among] at member
      obtain inSkipped | here := List.mem_append.mp member
      · rw [idle row inSkipped] at content
        cases content
      · obtain rfl | later := List.mem_cons.mp here
        · obtain ⟨others, rfl⟩ := more.opens_with starts
          obtain ⟨b, tail, shape, -, notBreak, -⟩ := starts
          have inside : (lineBreak file depth (skipTrivia c)).2.2.rest ≠ [] := by
            rw [show (lineBreak file depth (skipTrivia c)).2.2.rest = b :: tail from shape]
            exact List.cons_ne_nil b tail
          have inLine : (lineBreak file depth (skipTrivia c)).2.2.rest.head? ≠ some 0x0A := by
            rw [show (lineBreak file depth (skipTrivia c)).2.2.rest = b :: tail from shape]
            exact fun same => notBreak (Option.some.inj same)
          have place := lexeme_start file inside
          have last := (lexeme_within file inside inLine).off_le
          have level : (lineBreak file depth (skipTrivia c)).2.1 = row.width / 4 := by rw [← width]; rfl
          have first : (lineBreak file depth (skipTrivia c)).2.2.off = row.start + row.blanks.length := behind
          have total : (lineBreak file depth (skipTrivia c)).2.2.off +
            (untilBreak (lineBreak file depth (skipTrivia c)).2.2.rest).length = row.start + row.text.length := ends
          refine ⟨_, _, others, rfl, lexeme_content file _, by omega, by omega, foreign row, ?_⟩
          rw [climbs, level]
        · exact (ih row later content).prepend climbs (foreign row)

/-- The uneven lines are reported, each once, and no others. -/
theorem Run.uneven (run : Run file depth c ls) : ls.filterMap Lexeme.uneven? =
    ((linesAfter c.off c.rest).filter Line.isUneven).map (Line.unevenError file) := by
  induction run with
  | stop atEnd =>
    rw [← (skipTrivia_within _).lines, atEnd, List.filterMap_append, uneven?_layout]
    rfl
  | @piece depth c ls inside inLine more ih =>
    have within := lexeme_within file inside inLine
    rw [← (skipTrivia_within _).lines, ← within.lines, ← ih,
      List.filterMap_cons_none (uneven?_of_content (lexeme_content file _))]
  | @line depth c ls atBreak more ih =>
    have silent {rows : List Line} (idle : ∀ row ∈ rows, row.hasContent = false) : rows.filter Line.isUneven = [] := by
      refine List.filter_eq_nil_iff.mpr fun row member => ?_
      simp [Line.isUneven, idle row member]
    rw [← (skipTrivia_within _).lines, List.filterMap_append, ih]
    simp only [lineBreak, lineTo, List.filterMap_append, List.filterMap_cons, uneven?_layout]
    cases lineBreak_finds atBreak with
    | ended idle atEnd none =>
      rw [silent idle, none, atEnd]
      rfl
    | @content skipped found idle hasContent among starts width start behind ends =>
      rw [among, List.filter_append, silent idle, List.nil_append, List.filter_cons, Line.isUneven, hasContent, width, start,
        behind]
      by_cases round : found.width % 4 = 0
      · simp [round, indentWidth, Lexeme.uneven?]
      · simp [round, indentWidth, Lexeme.uneven?, Line.unevenError]

end Lexer

/-- What the lexemes of a source say of its lines. -/
structure LaidOut (file : Nat) (source : Bytes) (ls : List Lexeme) : Prop where
  /-- Before the first token or error of a line with content, as many levels are open as its width has steps. -/
  depth : ∀ line ∈ Lexer.linesAfter 0 source, line.hasContent = true → ∃ before l behind, ls = before ++ l :: behind ∧
    l.isContent = true ∧ line.start ≤ l.start ∧ l.start < line.start + line.text.length ∧
      (∀ m ∈ before, m.isContent = true → m.start < line.start) ∧
        Lexer.count .indent (Lexer.tokens before) = line.width / 4 + Lexer.count .dedent (Lexer.tokens before)
  /-- The lines with content whose width is no multiple of four are reported, each once. -/
  uneven : ls.filterMap Lexeme.uneven? =
    ((Lexer.linesAfter 0 source).filter fun line => line.hasContent && line.width % 4 != 0).map fun line =>
      ⟨.unevenIndent line.width, ⟨file, line.start, line.start + line.blanks.length⟩⟩
  /-- Before the end of file no level is open. -/
  ends : ∃ before, ls = before ++ [Lexer.endOfFile file source.length] ∧
    Lexer.count .indent (Lexer.tokens before) = Lexer.count .dedent (Lexer.tokens before)

/-- Every line of a source behind the first has the depth of its width, whatever the source says. -/
theorem indentation_width (file : Nat) (source : Bytes) : LaidOut file source (lexemes file source) := by
  have run : Lexer.Run file 0 ⟨0, source⟩ (lexemes file source) :=
    Lexer.lexemesFrom_run file (c := ⟨0, source⟩) (Nat.lt_succ_self _)
  obtain ⟨before, whole, -⟩ := run.ends
  rw [Nat.zero_add] at whole
  have closed := run.climbs.2
  have level : Lexer.tokens [Lexer.endOfFile file source.length] = [⟨.eof, .point file source.length, "", .none⟩] := rfl
  rw [whole, Lexer.tokens_append, Lexer.count_append, Lexer.count_append, level] at closed
  refine ⟨fun line member content => ?_, run.uneven, before, whole, ?_⟩
  · simpa only [Lexer.Placed, Nat.zero_add] using run.placed line member content
  · simpa [Lexer.count] using closed
end PineLang
