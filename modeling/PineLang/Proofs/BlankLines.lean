import PineLang.Proofs.LineBounds
import PineLang.Proofs.TokenStream

/-!
Blank lines and lines with nothing but a comment do not matter. One of them may be put behind any line break of a
source, and the tokens and errors stay the same but for their places (`blank_line_ignored`). Up to the line break the
two sources are read in step, for a lexeme does not look behind its line; at it, both find the same next content.
-/
namespace PineLang

/-- A line of white space, and perhaps a comment, with its line break. -/
def IsBlankLine (bs : Bytes) : Prop :=
  ∃ blanks note, bs = blanks ++ note ++ [0x0A] ∧ (∀ b ∈ blanks, b = 0x20 ∨ b = 0x09 ∨ b = 0x0D) ∧
    (note = [] ∨ ∃ text, note = 0x2F :: 0x2F :: text ∧ 0x0A ∉ text)

namespace Lexer

/-- The lexemes of the same bytes are the same up to their places. -/
theorem Run.alike {file file' depth : Nat} {c c' : Cursor} {ls ms : List Lexeme} (first : Run file depth c ls)
    (second : Run file' depth c' ms) (same : c.rest = c'.rest) : ls.map Lexeme.placeless = ms.map Lexeme.placeless := by
  rw [first.unique (lexemesFrom_run file (Nat.lt_succ_self _)), second.unique (lexemesFrom_run file' (Nat.lt_succ_self _))]
  refine lexemesFrom_alike file file' _ _ depth c c' ?_ (Nat.lt_succ_self _) (Nat.lt_succ_self _)
  rw [skipTrivia_alike c, skipTrivia_alike c', same]

/-- No content is found in the text, so a line head looks behind it. -/
def Idle (text : Bytes) : Prop := ∀ width start off, (lineHead width start off text).cursor.rest = []

theorem idle_of_blank {blanks note : Bytes} (blank : ∀ b ∈ blanks, b = 0x20 ∨ b = 0x09 ∨ b = 0x0D)
    (comment : note = [] ∨ ∃ text, note = 0x2F :: 0x2F :: text ∧ 0x0A ∉ text) : Idle (blanks ++ note) := by
  intro width start off
  have isBlank : ∀ b ∈ blanks, isBlank b = true := by
    intro b member
    obtain rfl | rfl | rfl := blank b member <;> rfl
  rw [lineHead_blanks note isBlank]
  obtain rfl | ⟨text, rfl, single⟩ := comment
  · rfl
  · rw [lineHead, commentLine_end single]

section Insertion

variable {file depth : Nat} {idle later : Bytes}

/-- Looking for content behind a line break, an idle line is passed over. -/
theorem lineHead_idle (isIdle : Idle idle) (later : Bytes) (start off start' off' : Nat) :
    (lineHead 0 start off (idle ++ 0x0A :: later)).width = (lineHead 0 start' off' later).width ∧
      (lineHead 0 start off (idle ++ 0x0A :: later)).cursor.rest = (lineHead 0 start' off' later).cursor.rest := by
  rw [lineHead_line, LineHead.orLater, if_pos (isIdle _ _ _)]
  exact lineHead_alike ..

/-- What a line break gives and where it leads, before later lines and before an idle line and the later lines. -/
inductive Meets (file depth : Nat) (c : Cursor) (idle later : Bytes) : Prop
  /-- Content is found before the later lines. -/
  | sooner {ls : List Lexeme} {new : Nat} {d : Cursor}
    (both : ∀ behind, lineBreak file depth (c.before behind) = (ls, new, d.before behind))
  /-- The later lines are looked into, in both cases from their start. -/
  | there (lexemes : (lineBreak file depth (c.before later)).1.map Lexeme.placeless =
      (lineBreak file depth (c.before (idle ++ 0x0A :: later))).1.map Lexeme.placeless)
    (depths : (lineBreak file depth (c.before later)).2.1 = (lineBreak file depth (c.before (idle ++ 0x0A :: later))).2.1)
    (rest : (lineBreak file depth (c.before later)).2.2.rest =
      (lineBreak file depth (c.before (idle ++ 0x0A :: later))).2.2.rest)

theorem meets (file depth : Nat) (isIdle : Idle idle) {c : Cursor} (atBreak : (c.before later).rest.head? = some 0x0A) :
    Meets file depth c idle later := by
  obtain ⟨off, line⟩ := c
  cases line with
  | nil =>
    obtain ⟨width, rest⟩ := lineHead_idle isIdle later (off + 1) (off + 1) (off + 1) (off + 1)
    obtain ⟨lexemes, depths⟩ := lineBreak_alike file file depth (Cursor.before ⟨off, []⟩ later)
      (Cursor.before ⟨off, []⟩ (idle ++ 0x0A :: later)) width.symm
    exact .there lexemes depths rest.symm
  | cons b line =>
    obtain rfl : b = 0x0A := Option.some.inj atBreak
    by_cases passed : (lineHead 0 (off + 1) (off + 1) line).cursor.rest = []
    · have head (behind : Bytes) : lineHead 0 (off + 1) (off + 1) (line ++ 0x0A :: behind) =
          lineHead 0 (off + 1 + line.length + 1) (off + 1 + line.length + 1) behind := by
        rw [lineHead_line, LineHead.orLater, if_pos passed]
      obtain ⟨width, rest⟩ := lineHead_idle isIdle later (off + 1 + line.length + 1) (off + 1 + line.length + 1)
        (off + 1 + line.length + 1) (off + 1 + line.length + 1)
      rw [← head, ← head] at width rest
      obtain ⟨lexemes, depths⟩ := lineBreak_alike file file depth (Cursor.before ⟨off, 0x0A :: line⟩ later)
        (Cursor.before ⟨off, 0x0A :: line⟩ (idle ++ 0x0A :: later)) width.symm
      exact .there lexemes depths rest.symm
    · have head (behind : Bytes) : lineHead 0 (off + 1) (off + 1) (line ++ 0x0A :: behind) = 
          { lineHead 0 (off + 1) (off + 1) line with
            cursor := (lineHead 0 (off + 1) (off + 1) line).cursor.before behind } := by
        rw [lineHead_line, LineHead.orLater, if_neg passed]
      refine @Meets.sooner _ _ _ _ _ (lineBreak file depth ⟨off, 0x0A :: line⟩).1 (lineBreak file depth ⟨off, 0x0A :: line⟩).2.1
        (lineBreak file depth ⟨off, 0x0A :: line⟩).2.2 fun behind => ?_
      simp only [lineBreak, lineTo, Cursor.before_off, Cursor.before_rest, Cursor.before_span, List.cons_append, List.drop_one,
        List.tail_cons, head]

/-- An idle line behind a line break changes nothing but places. -/
theorem Run.past_idle (isIdle : Idle idle) {b : Cursor} {ls : List Lexeme} (first : Run file depth b ls) :
    ∀ {c : Cursor} {ms : List Lexeme}, b = c.before later → Run file depth (c.before (idle ++ 0x0A :: later)) ms →
      ls.map Lexeme.placeless = ms.map Lexeme.placeless := by
  have some (c : Cursor) (behind : Bytes) : (c.before behind).rest ≠ [] :=
    List.append_ne_nil_of_right_ne_nil _ (List.cons_ne_nil _ _)
  have atBreak_iff (c : Cursor) (behind behind' : Bytes) :
      (c.before behind).rest.head? = Option.some 0x0A ↔ (c.before behind').rest.head? = Option.some 0x0A := by
    obtain ⟨off, _ | ⟨b, line⟩⟩ := c <;> exact Iff.rfl
  induction first with
  | stop atEnd =>
    rintro c ms rfl second
    rw [skipTrivia_line] at atEnd
    exact absurd atEnd (some _ _)
  | @line depth b ls atBreak more ih =>
    rintro c ms rfl second
    rw [skipTrivia_line] at atBreak more ih ⊢
    cases second with
    | stop atEnd =>
      rw [skipTrivia_line] at atEnd
      exact absurd atEnd (some _ _)
    | piece _ inLine =>
      rw [skipTrivia_line] at inLine
      exact absurd ((atBreak_iff ..).mp atBreak) inLine
    | @line _ _ ms _ more' =>
      rw [skipTrivia_line] at more' ⊢
      rw [List.map_append, List.map_append]
      cases meets file depth isIdle atBreak with
      | sooner both =>
        rw [both] at more ih ⊢
        rw [both] at more' ⊢
        rw [ih rfl more']
      | there lexemes depths rest =>
        rw [depths] at more
        rw [lexemes, more.alike more' rest]
  | @piece depth b ls inside inLine more ih =>
    rintro c ms rfl second
    rw [skipTrivia_line] at inside inLine more ih ⊢
    have some' : (skipTrivia c).rest ≠ [] := by
      intro none
      rw [Cursor.before_rest, none] at inLine
      exact inLine rfl
    cases second with
    | stop atEnd =>
      rw [skipTrivia_line] at atEnd
      exact absurd atEnd (some _ _)
    | line atBreak =>
      rw [skipTrivia_line] at atBreak
      exact absurd ((atBreak_iff ..).mp atBreak) inLine
    | @piece _ _ ms _ _ more' =>
      rw [skipTrivia_line] at more' ⊢
      rw [lexeme_line some'] at more ih ⊢
      rw [lexeme_line some'] at more' ⊢
      rw [List.map_cons, List.map_cons, ih rfl more']

end Insertion

end Lexer

/-- A blank line or a line with nothing but a comment, put behind any line break, leaves the tokens and the errors of a
    source as they are, up to their places. -/
theorem blank_line_ignored (file : Nat) (before line behind : Bytes) (atBreak : before.getLast? = some 0x0A)
    (blank : IsBlankLine line) : (lexemes file (before ++ line ++ behind)).map Lexeme.placeless =
      (lexemes file (before ++ behind)).map Lexeme.placeless := by
  obtain ⟨lines, rfl⟩ := List.getLast?_eq_some_iff.mp atBreak
  obtain ⟨blanks, note, rfl, white, comment⟩ := blank
  have without : lines ++ [0x0A] ++ behind = lines ++ 0x0A :: behind := by simp
  have within : lines ++ [0x0A] ++ (blanks ++ note ++ [0x0A]) ++ behind =
      lines ++ 0x0A :: (blanks ++ note ++ 0x0A :: behind) := by simp
  rw [without, within]
  have first : Lexer.Run file 0 ⟨0, lines ++ 0x0A :: behind⟩ (lexemes file (lines ++ 0x0A :: behind)) :=
    Lexer.lexemesFrom_run file (Nat.lt_succ_self _)
  have second : Lexer.Run file 0 ⟨0, lines ++ 0x0A :: (blanks ++ note ++ 0x0A :: behind)⟩
      (lexemes file (lines ++ 0x0A :: (blanks ++ note ++ 0x0A :: behind))) :=
    Lexer.lexemesFrom_run file (Nat.lt_succ_self _)
  exact (first.past_idle (Lexer.idle_of_blank white comment) (c := ⟨0, lines⟩) rfl second).symm

/-- Behind an unterminated string and an uneven line, and before the end of the source. -/
theorem blank_line_ignored_uneven : (utf8 "f(\"a\n   b\n").getLast? = some 0x0A ∧
    IsBlankLine ([0x20, 0x09] ++ utf8 "// \"" ++ [0x0A]) ∧
      (lexemes 0 (utf8 "f(\"a\n   b\n" ++ ([0x20, 0x09] ++ utf8 "// \"" ++ [0x0A]) ++ utf8 "\t c")).map Lexeme.placeless =
        (lexemes 0 (utf8 "f(\"a\n   b\n" ++ utf8 "\t c")).map Lexeme.placeless := by
  have atBreak : (utf8 "f(\"a\n   b\n").getLast? = some 0x0A := by decide +kernel
  have blank : IsBlankLine ([0x20, 0x09] ++ utf8 "// \"" ++ [0x0A]) :=
    ⟨[0x20, 0x09], utf8 "// \"", rfl, by decide, .inr ⟨utf8 " \"", by decide +kernel, by decide +kernel⟩⟩
  exact ⟨atBreak, blank, blank_line_ignored 0 _ _ _ atBreak blank⟩

end PineLang
