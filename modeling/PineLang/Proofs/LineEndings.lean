import PineLang.Proofs.BlankLines
import PineLang.Proofs.FormatRoundTrip
import PineLang.Proofs.Reports
import PineLang.Proofs.SourceGaps
import PineLang.Source.FileSet

/-!
Line endings do not matter. A carriage return before a line feed is white space wherever a lexeme may start, and inside
a string the line feed behind it leaves the string unterminated with or without it. So a source gives the same lexemes
when its line endings are plain line feeds (`lexemes_joined`), and a file that is kept from memory as it stands has the
tree of the one that is read from a disk (`line_endings_ignored`).
-/
namespace PineLang

/-- What a lexeme is to the caller of the lexer: a token, of which the place does not matter here, or a fault. -/
def Lexeme.returned : Lexeme → Except LexFault Token
  | .token t => .ok t.bare
  | .error e _ => .error e.fault

theorem Lexeme.returned_placeless (l : Lexeme) : l.placeless.returned = l.returned := by
  cases l <;> rfl

/-- Lexemes that agree up to their places are the same to the caller. -/
theorem map_returned_of_placeless {ls ms : List Lexeme} (same : ls.map Lexeme.placeless = ms.map Lexeme.placeless) :
    ls.map Lexeme.returned = ms.map Lexeme.returned := by
  simpa only [List.map_map, Function.comp_def, Lexeme.returned_placeless] using congrArg (List.map Lexeme.returned) same

/-- Lexemes that are the same to the caller say the same. -/
theorem map_bare?_of_returned {ls ms : List Lexeme} (same : ls.map Lexeme.returned = ms.map Lexeme.returned) :
    ls.map Lexeme.bare? = ms.map Lexeme.bare? := by
  have said (l : Lexeme) : l.returned.toOption = l.bare? := by cases l <;> rfl
  simpa only [List.map_map, Function.comp_def, said] using congrArg (List.map Except.toOption) same

/-! ## Joining line endings -/

theorem joinCarriage_carriage {rest : Bytes} (notBreak : rest.head? ≠ some 0x0A) :
    joinCarriage (0x0D :: rest) = 0x0D :: joinCarriage rest := by
  refine joinCarriage.eq_2 _ _ fun later _ shape => notBreak ?_
  rw [shape]
  rfl

theorem joinCarriage_cons {b : UInt8} (other : b ≠ 0x0D) (rest : Bytes) : joinCarriage (b :: rest) = b :: joinCarriage rest :=
  joinCarriage.eq_2 _ _ fun _ isReturn _ => other isReturn

/-- A byte stays, unless it is a carriage return that is dropped. -/
theorem joinCarriage_step (b : UInt8) (rest : Bytes) :
    joinCarriage (b :: rest) = b :: joinCarriage rest ∨ b = 0x0D ∧ joinCarriage (b :: rest) = joinCarriage rest := by
  by_cases isReturn : b = 0x0D
  · subst isReturn
    by_cases isBreak : rest.head? = some 0x0A
    · obtain ⟨later, rfl⟩ := List.head?_eq_some_iff.mp isBreak
      exact .inr ⟨rfl, by rw [joinCarriage, joinCarriage_cons (by decide)]⟩
    · exact .inl (joinCarriage_carriage isBreak)
  · exact .inl (joinCarriage_cons isReturn rest)

theorem joinCarriage_line {line : Bytes} (single : 0x0A ∉ line) : joinCarriage line = line := by
  induction line with
  | nil => rfl
  | cons b line ih =>
    have behind : 0x0A ∉ line := fun member => single (List.mem_cons_of_mem b member)
    by_cases isReturn : b = 0x0D
    · subst isReturn
      have notBreak : line.head? ≠ some 0x0A := fun isBreak => behind (List.mem_of_head? isBreak)
      rw [joinCarriage_carriage notBreak, ih behind]
    · rw [joinCarriage_cons isReturn, ih behind]

/-- Bytes are joined part by part, unless a line ending is cut through. -/
theorem joinCarriage_append {first : Bytes} (second : Bytes)
    (whole : first.getLast? = some 0x0D → second.head? ≠ some 0x0A) :
    joinCarriage (first ++ second) = joinCarriage first ++ joinCarriage second := by
  fun_induction joinCarriage first with
  | case1 rest ih =>
    rw [List.cons_append, List.cons_append, joinCarriage, ih, List.cons_append]
    intro last
    refine whole ?_
    rw [List.getLast?_cons_cons, List.getLast?_cons, last]
    rfl
  | case2 b rest notPair ih =>
    have behind : joinCarriage (rest ++ second) = joinCarriage rest ++ joinCarriage second := by
      refine ih fun last => whole ?_
      rw [List.getLast?_cons, last]
      rfl
    rw [List.cons_append, List.cons_append, ← behind]
    refine joinCarriage.eq_2 _ _ fun later isReturn shape => ?_
    cases rest with
    | nil =>
      subst isReturn
      rw [List.nil_append] at shape
      exact whole rfl (by rw [shape]; rfl)
    | cons c rest => exact notPair rest isReturn (by rw [(List.cons.inj shape).1])
  | case3 => rfl

/-- A source has one line without a line break, or a first line that a line feed ends, and perhaps a carriage return
    before it. -/
theorem exists_line (bs : Bytes) : ∃ line, 0x0A ∉ line ∧ (bs = line ∨
    (∃ later, bs = line ++ 0x0A :: later ∧ line.getLast? ≠ some 0x0D) ∨ ∃ later, bs = line ++ 0x0D :: 0x0A :: later) := by
  induction bs with
  | nil => exact ⟨[], List.not_mem_nil, .inl rfl⟩
  | cons b bs ih =>
    by_cases isBreak : b = 0x0A
    · subst isBreak
      exact ⟨[], List.not_mem_nil, .inr (.inl ⟨bs, rfl, nofun⟩)⟩
    obtain ⟨line, single, cut⟩ := ih
    have longer : 0x0A ∉ b :: line := List.not_mem_cons_of_ne_of_not_mem (Ne.symm isBreak) single
    obtain rfl | ⟨later, rfl, last⟩ | ⟨later, rfl⟩ := cut
    · exact ⟨_, longer, .inl rfl⟩
    · cases line with
      | nil =>
        by_cases isReturn : b = 0x0D
        · subst isReturn
          exact ⟨[], List.not_mem_nil, .inr (.inr ⟨later, rfl⟩)⟩
        · exact ⟨[b], longer, .inr (.inl ⟨later, rfl, fun same => isReturn (Option.some.inj same)⟩)⟩
      | cons c line => exact ⟨b :: c :: line, longer, .inr (.inl ⟨later, rfl, by rwa [List.getLast?_cons_cons]⟩)⟩
    · exact ⟨b :: line, longer, .inr (.inr ⟨later, rfl⟩)⟩

namespace Lexer
open Text (decodeHead)

/-! ## Lexemes -/

/-- Two readings are the same to the caller, and the second leaves one carriage return more, or both leave nothing. -/
def Carries (first second : Lexeme × Cursor) : Prop :=
  first.1.returned = second.1.returned ∧
    (second.2.rest = first.2.rest ++ [0x0D] ∨ first.2.rest = [] ∧ second.2.rest = [])

theorem KeepsTo.carries {read : Cursor → Lexeme × Cursor} {c : Cursor} (keeps : KeepsTo 0x0D read c) :
    Carries (read c) (read (c.upTo 0x0D [])) := by
  rw [keeps []]
  exact ⟨rfl, .inl rfl⟩

/-- The body of a string that a line leaves open stays open with a carriage return behind it. -/
theorem stringBody_carries {file start : Nat} : ∀ (line : Bytes) {skip : Nat} (off : Nat) (text : List Char)
    (bad : Option LexError), skip ≤ line.length → Carries (stringBody file start skip off text bad line)
      (stringBody file start skip off text bad (line ++ [0x0D]))
  | [], 0, off, text, bad, _ => ⟨rfl, .inr ⟨rfl, rfl⟩⟩
  | b :: rest, skip + 1, off, text, bad, room => stringBody_carries rest (off + 1) text bad (Nat.le_of_succ_le_succ room)
  | b :: rest, 0, off, text, bad, _ => by
    have head := decodeHead_line (.inr rfl) (List.cons_ne_nil b rest) []
    have width := (decodeHead_width b rest).2
    rw [List.cons_append] at head ⊢
    rw [stringBody.eq_def, stringBody.eq_def file start 0 off text bad (b :: (rest ++ _))]
    simp only
    split
    · exact ⟨rfl, .inl rfl⟩
    · split
      · split <;> exact ⟨rfl, .inl rfl⟩
      · split
        · cases rest with
          | nil => exact ⟨rfl, .inr ⟨rfl, rfl⟩⟩
          | cons e rest' =>
            have escape := decodeHead_line (.inr rfl) (List.cons_ne_nil e rest') []
            have escapeWidth := (decodeHead_width e rest').2
            rw [List.cons_append] at escape ⊢
            simp only [escape]
            split
            · exact ⟨rfl, .inl rfl⟩
            · split
              · exact stringBody_carries rest' _ _ _ (by omega)
              · exact stringBody_carries rest' _ _ _ (by omega)
        · rw [head]
          exact stringBody_carries rest _ _ _ (by omega)

theorem string_carries {file : Nat} {c : Cursor} (inside : c.rest ≠ []) :
    Carries (string file c) (string file (c.upTo 0x0D [])) := by
  obtain ⟨off, rest⟩ := c
  obtain ⟨a, tail, rfl⟩ := List.exists_cons_of_ne_nil inside
  exact stringBody_carries tail _ _ _ (Nat.zero_le _)

/-- A carriage return at the end of a line changes no lexeme of it. -/
theorem lexeme_carries {file : Nat} {c : Cursor} (inside : c.rest ≠ []) :
    Carries (lexeme file c) (lexeme file (c.upTo 0x0D [])) := by
  have isEnd : endsLine 0x0D := .inr rfl
  obtain ⟨off, rest⟩ := c
  obtain ⟨a, tail, rfl⟩ := List.exists_cons_of_ne_nil inside
  by_cases underscore : a = 0x5F
  · subst underscore
    cases tail with
    | nil => exact (operator_line isEnd inside).carries
    | cons b tail =>
      unfold lexeme
      simp only [Cursor.upTo_rest, List.cons_append]
      split
      · exact (word_line isEnd inside).carries
      · exact (operator_line isEnd inside).carries
  · rw [lexeme_of_not_underscore underscore, Cursor.upTo, List.cons_append, lexeme_of_not_underscore underscore]
    split
    · exact (word_line isEnd inside).carries
    · split
      · exact (number_line isEnd).carries
      · split
        · exact string_carries inside
        · exact (operator_line isEnd inside).carries

/-- Two readings are the same to the caller, and the second leaves the joined bytes. -/
def JoinsTo (first second : Lexeme × Cursor) : Prop :=
  first.1.returned = second.1.returned ∧ second.2.rest = joinCarriage first.2.rest

/-- A lexeme is the same to the caller when the line endings behind it are joined. -/
theorem lexeme_joined (file file' : Nat) {c c' : Cursor} (inside : c.rest ≠ []) (inLine : c.rest.head? ≠ some 0x0A)
    (notReturn : c.rest.head? ≠ some 0x0D) (same : c'.rest = joinCarriage c.rest) :
    JoinsTo (lexeme file c) (lexeme file' c') := by
  suffices joined : JoinsTo (lexeme 0 ⟨0, c.rest⟩) (lexeme 0 ⟨0, joinCarriage c.rest⟩) by
    obtain ⟨bare, left⟩ := lexeme_alike file c
    obtain ⟨bare', left'⟩ := lexeme_alike file' c'
    have returned := congrArg Lexeme.returned bare
    have returned' := congrArg Lexeme.returned bare'
    rw [Lexeme.returned_placeless, Lexeme.returned_placeless] at returned returned'
    rw [← same] at joined
    refine ⟨?_, ?_⟩
    · rw [returned, returned', joined.1]
    · rw [left, left', joined.2]
  generalize c.rest = bs at inside inLine notReturn
  obtain ⟨line, single, cut⟩ := exists_line bs
  -- What is left of the line is at its end.
  have left : (lexeme 0 ⟨0, line⟩).2.rest <:+ line := by
    cases line with
    | nil => exact List.suffix_refl _
    | cons a tail =>
      obtain ⟨n, -, -, there⟩ := @lexeme_reaches 0 ⟨0, a :: tail⟩ (List.cons_ne_nil a tail)
      rw [there]
      exact List.drop_suffix _ _
  have singleLeft : 0x0A ∉ (lexeme 0 ⟨0, line⟩).2.rest := fun member => single (left.mem member)
  have cutLater (isCut : ∀ b, bs.head? = some b → line = [] → b = 0x0A ∨ b = 0x0D) : line ≠ [] := by
    intro empty
    obtain ⟨a, tail, rfl⟩ := List.exists_cons_of_ne_nil inside
    obtain rfl | rfl := isCut a rfl empty
    · exact inLine rfl
    · exact notReturn rfl
  obtain rfl | ⟨later, rfl, last⟩ | ⟨later, rfl⟩ := cut
  · rw [joinCarriage_line single]
    exact ⟨rfl, (joinCarriage_line singleLeft).symm⟩
  · have nonempty : line ≠ [] := cutLater (by rintro b head rfl; exact .inl (Option.some.inj head).symm)
    have joined : joinCarriage (line ++ 0x0A :: later) = line ++ 0x0A :: joinCarriage later := by
      rw [joinCarriage_append _ (fun isLast => absurd isLast last), joinCarriage_line single,
        joinCarriage_cons (by decide)]
    have first : lexeme 0 ⟨0, line ++ 0x0A :: later⟩ = _ := lexeme_line (c := ⟨0, line⟩) nonempty later
    have second : lexeme 0 ⟨0, line ++ 0x0A :: joinCarriage later⟩ = _ := lexeme_line (c := ⟨0, line⟩) nonempty (joinCarriage later)
    have lastLeft : (lexeme 0 ⟨0, line⟩).2.rest.getLast? ≠ some 0x0D := by
      intro isLast
      obtain ⟨taken, whole⟩ := left
      rw [← whole, List.getLast?_append, isLast] at last
      exact last rfl
    rw [joined, first, second]
    refine ⟨rfl, ?_⟩
    simp only [Cursor.before_rest]
    rw [joinCarriage_append _ (fun isLast => absurd isLast lastLeft), joinCarriage_line singleLeft,
      joinCarriage_cons (by decide)]
  · have nonempty : line ≠ [] := cutLater (by rintro b head rfl; exact .inr (Option.some.inj head).symm)
    have pair : joinCarriage (0x0D :: 0x0A :: later) = 0x0A :: joinCarriage later := rfl
    have joined : joinCarriage (line ++ 0x0D :: 0x0A :: later) = line ++ 0x0A :: joinCarriage later := by
      rw [joinCarriage_append _ (fun _ => by simp), joinCarriage_line single, pair]
    have cut : line ++ 0x0D :: 0x0A :: later = line ++ [0x0D] ++ 0x0A :: later := by simp
    have first : lexeme 0 ⟨0, line ++ [0x0D] ++ 0x0A :: later⟩ = _ :=
      lexeme_line (c := ⟨0, line ++ [0x0D]⟩) (by simp) later
    have second : lexeme 0 ⟨0, line ++ 0x0A :: joinCarriage later⟩ = _ := lexeme_line (c := ⟨0, line⟩) nonempty (joinCarriage later)
    obtain ⟨returned, left | ⟨none, none'⟩⟩ := @lexeme_carries 0 ⟨0, line⟩ nonempty
    · have rest : (lexeme 0 ⟨0, line ++ [0x0D]⟩).2.rest = (lexeme 0 ⟨0, line⟩).2.rest ++ [0x0D] := left
      rw [joined, cut, first, second]
      refine ⟨returned.symm, ?_⟩
      simp only [Cursor.before_rest]
      rw [rest, List.append_assoc, List.singleton_append, joinCarriage_append _ (fun _ => by simp),
        joinCarriage_line singleLeft, pair]
    · have rest : (lexeme 0 ⟨0, line ++ [0x0D]⟩).2.rest = [] := none'
      rw [joined, cut, first, second]
      refine ⟨returned.symm, ?_⟩
      simp only [Cursor.before_rest]
      rw [rest, none, List.nil_append, List.nil_append, joinCarriage_cons (by decide)]

/-! ## White space, comments and line heads -/

/-- No white space is left at the head. -/
theorem skipTrivia_head (c : Cursor) : ∀ b ∈ (skipTrivia c).rest.head?, isBlank b = false := by
  intro b head
  rw [Option.mem_def, skipTrivia_rest] at head
  split at head
  · have stop := List.head?_dropWhile_not (· != 0x0A) (c.rest.dropWhile isBlank)
    simp only [head, bne_eq_false_iff_eq] at stop
    rw [stop]
    rfl
  · have stop := List.head?_dropWhile_not isBlank c.rest
    rwa [head] at stop

/-- What is passed over with all carriage returns in it is passed over the same in joined bytes. -/
theorem dropWhile_joined {p : UInt8 → Bool} (passed : p 0x0D = true) (stops : p 0x0A = false) (bs : Bytes) :
    (joinCarriage bs).dropWhile p = joinCarriage (bs.dropWhile p) := by
  fun_induction joinCarriage bs with
  | case1 rest ih =>
    rw [List.dropWhile_cons_of_pos passed, List.dropWhile_cons_of_neg (by simp [stops]),
      List.dropWhile_cons_of_neg (by simp [stops]), joinCarriage_cons (by decide)]
  | case2 b rest notPair ih =>
    by_cases holds : p b = true
    · rw [List.dropWhile_cons_of_pos holds, List.dropWhile_cons_of_pos holds, ih]
    · rw [List.dropWhile_cons_of_neg holds, List.dropWhile_cons_of_neg holds, joinCarriage.eq_2 _ _ notPair]
  | case3 => rfl

/-- The bytes behind a slash start with a slash in joined bytes exactly if they do. -/
theorem joinCarriage_slash {bs rest : Bytes} (shape : joinCarriage bs = 0x2F :: rest) : ∃ rest', bs = 0x2F :: rest' := by
  unfold joinCarriage at shape
  split at shape
  · cases shape
  · next b rest' _ =>
    obtain rfl := (List.cons.inj shape).1
    exact ⟨rest', rfl⟩
  · cases shape

theorem startsComment_joined (bs : Bytes) : startsComment (joinCarriage bs) = startsComment bs := by
  by_cases comment : ∃ rest, bs = 0x2F :: 0x2F :: rest
  · obtain ⟨rest, rfl⟩ := comment
    rw [joinCarriage_cons (by decide), joinCarriage_cons (by decide)]
    rfl
  · rw [startsComment.eq_2 bs fun rest shape => comment ⟨rest, shape⟩, startsComment.eq_2]
    intro rest shape
    obtain ⟨tail, rfl⟩ := joinCarriage_slash shape
    rw [joinCarriage_cons (by decide)] at shape
    obtain ⟨tail', rfl⟩ := joinCarriage_slash (List.cons.inj shape).2
    exact comment ⟨tail', rfl⟩

theorem skipTrivia_joined {c c' : Cursor} (same : c'.rest = joinCarriage c.rest) :
    (skipTrivia c').rest = joinCarriage (skipTrivia c).rest := by
  rw [skipTrivia_rest, skipTrivia_rest, same, dropWhile_joined rfl rfl, startsComment_joined]
  split
  · rw [dropWhile_joined (p := (· != 0x0A)) rfl rfl]
  · rfl

/-- The same line head is found in joined bytes. -/
theorem lineHead_joined (width start off : Nat) (bs : Bytes) (start' off' : Nat) :
    (lineHead width start' off' (joinCarriage bs)).width = (lineHead width start off bs).width ∧
      (lineHead width start' off' (joinCarriage bs)).cursor.rest = joinCarriage (lineHead width start off bs).cursor.rest := by
  refine lineHead.induct
    (fun width start off bs => ∀ start' off',
      (lineHead width start' off' (joinCarriage bs)).width = (lineHead width start off bs).width ∧
        (lineHead width start' off' (joinCarriage bs)).cursor.rest = joinCarriage (lineHead width start off bs).cursor.rest)
    (fun start off bs => ∀ start' off',
      (commentLine start' off' (joinCarriage bs)).width = (commentLine start off bs).width ∧
        (commentLine start' off' (joinCarriage bs)).cursor.rest = joinCarriage (commentLine start off bs).cursor.rest)
    ?_ ?_ ?_ ?_ ?_ ?_ ?_ ?_ ?_ ?_ width start off bs start' off'
  · intro _ _ _ _ _
    exact ⟨rfl, rfl⟩
  · intro width start off rest ih start' off'
    rw [joinCarriage_cons (by decide)]
    simpa only [lineHead] using ih start' (off' + 1)
  · intro width start off rest ih start' off'
    rw [joinCarriage_cons (by decide)]
    simpa only [lineHead] using ih start' (off' + 1)
  · intro width start off rest ih start' off'
    obtain kept | ⟨-, dropped⟩ := joinCarriage_step 0x0D rest
    · rw [kept]
      simpa only [lineHead] using ih start' (off' + 1)
    · rw [dropped]
      simpa only [lineHead] using ih start' off'
  · intro width start off rest ih start' off'
    rw [joinCarriage_cons (by decide)]
    simpa only [lineHead] using ih (off' + 1) (off' + 1)
  · intro width start off rest ih start' off'
    rw [joinCarriage_cons (by decide), joinCarriage_cons (by decide)]
    simpa only [lineHead] using ih start' (off' + 2)
  · intro width start off b rest notSpace notTab notReturn notBreak notComment start' off'
    have plain : ∀ rest', b = 0x2F → joinCarriage rest = 0x2F :: rest' → False := by
      intro rest' slash shape
      obtain ⟨rest'', rfl⟩ := joinCarriage_slash shape
      exact notComment rest'' slash rfl
    rw [joinCarriage_cons notReturn, lineHead.eq_7 _ _ _ _ _ notSpace notTab notReturn notBreak notComment,
      lineHead.eq_7 _ _ _ _ _ notSpace notTab notReturn notBreak plain]
    exact ⟨rfl, (joinCarriage_cons notReturn rest).symm⟩
  · intro _ _ _ _
    exact ⟨rfl, rfl⟩
  · intro start off rest ih start' off'
    rw [joinCarriage_cons (by decide)]
    simpa only [commentLine] using ih (off' + 1) (off' + 1)
  · intro start off b rest notBreak ih start' off'
    rw [commentLine.eq_3 _ _ _ _ notBreak]
    obtain kept | ⟨-, dropped⟩ := joinCarriage_step b rest
    · rw [kept, commentLine.eq_3 _ _ _ _ notBreak]
      exact ih start' (off' + 1)
    · rw [dropped]
      exact ih start' off'

theorem lineBreak_joined (file file' depth : Nat) {c c' : Cursor} (atBreak : c.rest.head? = some 0x0A)
    (same : c'.rest = joinCarriage c.rest) :
    (lineBreak file' depth c').1.map Lexeme.returned = (lineBreak file depth c).1.map Lexeme.returned ∧
      (lineBreak file' depth c').2.1 = (lineBreak file depth c).2.1 ∧
      (lineBreak file' depth c').2.2.rest = joinCarriage (lineBreak file depth c).2.2.rest := by
  obtain ⟨later, shape⟩ := List.head?_eq_some_iff.mp atBreak
  have behind : joinCarriage (c.rest.drop 1) = c'.rest.drop 1 := by
    rw [same, shape, joinCarriage_cons (by decide)]
    rfl
  have head := lineHead_joined 0 (c.off + 1) (c.off + 1) (c.rest.drop 1) (c'.off + 1) (c'.off + 1)
  rw [behind] at head
  obtain ⟨lexemes, depths⟩ := lineBreak_alike file' file depth c' c head.1
  exact ⟨map_returned_of_placeless lexemes, depths, head.2⟩

/-! ## Runs -/

/-- A source with joined line endings is read in step with the source. -/
theorem Run.joined {file file' depth : Nat} {c c' : Cursor} {ls ms : List Lexeme} (first : Run file depth c ls)
    (second : Run file' depth c' ms) (same : c'.rest = joinCarriage c.rest) :
    ms.map Lexeme.returned = ls.map Lexeme.returned := by
  induction first generalizing c' ms with
  | @stop depth c atEnd =>
    have trivia := skipTrivia_joined same
    rw [atEnd] at trivia
    cases second with
    | stop =>
      rw [List.map_append, List.map_append, map_returned_of_placeless (layout_placeless file' file ..)]
      rfl
    | line atBreak => simp [trivia, joinCarriage] at atBreak
    | piece inside => exact absurd trivia inside
  | @line depth c ls atBreak more ih =>
    have trivia := skipTrivia_joined same
    obtain ⟨lexemes, depths, rest⟩ := lineBreak_joined file file' depth atBreak trivia
    have atBreak' : (skipTrivia c').rest.head? = some 0x0A := by
      obtain ⟨later, shape⟩ := List.head?_eq_some_iff.mp atBreak
      rw [trivia, shape, joinCarriage_cons (by decide)]
      rfl
    cases second with
    | stop atEnd => simp [atEnd] at atBreak'
    | line _ more' =>
      rw [depths] at more'
      rw [List.map_append, List.map_append, lexemes, ih more' rest]
    | piece _ inLine => exact absurd atBreak' inLine
  | @piece depth c ls inside inLine more ih =>
    have trivia := skipTrivia_joined same
    have notReturn : (skipTrivia c).rest.head? ≠ some 0x0D := fun isReturn => by
      cases skipTrivia_head c _ isReturn
    obtain ⟨returned, rest⟩ := lexeme_joined file file' inside inLine notReturn trivia
    have head : (skipTrivia c').rest.head? = (skipTrivia c).rest.head? := by
      rw [trivia]
      obtain ⟨b, tail, shape⟩ := List.exists_cons_of_ne_nil inside
      rw [shape] at notReturn ⊢
      rw [joinCarriage_cons fun isReturn => notReturn (congrArg some isReturn)]
      rfl
    cases second with
    | stop atEnd =>
      rw [atEnd] at head
      exact absurd (List.head?_eq_none_iff.mp head.symm) inside
    | line atBreak => exact absurd (head.symm.trans atBreak) inLine
    | piece _ _ more' => rw [List.map_cons, List.map_cons, returned, ih more' rest]

end Lexer

/-- A source with plain line feeds gives the tokens and the faults of the source, in their order. -/
theorem lexemes_joined (file file' : Nat) (source : Bytes) :
    (lexemes file' (joinCarriage source)).map Lexeme.returned = (lexemes file source).map Lexeme.returned := by
  have first : Lexer.Run file 0 ⟨0, source⟩ (lexemes file source) := Lexer.lexemesFrom_run file (Nat.lt_succ_self _)
  have second : Lexer.Run file' 0 ⟨0, joinCarriage source⟩ (lexemes file' (joinCarriage source)) :=
    Lexer.lexemesFrom_run file' (Nat.lt_succ_self _)
  exact first.joined second rfl

/-! ## Files -/

theorem File.bare_of_alike {file file' : Nat} {source source' : Bytes}
    (told : (lexemes file source).map Lexeme.bare? = (lexemes file' source').map Lexeme.bare?) :
    (parse (lexemes file source)).toOption.map File.bare = (parse (lexemes file' source')).toOption.map File.bare := by
  cases parsed : parse (lexemes file source) with
  | ok tree =>
    obtain ⟨tree', parsed', bare⟩ := parse_alike parsed told.symm
    rw [parsed']
    exact congrArg some bare.symm
  | error =>
    cases parsed' : parse (lexemes file' source') with
    | ok tree' =>
      obtain ⟨tree, other, -⟩ := parse_alike parsed' told
      rw [other] at parsed
      cases parsed
    | error => rfl

/-- Line endings do not change a program. A source and the source with plain line feeds give the same tokens, apart
    from their places, and the same faults, in the same order. So bytes without a byte order mark that are kept from
    memory, and the same bytes read from a disk, are both not parsed or have the same tree up to spans. -/
theorem line_endings_ignored :
    (∀ (file file' : Nat) (source : Bytes),
      (lexemes file source).map Lexeme.returned = (lexemes file' (joinCarriage source)).map Lexeme.returned) ∧
    ∀ (s s' : FileSet) (d : Disk) (path path' : String) (raw : Bytes), (dropMark raw).2 = false → d.read path' = .ok raw →
      ∃ f f' id t, (s.addInMemory path raw).2.get? (s.addInMemory path raw).1 = some f ∧
        s'.load d.read path' = .ok (id, t) ∧ t.get? id = some f' ∧
        ∀ limit limit', (f.parse limit).ok?.map File.bare = (f'.parse limit').ok?.map File.bare := by
  refine ⟨fun file file' source => (lexemes_joined file file' source).symm, ?_⟩
  intro s s' d path path' raw unmarked onDisk
  have kept : (dropMark raw).1 = raw := by
    unfold dropMark at unmarked ⊢
    split at unmarked
    · cases unmarked
    · rfl
  have loaded : s'.load d.read path' = .ok (s'.add path' (readText raw).1 (readText raw).2) := by
    rw [FileSet.load, onDisk, Except.map, loadedText_eq]
  refine ⟨_, _, _, _, s.get?_add path raw .inMemory, loaded, s'.get?_add path' (readText raw).1 (readText raw).2, ?_⟩
  intro limit limit'
  rw [SourceFile.parse_ok?, SourceFile.parse_ok?]
  refine File.bare_of_alike (map_bare?_of_returned ?_)
  change (lexemes _ raw).map Lexeme.returned = (lexemes _ (joinCarriage (dropMark raw).1)).map Lexeme.returned
  rw [kept, lexemes_joined]

/-- Two carriage returns before a line feed, one in an indent, and one in a comment. -/
def mixedEndings : Bytes := utf8 "fun f() -> i8:\r\r\n  \r  return 1 // 2\r3\r\n"

theorem line_endings_ignored_mixed : (dropMark mixedEndings).2 = false ∧
    Disk.read ⟨[(["a.pn"], .file mixedEndings false)], []⟩ "a.pn" = .ok mixedEndings ∧
    (parse (lexemes 0 mixedEndings)).isOk = true ∧
    ∃ f f' id t, (FileSet.addInMemory {} "m.pn" mixedEndings).2.get? (FileSet.addInMemory {} "m.pn" mixedEndings).1 = some f ∧
      FileSet.load {} (Disk.read ⟨[(["a.pn"], .file mixedEndings false)], []⟩) "a.pn" = .ok (id, t) ∧ t.get? id = some f' ∧
      ∀ limit limit', (f.parse limit).ok?.map File.bare = (f'.parse limit').ok?.map File.bare := by
  have unmarked : (dropMark mixedEndings).2 = false := by decide +kernel
  have onDisk : Disk.read ⟨[(["a.pn"], .file mixedEndings false)], []⟩ "a.pn" = .ok mixedEndings := by decide +kernel
  exact ⟨unmarked, onDisk, by decide +kernel, line_endings_ignored.2 _ _ _ _ _ _ unmarked onDisk⟩

end PineLang
