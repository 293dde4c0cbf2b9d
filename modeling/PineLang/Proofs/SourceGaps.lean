import PineLang.Proofs.FixedTokens
import PineLang.Proofs.FormatFixedPoint

/-!
What stands between the tokens of a source. Two tokens of a line have nothing but white space between them, since a
comment ends its line, and white space is all that stands before the first token of a line. So what the printer looks
for around a token is there, if it looks past the white space of the line and no further (`lexemes_spaced`).
-/
namespace PineLang

namespace Printer

/-- The source has the word `else`, and then only white space of the same line, before the offset. -/
def elseOnLine (source : Bytes) (off : Nat) : Bool :=
  (utf8 "else").reverse.isPrefixOf ((source.take off).reverse.dropWhile Lexer.isBlank)

/-- The source has an opening brace, after white space of the same line only, at the offset. -/
def opensBrace (source : Bytes) (off : Nat) : Bool := ((source.drop off).dropWhile Lexer.isBlank).head? == some 0x7B

section OnLine

variable {source before gap rest : Bytes} {off : Nat}

theorem elseOnLine_blank (here : source.take off = before ++ gap) (blank : ∀ b ∈ gap, Lexer.isBlank b = true) :
    elseOnLine source off = (utf8 "else").reverse.isPrefixOf (before.reverse.dropWhile Lexer.isBlank) := by
  rw [elseOnLine, here, List.reverse_append, List.dropWhile_append_of_pos (by simpa using blank)]

theorem elseOnLine_word (here : source.take off = before ++ utf8 "else" ++ gap) (blank : ∀ b ∈ gap, Lexer.isBlank b = true) :
    elseOnLine source off = true := by
  rw [elseOnLine_blank here blank]
  simp [utf8_else, Lexer.isBlank]

/-- Another byte than the last of `else`. -/
theorem elseOnLine_other {b : UInt8} (here : source.take off = before ++ [b] ++ gap) (blank : ∀ b ∈ gap, Lexer.isBlank b = true)
    (plain : Lexer.isBlank b = false) (other : b ≠ 0x65) : elseOnLine source off = false := by
  rw [elseOnLine_blank here blank]
  have first : (0x65 == b) = false := beq_false_of_ne other.symm
  simp [utf8_else, plain, List.isPrefixOf, first]

theorem opensBrace_gap {b : UInt8} (here : source.drop off = gap ++ b :: rest) (blank : ∀ b ∈ gap, Lexer.isBlank b = true)
    (plain : Lexer.isBlank b = false) : opensBrace source off = (b == 0x7B) := by
  rw [opensBrace, here, List.dropWhile_append_of_pos blank, List.dropWhile_cons, plain]
  rfl

end OnLine

end Printer

namespace Lexer

/-! ## Places in a source -/

/-- The place is one in the source. -/
def Cursor.At (source : Bytes) (c : Cursor) : Prop := ∃ before, before.length = c.off ∧ before ++ c.rest = source

theorem Cursor.At.reaches {source : Bytes} {c c' : Cursor} {n : Nat} (here : c.At source) (reaches : c.Reaches c' n) :
    c'.At source := by
  obtain ⟨before, place, whole⟩ := here
  obtain ⟨k, -, bound, rfl⟩ := reaches
  refine ⟨before ++ c.rest.take k, ?_, ?_⟩
  · simp only [Cursor.advance, List.length_append, List.length_take, place]
    omega
  · simp only [Cursor.advance, List.append_assoc, List.take_append_drop, whole]

/-- A kind of which tokens stand for bytes within a line. -/
def isInline (k : Kind) : Bool := !k.isLayout && k != .eof && k != .invalid

/-! ## White space -/

section Blanks

variable {source : Bytes} {file depth : Nat} {c : Cursor} {l m x : Lexeme} {ls ms us : List Lexeme}

theorem skipTrivia_rest (c : Cursor) : (skipTrivia c).rest =
    if startsComment (c.rest.dropWhile isBlank) then (c.rest.dropWhile isBlank).dropWhile (· != 0x0A)
    else c.rest.dropWhile isBlank := by
  unfold skipTrivia
  simp only [Cursor.advance, lineExtent, drop_takeWhile]
  split <;> rfl

/-- White space of a line stands between a place and the next token of the line. -/
theorem skipTrivia_inline (inside : (skipTrivia c).rest ≠ []) (inLine : (skipTrivia c).rest.head? ≠ some 0x0A) :
    ∃ gap tail, c.rest = gap ++ tail ∧ (∀ b ∈ gap, isBlank b = true) ∧ skipTrivia c = ⟨c.off + gap.length, tail⟩ := by
  have trivia : skipTrivia c = if startsComment (c.rest.dropWhile isBlank) then
      Cursor.advance ⟨c.off + (c.rest.takeWhile isBlank).length, c.rest.dropWhile isBlank⟩ (lineExtent (c.rest.dropWhile isBlank))
    else ⟨c.off + (c.rest.takeWhile isBlank).length, c.rest.dropWhile isBlank⟩ := by
    simp only [skipTrivia, Cursor.advance, drop_takeWhile]
  by_cases comment : startsComment (c.rest.dropWhile isBlank) = true
  · -- A comment is passed over up to the end of its line.
    rw [skipTrivia_rest, if_pos comment] at inside inLine
    have atBreak := List.head_dropWhile_not (· != 0x0A) inside
    rw [bne_eq_false_iff_eq] at atBreak
    rw [List.head?_eq_some_head inside, atBreak] at inLine
    exact absurd rfl inLine
  · rw [if_neg comment] at trivia
    exact ⟨_, _, List.takeWhile_append_dropWhile.symm, List.all_eq_true.mp List.all_takeWhile, trivia⟩

theorem layout_kind {old new off : Nat} (member : l ∈ layout file old new off) : l.kind = .indent ∨ l.kind = .dedent := by
  unfold layout at member
  split at member <;> rw [List.eq_of_mem_replicate member]
  · exact .inl rfl
  · exact .inr rfl

/-- No lexeme of a line break stands within a line. -/
theorem lineBreak_kind (member : l ∈ (lineBreak file depth c).1) : isInline l.kind = false := by
  simp only [lineBreak, lineTo, List.mem_append, List.mem_cons] at member
  obtain uneven | rfl | deeper := member
  · split at uneven
    · cases uneven
    · rw [List.mem_singleton.mp uneven]
      rfl
  · rfl
  · obtain kind | kind := layout_kind deeper <;> rw [kind] <;> rfl

/-- The first lexeme of a run, if it stands within the line. -/
theorem Run.first (run : Run file depth c (l :: ls)) (inline : isInline l.kind = true) : ∃ gap tail,
    c.rest = gap ++ tail ∧ (∀ b ∈ gap, isBlank b = true) ∧ tail ≠ [] ∧ l = (lexeme file ⟨c.off + gap.length, tail⟩).1 ∧
      Run file depth (lexeme file ⟨c.off + gap.length, tail⟩).2 ls := by
  generalize whole : l :: ls = all at run
  cases run with
  | stop =>
    have member : l ∈ layout file depth 0 (skipTrivia c).off ++ [endOfFile file (skipTrivia c).off] := by
      rw [← whole]
      exact List.mem_cons_self ..
    obtain deeper | stop := List.mem_append.mp member
    · obtain kind | kind := layout_kind deeper <;> rw [kind] at inline <;> cases inline
    · rw [List.mem_singleton.mp stop] at inline
      cases inline
  | @line _ _ more atBreak =>
    have member : l ∈ (lineBreak file depth (skipTrivia c)).1 := by
      obtain ⟨x, xs, shape⟩ := List.exists_cons_of_ne_nil (lineBreak_ne_nil file depth (skipTrivia c))
      rw [shape, List.cons_append] at whole
      rw [shape, (List.cons.inj whole).1]
      exact List.mem_cons_self ..
    rw [lineBreak_kind member] at inline
    cases inline
  | piece inside inLine more =>
    obtain ⟨rfl, rfl⟩ := List.cons.inj whole
    obtain ⟨gap, tail, split, blanks, there⟩ := skipTrivia_inline inside inLine
    rw [there] at inside more ⊢
    exact ⟨gap, tail, split, blanks, inside, rfl, more⟩

/-- A token within a line is read at a place behind. -/
theorem Run.inline (run : Run file depth c ls) : ∀ {ms : List Lexeme}, ls = ms ++ l :: us → isInline l.kind = true →
    ∃ depth' c', c.Reaches c' 0 ∧ c'.rest ≠ [] ∧ l = (lexeme file c').1 ∧ Run file depth' (lexeme file c').2 us := by
  induction run with
  | @stop depth c atEnd =>
    intro ms whole inline
    have member : l ∈ layout file depth 0 (skipTrivia c).off ++ [endOfFile file (skipTrivia c).off] := by
      rw [whole]
      simp
    obtain deeper | stop := List.mem_append.mp member
    · obtain kind | kind := layout_kind deeper <;> rw [kind] at inline <;> cases inline
    · rw [List.mem_singleton.mp stop] at inline
      cases inline
  | @line depth c ls atBreak more ih =>
    intro ms whole inline
    have inside : (skipTrivia c).rest ≠ [] := fun none => by simp [none] at atBreak
    have onward := (skipTrivia_reaches c).trans ((lineBreak_reaches file depth inside).mono (Nat.zero_le 1))
    obtain ⟨above, rfl, later⟩ | ⟨above, broken, later⟩ := List.append_eq_append_iff.mp whole
    · obtain ⟨depth', c', reaches, rest⟩ := ih later inline
      exact ⟨depth', c', onward.trans reaches, rest⟩
    · cases above with
      | nil =>
        obtain ⟨depth', c', reaches, rest⟩ := @ih [] later.symm inline
        exact ⟨depth', c', onward.trans reaches, rest⟩
      | cons x above =>
        obtain ⟨rfl, -⟩ := List.cons.inj later
        rw [lineBreak_kind (broken ▸ List.mem_append_right ms (List.mem_cons_self ..))] at inline
        cases inline
  | @piece depth c ls inside inLine more ih =>
    intro ms whole inline
    cases ms with
    | nil =>
      obtain ⟨rfl, rfl⟩ := List.cons.inj whole
      exact ⟨depth, skipTrivia c, skipTrivia_reaches c, inside, rfl, more⟩
    | cons x ms =>
      obtain ⟨-, later⟩ := List.cons.inj whole
      obtain ⟨depth', c', reaches, rest⟩ := ih later inline
      have onward := (skipTrivia_reaches c).trans ((lexeme_reaches file inside).mono (Nat.zero_le 1))
      exact ⟨depth', c', onward.trans reaches, rest⟩

theorem lexeme_solid (file : Nat) (c : Cursor) : (lexeme file c).1.kind.isLayout = false := by
  have plain {l : Lexeme} (plain : isPlain l = true) : l.kind.isLayout = false := by
    have newLine := kind_ne_of_plain plain (k := .newLine) rfl
    have indent := kind_ne_of_plain plain (k := .indent) rfl
    have dedent := kind_ne_of_plain plain (k := .dedent) rfl
    exact Kind.isLayout.eq_4 _ newLine indent dedent
  cases lexeme_readBy file c with
  | word _ read => exact read ▸ plain (word_plain file c)
  | operator read => exact read ▸ plain (operator_plain file c)
  | number _ _ read =>
    rw [read]
    obtain kind | kind | kind := number_kind file c <;> rw [kind] <;> rfl
  | string _ read =>
    rw [read]
    obtain kind | kind := @stringBody_kind file c.off (c.rest.drop 1) 0 (c.off + 1) [] none
    · exact congrArg Kind.isLayout kind
    · exact congrArg Kind.isLayout kind

/-- The lexemes of a line break are an error, if the line is uneven, the break itself and where it leads. -/
theorem lineBreak_parts (file depth : Nat) (c : Cursor) : ∃ uneven nl deeper, (lineBreak file depth c).1 = uneven ++ nl :: deeper ∧
    (∀ l ∈ uneven, l.kind = .invalid) ∧ nl.kind = .newLine ∧ ∀ l ∈ deeper, l.kind = .indent ∨ l.kind = .dedent := by
  refine ⟨_, _, _, rfl, fun l member => ?_, rfl, fun l member => layout_kind member⟩
  split at member
  · cases member
  · rw [List.mem_singleton.mp member]
    rfl

/-- Behind a line break that is read at a place, the run goes on where the break leads. -/
theorem Run.broken (run : Run file depth c ls) : ∀ {ms : List Lexeme}, ls = ms ++ x :: us → x.kind = .newLine →
    ∃ depth' c' deeper vs, c.Reaches c' 0 ∧ c'.rest.head? = some 0x0A ∧ us = deeper ++ vs ∧
      (∀ l ∈ deeper, l.kind = .indent ∨ l.kind = .dedent) ∧
        Run file (lineBreak file depth' c').2.1 (lineBreak file depth' c').2.2 vs := by
  induction run with
  | @stop depth c atEnd =>
    intro ms whole isBreak
    have member : x ∈ layout file depth 0 (skipTrivia c).off ++ [endOfFile file (skipTrivia c).off] := by
      rw [whole]
      simp
    obtain deeper | stop := List.mem_append.mp member
    · obtain kind | kind := layout_kind deeper <;> rw [kind] at isBreak <;> cases isBreak
    · rw [List.mem_singleton.mp stop] at isBreak
      cases isBreak
  | @line depth c ls atBreak more ih =>
    intro ms whole isBreak
    have inside : (skipTrivia c).rest ≠ [] := fun none => by simp [none] at atBreak
    have onward := (skipTrivia_reaches c).trans ((lineBreak_reaches file depth inside).mono (Nat.zero_le 1))
    obtain ⟨uneven, nl, deeper, parts, faults, -, marks⟩ := lineBreak_parts file depth (skipTrivia c)
    rw [parts, List.append_assoc, List.cons_append] at whole
    have here : us = deeper ++ ls → ∃ depth' c' deeper vs, c.Reaches c' 0 ∧ c'.rest.head? = some 0x0A ∧ us = deeper ++ vs ∧
        (∀ l ∈ deeper, l.kind = .indent ∨ l.kind = .dedent) ∧
          Run file (lineBreak file depth' c').2.1 (lineBreak file depth' c').2.2 vs := fun behind =>
      ⟨depth, skipTrivia c, deeper, ls, skipTrivia_reaches c, atBreak, behind, marks, more⟩
    obtain ⟨above, rfl, later⟩ | ⟨above, broken, later⟩ := List.append_eq_append_iff.mp whole
    · cases above with
      | nil => exact here (List.cons.inj later).2.symm
      | cons y above =>
        obtain ⟨-, behind⟩ := List.cons.inj later
        obtain ⟨below, rfl, there⟩ | ⟨below, broken, there⟩ := List.append_eq_append_iff.mp behind
        · obtain ⟨depth', c', deeper, vs, reaches, rest⟩ := ih there isBreak
          exact ⟨depth', c', deeper, vs, onward.trans reaches, rest⟩
        · cases below with
          | nil =>
            obtain ⟨depth', c', deeper, vs, reaches, rest⟩ := @ih [] there.symm isBreak
            exact ⟨depth', c', deeper, vs, onward.trans reaches, rest⟩
          | cons z below =>
            obtain ⟨rfl, -⟩ := List.cons.inj there
            obtain kind | kind := marks x (broken ▸ List.mem_append_right _ (List.mem_cons_self ..)) <;>
              rw [kind] at isBreak <;> cases isBreak
    · cases above with
      | nil => exact here (List.cons.inj later).2
      | cons y above =>
        obtain ⟨rfl, -⟩ := List.cons.inj later
        rw [faults x (broken ▸ List.mem_append_right ms (List.mem_cons_self ..))] at isBreak
        cases isBreak
  | @piece depth c ls inside inLine more ih =>
    intro ms whole isBreak
    cases ms with
    | nil =>
      obtain ⟨rfl, rfl⟩ := List.cons.inj whole
      have plain := lexeme_solid file (skipTrivia c)
      rw [isBreak] at plain
      cases plain
    | cons y ms =>
      obtain ⟨-, later⟩ := List.cons.inj whole
      obtain ⟨depth', c', deeper, vs, reaches, rest⟩ := ih later isBreak
      have onward := (skipTrivia_reaches c).trans ((lexeme_reaches file inside).mono (Nat.zero_le 1))
      exact ⟨depth', c', deeper, vs, onward.trans reaches, rest⟩

/-- What is left starts a line, after white space. -/
def StartsLine (bs rest : Bytes) : Prop := ∃ above blanks, bs = above ++ 0x0A :: (blanks ++ rest) ∧ ∀ b ∈ blanks, isBlank b = true

theorem StartsLine.cons {bs rest : Bytes} (b : UInt8) (starts : StartsLine bs rest) : StartsLine (b :: bs) rest := by
  obtain ⟨above, blanks, rfl, blank⟩ := starts
  exact ⟨b :: above, blanks, rfl, blank⟩

theorem StartsLine.blank {bs rest : Bytes} {b : UInt8} (isBlank' : isBlank b = true) (starts : StartsLine (0x0A :: bs) rest) :
    StartsLine (0x0A :: b :: bs) rest := by
  obtain ⟨above, blanks, split, blank⟩ := starts
  cases above with
  | nil =>
    obtain ⟨-, rfl⟩ := List.cons.inj split
    exact ⟨[], b :: blanks, rfl, List.forall_mem_cons.mpr ⟨isBlank', blank⟩⟩
  | cons a above =>
    obtain ⟨rfl, rfl⟩ := List.cons.inj split
    exact ⟨0x0A :: b :: above, blanks, rfl, blank⟩

/-- Where the next line with content is found, it starts a line. -/
theorem lineHead_starts (width start off : Nat) (bs : Bytes) : (lineHead width start off bs).cursor.rest ≠ [] →
    StartsLine (0x0A :: bs) (lineHead width start off bs).cursor.rest := by
  refine lineHead.induct
    (fun width start off bs => (lineHead width start off bs).cursor.rest ≠ [] →
      StartsLine (0x0A :: bs) (lineHead width start off bs).cursor.rest)
    (fun start off bs => (commentLine start off bs).cursor.rest ≠ [] →
      StartsLine bs (commentLine start off bs).cursor.rest)
    ?_ ?_ ?_ ?_ ?_ ?_ ?_ ?_ ?_ ?_ width start off bs
  · exact fun _ _ _ inside => absurd rfl inside
  · intro _ _ _ _ ih inside
    simp only [lineHead] at inside ⊢
    exact (ih inside).blank rfl
  · intro _ _ _ _ ih inside
    simp only [lineHead] at inside ⊢
    exact (ih inside).blank rfl
  · intro _ _ _ _ ih inside
    simp only [lineHead] at inside ⊢
    exact (ih inside).blank rfl
  · intro _ _ _ _ ih inside
    simp only [lineHead] at inside ⊢
    exact (ih inside).cons _
  · intro _ _ _ _ ih inside
    simp only [lineHead] at inside ⊢
    exact (((ih inside).cons _).cons _).cons _
  · intro width start off b rest notSpace notTab notReturn notBreak notComment _
    rw [lineHead.eq_7 _ _ _ _ _ notSpace notTab notReturn notBreak notComment]
    exact ⟨[], [], rfl, List.forall_mem_nil _⟩
  · exact fun _ _ inside => absurd rfl inside
  · intro _ _ _ ih inside
    simp only [commentLine] at inside ⊢
    exact ih inside
  · intro start off b rest notBreak ih inside
    rw [commentLine.eq_3 _ _ _ _ notBreak] at inside ⊢
    exact (ih inside).cons _

theorem Run.first_indent (run : Run file depth c (l :: ls)) : l.kind ≠ .indent := by
  intro isIndent
  generalize whole : l :: ls = all at run
  cases run with
  | stop =>
    cases depth with
    | zero =>
      obtain ⟨rfl, -⟩ := List.cons.inj whole
      cases isIndent
    | succ depth =>
      obtain ⟨rfl, -⟩ := List.cons.inj whole
      cases isIndent
  | line =>
    obtain ⟨uneven, nl, deeper, parts, faults, isBreak, -⟩ := lineBreak_parts file depth (skipTrivia c)
    rw [parts, List.append_assoc, List.cons_append] at whole
    cases uneven with
    | nil =>
      obtain ⟨rfl, -⟩ := List.cons.inj whole
      rw [isIndent] at isBreak
      cases isBreak
    | cons y uneven =>
      obtain ⟨rfl, -⟩ := List.cons.inj whole
      rw [faults l (List.mem_cons_self ..)] at isIndent
      cases isIndent
  | piece =>
    obtain ⟨rfl, -⟩ := List.cons.inj whole
    have plain := lexeme_solid file (skipTrivia c)
    rw [isIndent] at plain
    cases plain

theorem span_of_inline (inline : isInline (lexeme file c).1.kind = true) :
    (lexeme file c).1.span = ⟨file, c.off, (lexeme file c).2.off⟩ := by
  have span := (lexeme_covers file c).span
  generalize lexeme file c = read at inline span
  obtain ⟨_ | _, _⟩ := read
  · exact span _ rfl
  · cases inline

end Blanks

end Lexer

/-! ## Spaces between tokens -/

/-- What the source says around the tokens, if one looks past the white space of the line. -/
structure Spaced (source : Bytes) (ts : List Lexeme) : Prop where
  /-- The tokens stand in their order. -/
  ordered : ts.Pairwise fun l m => l.span.start ≤ m.span.start
  /-- An `else` or a colon stands before an `if` on the same line. -/
  beside {l m : Lexeme} (adjacent : [l, m] <:+: ts) (known : l.kind = .kwElse ∨ l.kind = .colon) (isIf : m.kind = .kwIf) :
    Printer.elseOnLine source m.span.start = (l.kind == .kwElse)
  /-- Nothing stands before an `if` on the first line of a body. -/
  below {l m x : Lexeme} (adjacent : [x, l, m] <:+: ts) (isBreak : x.kind = .newLine) (isIndent : l.kind = .indent)
    (isIf : m.kind = .kwIf) : Printer.elseOnLine source m.span.start = false
  /-- A brace or a colon stands behind a name. -/
  ahead {l m : Lexeme} (adjacent : [l, m] <:+: ts) (isName : l.kind = .ident) (known : m.kind = .lbrace ∨ m.kind = .colon) :
    Printer.opensBrace source l.span.stop = (m.kind == .lbrace)

namespace Spaced

variable {source : Bytes} {l : Lexeme} {ts us : List Lexeme}

theorem of_infix (spaced : Spaced source ts) (part : us <:+: ts) : Spaced source us where
  ordered := spaced.ordered.sublist part.sublist
  beside adjacent := spaced.beside (adjacent.trans part)
  below adjacent := spaced.below (adjacent.trans part)
  ahead adjacent := spaced.ahead (adjacent.trans part)

theorem left (spaced : Spaced source (ts ++ us)) : Spaced source ts := spaced.of_infix (List.prefix_append ts us).isInfix

theorem right (spaced : Spaced source (ts ++ us)) : Spaced source us := spaced.of_infix (List.suffix_append ts us).isInfix

theorem tail (spaced : Spaced source (l :: ts)) : Spaced source ts := spaced.of_infix (List.suffix_cons l ts).isInfix

end Spaced

namespace Lexer

variable {source : Bytes} {file depth : Nat} {c : Cursor} {l m x : Lexeme} {ls : List Lexeme}

/-- Two tokens of a line, and the white space between them. -/
theorem Run.pair (run : Run file depth c ls) (here : c.At source) (adjacent : [l, m] <:+: ls) (first : isInline l.kind = true)
    (second : isInline m.kind = true) : ∃ before text gap rest, source = before ++ text ++ gap ++ rest ∧
      (∀ b ∈ gap, isBlank b = true) ∧ l.span.stop = (before ++ text).length ∧ m.span.start = (before ++ text ++ gap).length ∧
        (∀ s ∈ spelling? l.kind, s = text) ∧ ∀ s ∈ spelling? m.kind, s <+: rest := by
  obtain ⟨ms, us, rfl⟩ := adjacent
  have shape : ms ++ [l, m] ++ us = ms ++ l :: m :: us := by rw [List.append_assoc, List.cons_append, List.singleton_append]
  obtain ⟨depth', c', reaches, inside, rfl, more⟩ := run.inline shape first
  obtain ⟨before, place, whole⟩ := here.reaches reaches
  have bytes := lexeme_bytes file c'
  have span := span_of_inline first
  obtain ⟨k, -, bound, there⟩ := lexeme_reaches file inside
  obtain ⟨gap, tail, split, blank, -, rfl, -⟩ := more.first second
  have start := congrArg Span.start (span_of_inline second)
  have next := lexeme_bytes file ⟨(lexeme file c').2.off + gap.length, tail⟩
  have length : (c'.rest.take k).length = k := List.length_take_of_le bound
  rw [there, Cursor.advance] at split
  have parted : c'.rest = c'.rest.take k ++ (gap ++ tail) := by rw [← split, List.take_append_drop]
  refine ⟨before, c'.rest.take k, gap, tail, ?_, blank, ?_, ?_, fun s known => ?_, fun s known => ?_⟩
  · rw [← whole, parted]
    simp only [List.append_assoc, List.take_left' length]
  · rw [span, there, List.length_append, length, place]
    rfl
  · rw [start, there, List.length_append, List.length_append, length, place]
    rfl
  · have spelled := bytes s known
    rw [there, Cursor.advance, split] at spelled
    exact List.append_cancel_right (spelled.symm.trans parted)
  · exact ⟨_, (next s known).symm⟩

/-- The first token of a body, and the white space before it on its line. -/
theorem Run.body (run : Run file depth c ls) (here : c.At source) (adjacent : [x, l, m] <:+: ls) (isBreak : x.kind = .newLine)
    (isIndent : l.kind = .indent) (inline : isInline m.kind = true) : ∃ above gap rest, source = above ++ [0x0A] ++ gap ++ rest ∧
      (∀ b ∈ gap, isBlank b = true) ∧ m.span.start = (above ++ [0x0A] ++ gap).length := by
  obtain ⟨ms, us, rfl⟩ := adjacent
  have order : ms ++ [x, l, m] ++ us = ms ++ x :: l :: m :: us := by simp only [List.append_assoc, List.cons_append, List.nil_append]
  obtain ⟨depth', c', deeper, vs, reaches, atBreak, behind, marks, more⟩ := run.broken order isBreak
  -- The indent is all that the line break leads to, since a run starts with no indent.
  obtain ⟨rfl, rfl⟩ : deeper = [l] ∧ vs = m :: us := by
    match deeper, behind, marks with
    | [], behind, _ =>
      obtain rfl : l :: m :: us = vs := behind
      exact absurd isIndent more.first_indent
    | [_], behind, _ =>
      obtain ⟨rfl, rfl⟩ := List.cons.inj behind
      exact ⟨rfl, rfl⟩
    | _ :: y :: _, behind, marks =>
      obtain ⟨-, behind⟩ := List.cons.inj behind
      obtain ⟨rfl, -⟩ := List.cons.inj behind
      obtain kind | kind := marks m (List.mem_cons_of_mem _ (List.mem_cons_self ..)) <;> rw [kind] at inline <;> cases inline
  obtain ⟨bs, shape⟩ := List.head?_eq_some_iff.mp atBreak
  obtain ⟨before, place, whole⟩ := here.reaches reaches
  have inside : c'.rest ≠ [] := by simp [shape]
  have later := here.reaches (reaches.trans (lineBreak_reaches file depth' inside))
  obtain ⟨gap, tail, split, blank, some, rfl, -⟩ := more.first inline
  have start := congrArg Span.start (span_of_inline inline)
  have starts : StartsLine c'.rest (lineBreak file depth' c').2.2.rest := by
    have found := lineHead_starts 0 (c'.off + 1) (c'.off + 1) bs
    simp only [lineBreak, lineTo, shape, List.drop_one, List.tail_cons] at split ⊢
    refine found ?_
    rw [split]
    exact List.append_ne_nil_of_right_ne_nil gap some
  obtain ⟨above, blanks, parted, blank'⟩ := starts
  obtain ⟨before', place', whole'⟩ := later
  have same : before' = before ++ above ++ [0x0A] ++ blanks := by
    refine List.append_cancel_right (whole'.trans ?_)
    rw [← whole, parted]
    simp only [List.append_assoc, List.cons_append, List.nil_append]
  refine ⟨before ++ above, blanks ++ gap, tail, ?_, List.forall_mem_append.mpr ⟨blank', blank⟩, ?_⟩
  · rw [← whole', split, same]
    simp only [List.append_assoc]
  · rw [start, ← place', same]
    simp only [List.length_append, Nat.add_assoc]

/-- The tokens of a source, if none of its lexemes is an error. -/
theorem lexemes_spaced {ts : List Lexeme} (part : ts <+: lexemes file source) (proper : ∀ l ∈ ts, l.kind ≠ .invalid) :
    Spaced source ts := by
  have run : Run file 0 ⟨0, source⟩ (lexemes file source) := lexemesFrom_run file (Nat.lt_succ_self _)
  have here : Cursor.At source ⟨0, source⟩ := ⟨[], rfl, rfl⟩
  refine ⟨?_, ?_, ?_, ?_⟩
  · have places := lexemes_tokensOf file source
    have ordered := (List.pairwise_filterMap.mp places.ordered).sublist part.sublist
    refine ordered.imp_of_mem fun {l m} first second apart => ?_
    obtain ⟨t, rfl⟩ : ∃ t, l = .token t := by
      cases l with
      | token t => exact ⟨t, rfl⟩
      | error => exact absurd rfl (proper _ first)
    obtain ⟨u, rfl⟩ : ∃ t, m = .token t := by
      cases m with
      | token t => exact ⟨t, rfl⟩
      | error => exact absurd rfl (proper _ second)
    have within := places.within t (List.mem_filterMap.mpr ⟨.token t, part.subset first, rfl⟩)
    exact Nat.le_trans within.1 (apart t rfl u rfl)
  · intro l m adjacent known isIf
    have first : isInline l.kind = true := by
      obtain kind | kind := known <;> rw [kind] <;> rfl
    obtain ⟨before, text, gap, rest, whole, blank, -, start, spelled, -⟩ :=
      run.pair here (adjacent.trans part.isInfix) first (by rw [isIf]; rfl)
    have place : source.take m.span.start = before ++ text ++ gap := by rw [whole, start, List.take_left]
    obtain isElse | isColon := known
    · obtain rfl := spelled (utf8 "else") (by rw [isElse]; rfl)
      rw [Printer.elseOnLine_word place blank, isElse]
      rfl
    · obtain rfl := spelled [0x3A] (by rw [isColon]; decide +kernel)
      rw [Printer.elseOnLine_other (b := 0x3A) place blank rfl (by decide), isColon]
      rfl
  · intro l m x adjacent isBreak isIndent isIf
    obtain ⟨above, gap, rest, whole, blank, start⟩ :=
      run.body here (adjacent.trans part.isInfix) isBreak isIndent (by rw [isIf]; rfl)
    have place : source.take m.span.start = above ++ [0x0A] ++ gap := by rw [whole, start, List.take_left]
    exact Printer.elseOnLine_other (b := 0x0A) place blank rfl (by decide)
  · intro l m adjacent isName known
    have second : isInline m.kind = true := by
      obtain kind | kind := known <;> rw [kind] <;> rfl
    obtain ⟨before, text, gap, rest, whole, blank, stop, -, -, ahead⟩ :=
      run.pair here (adjacent.trans part.isInfix) (by rw [isName]; rfl) second
    obtain isBrace | isColon := known
    · obtain ⟨tail, rfl⟩ := ahead [0x7B] (by rw [isBrace]; decide +kernel)
      have place : source.drop l.span.stop = gap ++ 0x7B :: tail := by
        rw [whole, stop, List.append_assoc, List.drop_left]
        rfl
      rw [Printer.opensBrace_gap place blank rfl, isBrace]
      rfl
    · obtain ⟨tail, rfl⟩ := ahead [0x3A] (by rw [isColon]; decide +kernel)
      have place : source.drop l.span.stop = gap ++ 0x3A :: tail := by
        rw [whole, stop, List.append_assoc, List.drop_left]
        rfl
      rw [Printer.opensBrace_gap place blank rfl, isColon]
      rfl

end Lexer
end PineLang
