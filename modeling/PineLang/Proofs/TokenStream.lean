import PineLang.Proofs.LineBounds
import PineLang.Proofs.SpelledTokens

/-!
The tokens of any source. A lexer that is called again and again gives the lexemes of its source one by one and then
nothing, unless it looks ahead from the last offset of 32 bits (`answer_eq`): a call on a stream gives the first
lexeme of what the stream holds (`Stream.next_holds`). Among the lexemes is one end of file, the last of all; indents
and dedents are balanced; and the spans of the tokens follow one another in the source (`token_stream`). An error
takes the place of a token and disturbs none of this.
-/
namespace PineLang

/-- The token, if the lexeme is one. -/
def Lexeme.token? : Lexeme → Option Token
  | .token t => some t
  | .error _ _ => none

/-- A whole number, or what would be one if its value were not too great. -/
def Lexeme.isWhole : Lexeme → Bool
  | .token t => t.kind == .intLit
  | .error e _ => match e.fault with
    | .integerOverflow _ => true
    | _ => false

/-- A whole number up to the last offset of 32 bits, from which the lexer looks ahead in vain. -/
def Lexeme.brims (l : Lexeme) : Bool := l.isWhole && l.toToken.span.stop == 0xFFFFFFFF

theorem Lexeme.not_brims {l : Lexeme} (other : l.isWhole = false) : l.brims = false := by
  rw [brims, other, Bool.false_and]

namespace Lexer
open Text (decodeHead)

/-! ## Runs -/

/-- The end of file. -/
def endOfFile (file off : Nat) : Lexeme := .token ⟨.eof, .point file off, "", .none⟩

/-- The lexemes from a place on, at a depth, as the source gives them: the end of the source, a line break, or
    a piece of the line. -/
inductive Run (file : Nat) : Nat → Cursor → List Lexeme → Prop
  | stop {depth : Nat} {c : Cursor} (atEnd : (skipTrivia c).rest = []) :
    Run file depth c (layout file depth 0 (skipTrivia c).off ++ [endOfFile file (skipTrivia c).off])
  | line {depth : Nat} {c : Cursor} {ls : List Lexeme} (atBreak : (skipTrivia c).rest.head? = some 0x0A)
      (more : Run file (lineBreak file depth (skipTrivia c)).2.1 (lineBreak file depth (skipTrivia c)).2.2 ls) :
    Run file depth c ((lineBreak file depth (skipTrivia c)).1 ++ ls)
  | piece {depth : Nat} {c : Cursor} {ls : List Lexeme} (inside : (skipTrivia c).rest ≠ [])
      (inLine : (skipTrivia c).rest.head? ≠ some 0x0A) (more : Run file depth (lexeme file (skipTrivia c)).2 ls) :
    Run file depth c ((lexeme file (skipTrivia c)).1 :: ls)

theorem lexemesFrom_run (file : Nat) : ∀ {n depth : Nat} {c : Cursor}, c.rest.length < n →
    Run file depth c (lexemesFrom file n depth c)
  | 0, _, _, room => absurd room (Nat.not_lt_zero _)
  | n + 1, depth, c, room => by
    have trivia := (skipTrivia_reaches c).length
    unfold lexemesFrom
    simp only
    split
    · next atEnd => exact .stop atEnd
    · next tail atBreak =>
      have shorter := (lineBreak_reaches file depth (c := skipTrivia c) (by simp [atBreak])).length
      exact .line (by simp [atBreak]) (lexemesFrom_run file (by omega))
    · next inside other =>
      have shorter := (lexeme_reaches file (c := skipTrivia c) inside).length
      refine .piece inside ?_ (lexemesFrom_run file (by omega))
      intro head
      obtain ⟨tail, shape⟩ := List.head?_eq_some_iff.mp head
      exact other tail shape

/-- A source has one run. -/
theorem Run.unique {file depth : Nat} {c : Cursor} {ls ms : List Lexeme} (first : Run file depth c ls)
    (second : Run file depth c ms) : ls = ms := by
  induction first generalizing ms with
  | stop atEnd =>
    cases second with
    | stop => rfl
    | line atBreak => simp [atEnd] at atBreak
    | piece inside => exact absurd atEnd inside
  | line atBreak more ih =>
    cases second with
    | stop atEnd => simp [atEnd] at atBreak
    | line _ more' => rw [ih more']
    | piece _ inLine => exact absurd atBreak inLine
  | piece inside inLine more ih =>
    cases second with
    | stop atEnd => exact absurd atEnd inside
    | line atBreak => exact absurd atBreak inLine
    | piece _ _ more' => rw [ih more']

/-! ## What a piece and a line break give -/

/-- An indent, a dedent or the end of file: what stands for no bytes. -/
def isMark (k : Kind) : Bool := k == .indent || k == .dedent || k == .eof

theorem isEnd_of_mark {l : Lexeme} (plain : isMark l.toToken.kind = false) : isEnd l = false := by
  simp only [isMark, Bool.or_eq_false_iff] at plain
  exact plain.2

/-- What is read between two places of a line is no mark, and covers the bytes between them if it is a token. -/
structure Covers (file start : Nat) (read : Lexeme × Cursor) : Prop where
  plain : isMark read.1.toToken.kind = false
  span : ∀ t, read.1.token? = some t → t.span = ⟨file, start, read.2.off⟩

namespace Covers

variable {file start : Nat}

theorem error (e : LexError) (earlier : Option LexError) (c : Cursor) : Covers file start (.error e earlier, c) := by
  refine ⟨rfl, fun t none => ?_⟩
  cases none

theorem token {k : Kind} {c : Cursor} (plain : isMark k = false) (text : String) (payload : Payload) :
    Covers file start (.token ⟨k, ⟨file, start, c.off⟩, text, payload⟩, c) := by
  refine ⟨plain, fun t known => ?_⟩
  cases known
  rfl

/-- A token over the next bytes. -/
theorem taking {k : Kind} (plain : isMark k = false) (c : Cursor) (n : Nat) (text : String) (payload : Payload) :
    Covers file c.off (.token ⟨k, c.span file n, text, payload⟩, c.advance n) :=
  token (c := c.advance n) plain text payload

end Covers

theorem unexpected_covers (file : Nat) (c : Cursor) : Covers file c.off (unexpected file c) := .error _ _ _

theorem not_mark_of_fixed {k : Kind} (fixed : isFixed k = true) : isMark k = false := by
  cases k <;> first | rfl | cases fixed

theorem word_covers (file : Nat) (c : Cursor) : Covers file c.off (word file c) := by
  unfold word
  simp only
  split
  · refine Covers.taking ?_ _ _ _ _
    obtain isName | ⟨fixed, -⟩ := wordKind_cases
      (wordText (c.rest.take ((decodeHead c.rest).2 + nameExtent 0 (c.rest.drop (decodeHead c.rest).2))))
    · rw [isName]
      rfl
    · exact not_mark_of_fixed fixed
  · exact unexpected_covers file c

theorem number_covers (file : Nat) (c : Cursor) : Covers file c.off (number file c) := by
  by_cases whole : fractionRun c.rest = []
  · rw [number_int whole]
    simp only
    split
    · exact .taking rfl _ _ _ _
    · exact .error _ _ _
  · rw [number_float whole]
    simp only
    split
    · exact .taking rfl _ _ _ _
    · exact .error _ _ _

theorem operator_covers (file : Nat) (c : Cursor) : Covers file c.off (operator file c) := by
  unfold operator
  split
  · next k found =>
    refine Covers.taking ?_ _ _ _ _
    unfold operator? at found
    split at found <;> cases found <;> rfl
  · exact unexpected_covers file c

theorem stringBody_covers {file start : Nat} : ∀ (bs : Bytes) (skip off : Nat) (text : List Char) (bad : Option LexError),
    Covers file start (stringBody file start skip off text bad bs)
  | [], _, _, _, _ => .error _ _ _
  | b :: rest, k + 1, off, text, bad => stringBody_covers rest k (off + 1) text bad
  | b :: rest, 0, off, text, bad => by
    rw [stringBody.eq_def]
    simp only
    split
    · exact .error _ _ _
    · split
      · split
        · exact .error _ _ _
        · exact .token (c := ⟨off + 1, rest⟩) rfl _ _
      · split
        · cases rest with
          | nil => exact .error _ _ _
          | cons e rest' =>
            simp only
            split
            · exact .error _ _ _
            · split
              · exact stringBody_covers rest' _ _ _ _
              · exact stringBody_covers rest' _ _ _ _
        · exact stringBody_covers rest _ _ _ _

theorem lexeme_covers (file : Nat) (c : Cursor) : Covers file c.off (lexeme file c) := by
  cases lexeme_readBy file c with
  | word _ read => exact read ▸ word_covers file c
  | number _ _ read => exact read ▸ number_covers file c
  | string _ read => exact read ▸ stringBody_covers _ _ _ _ _
  | operator read => exact read ▸ operator_covers file c

/-- The lexeme may wait in a queue: it is neither the end of file nor a whole number. -/
def Waits (l : Lexeme) : Prop := isEnd l = false ∧ l.isWhole = false

theorem layout_waits (file old new off : Nat) : ∀ l ∈ layout file old new off, Waits l := by
  intro l member
  unfold layout at member
  split at member <;> rw [List.eq_of_mem_replicate member] <;> exact ⟨rfl, rfl⟩

theorem lineBreak_waits (file depth : Nat) (c : Cursor) : ∀ l ∈ (lineBreak file depth c).1, Waits l := by
  intro l member
  obtain inUneven | inRest := List.mem_append.mp member
  · split at inUneven
    · cases inUneven
    · rw [List.mem_singleton.mp inUneven]
      exact ⟨rfl, rfl⟩
  · obtain rfl | inLayout := List.mem_cons.mp inRest
    · exact ⟨rfl, rfl⟩
    · exact layout_waits _ _ _ _ l inLayout

theorem lineBreak_ne_nil (file depth : Nat) (c : Cursor) : (lineBreak file depth c).1 ≠ [] :=
  List.append_ne_nil_of_right_ne_nil _ (List.cons_ne_nil _ _)

/-! ## Looking ahead -/

/-- The source of the place is shorter than `2 ^ 32` bytes. -/
def Cursor.Short (c : Cursor) : Prop := c.off + c.rest.length < 0x100000000

theorem Cursor.short_start {source : Bytes} (short : source.length < 0x100000000) : Short ⟨0, source⟩ := by
  simpa [Short] using short

theorem Cursor.Reaches.off {c c' : Cursor} {n : Nat} (reaches : c.Reaches c' n) :
    c.off ≤ c'.off ∧ c'.off + c'.rest.length = c.off + c.rest.length := by
  obtain ⟨k, -, bound, rfl⟩ := reaches
  simp only [Cursor.advance, List.length_drop]
  omega

theorem Cursor.Reaches.short {c c' : Cursor} {n : Nat} (reaches : c.Reaches c' n) (short : c.Short) : c'.Short := by
  rw [Cursor.Short, reaches.off.2]
  exact short

/-- The first two bytes, if there are two. -/
def twoBytes : Bytes → Option (UInt8 × UInt8)
  | a :: b :: _ => some (a, b)
  | _ => none

section Looks

variable {c : Cursor} (short : c.Short)
include short

theorem peek2_eq : c.peek2 = if c.off = 0xFFFFFFFF then .error .index else .ok (twoBytes c.rest) := by
  obtain ⟨off, rest⟩ := c
  simp only [Cursor.Short] at short
  split
  · next last =>
    obtain rfl : off = 0xFFFFFFFF := last
    obtain rfl : rest = [] := List.eq_nil_of_length_eq_zero (by omega)
    rfl
  · next before =>
    have counted : (off + 1) % 0x100000000 = off + 1 := Nat.mod_eq_of_lt (by have : off ≠ 0xFFFFFFFF := before; omega)
    simp only [Cursor.peek2, counted]
    obtain _ | ⟨a, _ | ⟨b, tail⟩⟩ := rest
    · exact if_pos (Nat.le_succ off)
    · exact if_pos (Nat.le_refl _)
    · exact if_neg (by simp)

variable (inside : c.rest ≠ [])
include inside

theorem peek2_inside : c.peek2 = .ok (twoBytes c.rest) := by
  have some := List.length_pos_iff.mpr inside
  have before : c.off ≠ 0xFFFFFFFF := by
    unfold Cursor.Short at short
    omega
  rw [peek2_eq short, if_neg before]

end Looks

section Passes

variable {c : Cursor}

theorem passComment_eq (short : c.Short) :
    passComment c = .ok (if startsComment c.rest then c.advance (lineExtent c.rest) else c) := by
  unfold passComment
  obtain ⟨off, rest⟩ := c
  cases rest with
  | nil => rfl
  | cons a tail =>
    rw [peek2_inside short (List.cons_ne_nil a tail)]
    by_cases slash : a = 0x2F
    · subst slash
      cases tail with
      | nil => rfl
      | cons b tail =>
        by_cases again : b = 0x2F
        · subst again
          rfl
        · simp [Except.map, twoBytes, startsComment, again]
    · simp [startsComment, slash]

theorem passTrivia_eq (short : c.Short) : passTrivia c = .ok (skipTrivia c) :=
  passComment_eq ((Cursor.Reaches.of_advance (List.takeWhile_prefix _).length_le).short short)

theorem drop_takeWhile {p : UInt8 → Bool} (bs : Bytes) : bs.drop (bs.takeWhile p).length = bs.dropWhile p := by
  rw [List.takeWhile_eq_take_findIdx_not, List.dropWhile_eq_drop_findIdx_not, List.length_take_of_le List.findIdx_le_length]

theorem commentLine_pass (start : Nat) : ∀ (text : Bytes) (off : Nat), commentLine start off text =
    match text.drop (lineExtent text) with
    | [] => ⟨0, start, ⟨off + lineExtent text, []⟩⟩
    | _ :: rest => lineHead 0 (off + lineExtent text + 1) (off + lineExtent text + 1) rest
  | [], off => rfl
  | b :: text, off => by
    by_cases atBreak : b = 0x0A
    · subst atBreak
      rfl
    · have extent : lineExtent (b :: text) = lineExtent text + 1 := by simp [lineExtent, atBreak]
      rw [commentLine.eq_3 _ _ _ _ atBreak, commentLine_pass start text (off + 1), extent, List.drop_succ_cons,
        Nat.add_right_comm, Nat.add_assoc off]

/-- What stands behind the white space of a line: the end of the source, a line break, a comment, or content. -/
inductive Behind : Bytes → Prop
  | stop : Behind []
  | line (rest : Bytes) : Behind (0x0A :: rest)
  | comment (text : Bytes) : Behind (0x2F :: 0x2F :: text)
  | content {b : UInt8} {rest : Bytes} (plain : startsComment (b :: rest) = false) (inLine : b ≠ 0x0A)
      (head : ∀ width start off, lineHead width start off (b :: rest) = ⟨width, start, ⟨off, b :: rest⟩⟩) : Behind (b :: rest)

theorem behind_of_solid : ∀ {bs : Bytes}, (∀ b ∈ bs.head?, isBlank b = false) → Behind bs
  | [], _ => .stop
  | b :: rest, solid => by
    have notBlank := solid b rfl
    by_cases atBreak : b = 0x0A
    · subst atBreak
      exact .line rest
    by_cases comment : startsComment (b :: rest) = true
    · unfold startsComment at comment
      split at comment
      · next text shape =>
        rw [shape]
        exact .comment text
      · cases comment
    · have plain : startsComment (b :: rest) = false := by simpa using comment
      have other {d : UInt8} (blank : isBlank d = true) : b = d → False := by
        rintro rfl
        rw [blank] at notBlank
        cases notBlank
      refine .content plain atBreak fun width start off => ?_
      refine lineHead.eq_7 _ _ _ _ _ (other rfl) (other rfl) (other rfl) atBreak fun text slash shape => ?_
      rw [slash, shape] at plain
      cases plain

theorem measureIndent_spec (start : Nat) (bs : Bytes) (width off : Nat) :
    lineHead width start off bs =
      lineHead (measureIndent width off bs).1 start (measureIndent width off bs).2.off (measureIndent width off bs).2.rest ∧
    (∀ b ∈ (measureIndent width off bs).2.rest.head?, isBlank b = false) ∧
    Cursor.Reaches ⟨off, bs⟩ (measureIndent width off bs).2 0 := by
  fun_induction measureIndent width off bs with
  | case1 width off rest ih =>
    rw [lineHead]
    exact ⟨ih.1, ih.2.1, (ih.2.2.cons _).mono (Nat.zero_le 1)⟩
  | case2 width off rest ih =>
    rw [lineHead]
    exact ⟨ih.1, ih.2.1, (ih.2.2.cons _).mono (Nat.zero_le 1)⟩
  | case3 width off rest ih =>
    rw [lineHead]
    exact ⟨ih.1, ih.2.1, (ih.2.2.cons _).mono (Nat.zero_le 1)⟩
  | case4 width off bs noSpace noTab noReturn =>
    refine ⟨rfl, fun b isHead => ?_, .here⟩
    obtain ⟨rest, rfl⟩ := List.head?_eq_some_iff.mp (Option.mem_def.mp isHead)
    have space : b ≠ 0x20 := fun same => noSpace rest (same ▸ rfl)
    have tab : b ≠ 0x09 := fun same => noTab rest (same ▸ rfl)
    have carriage : b ≠ 0x0D := fun same => noReturn rest (same ▸ rfl)
    simp [isBlank, space, tab, carriage]

theorem nextLine_eq : ∀ {lines : Nat} {c : Cursor}, c.rest.length < lines → c.Short →
    nextLine lines c = .ok (lineHead 0 c.off c.off c.rest)
  | 0, _, room, _ => absurd room (Nat.not_lt_zero _)
  | lines + 1, c, room, short => by
    obtain ⟨head, solid, reaches⟩ := measureIndent_spec c.off c.rest 0 c.off
    have later {d : Cursor} {n : Nat} (some : 0 < n) (reaches : c.Reaches d n) :
        nextLine lines d = .ok (lineHead 0 d.off d.off d.rest) :=
      nextLine_eq (by have := reaches.length; omega) (reaches.short short)
    rw [nextLine, head]
    simp only [passComment_eq (reaches.short short)]
    generalize measureIndent 0 c.off c.rest = found at solid reaches
    obtain ⟨width, off, bs⟩ := found
    cases behind_of_solid solid with
    | stop => rfl
    | line rest =>
      exact later (Nat.succ_pos 0) (reaches.trans (.of_advance (n := 1) (Nat.succ_pos _)))
    | comment text =>
      have extent : lineExtent (0x2F :: 0x2F :: text) = lineExtent text + 2 := rfl
      have bound : lineExtent text ≤ text.length := (List.takeWhile_prefix _).length_le
      have ended : c.Reaches ⟨off + (lineExtent text + 2), text.drop (lineExtent text)⟩ 2 :=
        (reaches.trans (.of_advance (n := lineExtent text + 2) (by simpa using bound))).mono (by omega)
      have place : off + (lineExtent text + 2) = off + 2 + lineExtent text := by omega
      rw [lineHead, commentLine_pass]
      simp only [startsComment, if_true, Except.bind, extent, Cursor.advance, List.drop_succ_cons]
      rw [place] at ended ⊢
      cases left : text.drop (lineExtent text) with
      | nil => rfl
      | cons b rest =>
        have atBreak := List.head?_dropWhile_not (· != 0x0A) text
        rw [← drop_takeWhile, ← lineExtent, left] at atBreak
        obtain rfl : b = 0x0A := by simpa using atBreak
        rw [left] at ended
        exact later (Nat.succ_pos 2) (ended.trans (.of_advance (n := 1) (Nat.succ_pos _)))
    | @content b rest plain inLine only =>
      simp only [plain, Bool.false_eq_true, if_false, Except.bind]
      rw [only]
      split
      · next none => cases none
      · next atBreak => exact absurd (List.cons.inj atBreak).1 inLine
      · rfl

theorem scanLine_eq (short : c.Short) (inside : c.rest ≠ []) (file depth : Nat) :
    scanLine file depth c = .ok (lineBreak file depth c) := by
  obtain ⟨off, rest⟩ := c
  obtain ⟨b, tail, rfl⟩ := List.exists_cons_of_ne_nil inside
  have reaches : Cursor.Reaches ⟨off, b :: tail⟩ ⟨off + 1, tail⟩ 1 := .of_advance (n := 1) (Nat.succ_pos _)
  have found : nextLine (tail.length + 1) ⟨off + 1, tail⟩ = _ := nextLine_eq (Nat.lt_succ_self _) (reaches.short short)
  exact congrArg (Except.map (lineTo file depth ⟨off, b :: tail⟩)) found

/-- An operator has at most two bytes. -/
theorem operator?_take (bs : Bytes) : operator? (bs.take 2) = operator? bs := by
  have head {b : UInt8} (other : ∀ rest, bs = b :: rest → False) : ∀ rest, bs.take 2 = b :: rest → False := by
    intro rest shape
    obtain _ | ⟨a, tail⟩ := bs
    · cases shape
    · exact other tail (by rw [(List.cons.inj shape).1])
  have second {b : UInt8} {tail : Bytes} (other : ∀ rest, tail = b :: rest → False) : ∀ rest, tail.take 1 = b :: rest → False := by
    intro rest shape
    obtain _ | ⟨a, tail⟩ := tail
    · cases shape
    · exact other tail (by rw [(List.cons.inj shape).1])
  fun_cases operator? bs <;> try rfl
  case case14 tail other => exact operator?.eq_14 _ (second other)
  case case21 tail other => exact operator?.eq_21 _ (second other)
  case case22 tail other => exact operator?.eq_22 _ (second other)
  case case23 tail other => exact operator?.eq_23 _ (second other)
  case case24 tail other => exact operator?.eq_24 _ (second other)
  case case26 => apply operator?.eq_26 <;> first | exact head ‹_› | exact fun rest => head ‹_› _

theorem scanOperator_eq (short : c.Short) (inside : c.rest ≠ []) (file : Nat) :
    scanOperator file c = .ok (operator file c) := by
  have seen : ((twoBytes c.rest).elim (c.rest.take 1) fun two => [two.1, two.2]) = c.rest.take 2 := by
    obtain _ | ⟨a, _ | ⟨b, tail⟩⟩ := c.rest <;> rfl
  rw [scanOperator, peek2_inside short inside, operator, ← operator?_take, ← seen]
  rfl

/-- Behind a whole number that ends with the last offset, the lexer looks ahead in vain. -/
theorem scanNumber_eq (short : c.Short) (file : Nat) :
    scanNumber file c = if c.off + (digitRun c.rest).length = 0xFFFFFFFF then .error .index else .ok (number file c) := by
  have reaches := Cursor.Reaches.of_advance (digitRun_le c.rest)
  rw [scanNumber, peek2_eq (reaches.short short)]
  show Except.map _ (if c.off + (digitRun c.rest).length = 0xFFFFFFFF then _ else _) = _
  split
  · rfl
  · have next : c.rest.drop ((digitRun c.rest).length + 1) = (c.rest.drop (digitRun c.rest).length).drop 1 := by
      rw [List.drop_drop]
    refine congrArg Except.ok ?_
    unfold number
    simp only [next, Cursor.advance]
    obtain _ | ⟨b, _ | ⟨d, rest⟩⟩ := c.rest.drop (digitRun c.rest).length
    · rfl
    · by_cases point : b = 0x2E
      · subst point
        rfl
      · simp [twoBytes, point]
    · by_cases point : b = 0x2E
      · subst point
        by_cases digit : isDecimal d = true
        · simp [twoBytes, digitRun, digit]
        · simp [twoBytes, digitRun, digit]
      · simp [twoBytes, point]

/-! ### Words, signs and whole numbers -/

/-- A name or a fixed token, or a character that begins no token. -/
def isPlain : Lexeme → Bool
  | .token t => t.kind == .ident || isFixed t.kind
  | .error e _ => match e.fault with
    | .unexpectedInput _ => true
    | _ => false

theorem unexpected_plain (file : Nat) (c : Cursor) : isPlain (unexpected file c).1 = true := rfl

theorem word_plain (file : Nat) (c : Cursor) : isPlain (word file c).1 = true := by
  unfold word
  simp only
  split
  · change (wordKind (wordText _) == .ident || isFixed (wordKind (wordText _))) = true
    obtain isName | ⟨fixed, -⟩ := wordKind_cases
      (wordText (c.rest.take ((decodeHead c.rest).2 + nameExtent 0 (c.rest.drop (decodeHead c.rest).2))))
    · rw [isName]
      rfl
    · rw [fixed, Bool.or_true]
  · exact unexpected_plain file c

theorem operator_plain (file : Nat) (c : Cursor) : isPlain (operator file c).1 = true := by
  unfold operator
  split
  · next k found =>
    unfold operator? at found
    split at found <;> cases found <;> rfl
  · exact unexpected_plain file c

theorem kind_of_plain {l : Lexeme} (plain : isPlain l = true) :
    l.kind = .ident ∨ isFixed l.kind = true ∨ l.kind = .invalid := by
  cases l with
  | error e earlier => exact .inr (.inr rfl)
  | token t => exact (Bool.or_eq_true_iff.mp plain).imp eq_of_beq .inl

/-- Neither words nor signs are literals or layout. -/
theorem kind_ne_of_plain {l : Lexeme} (plain : isPlain l = true) {k : Kind}
    (other : (k == .ident || isFixed k || k == .invalid) = false) : l.kind ≠ k := by
  rintro rfl
  obtain kind | fixed | kind := kind_of_plain plain
  · rw [kind] at other
    cases other
  · rw [fixed, Bool.or_true] at other
    cases other
  · rw [kind] at other
    cases other

theorem not_whole_of_plain {l : Lexeme} (plain : isPlain l = true) : l.isWhole = false := by
  cases l with
  | token t => exact beq_false_of_ne (kind_ne_of_plain plain rfl)
  | error e earlier =>
    obtain ⟨fault, span⟩ := e
    cases fault <;> first | rfl | cases plain

theorem stringBody_whole {file start : Nat} : ∀ (bs : Bytes) (skip off : Nat) (text : List Char) (bad : Option LexError),
    (∀ e ∈ bad, (Lexeme.error e).isWhole = false) → (stringBody file start skip off text bad bs).1.isWhole = false
  | [], _, _, _, _, _ => rfl
  | b :: rest, k + 1, off, text, bad, escapes => stringBody_whole rest k (off + 1) text bad escapes
  | b :: rest, 0, off, text, bad, escapes => by
    rw [stringBody.eq_def]
    simp only
    split
    · rfl
    · split
      · cases bad with
        | none => rfl
        | some e => exact escapes e rfl
      · split
        · cases rest with
          | nil => rfl
          | cons e rest' =>
            simp only
            split
            · rfl
            · split
              · exact stringBody_whole rest' _ _ _ _ escapes
              · refine stringBody_whole rest' _ _ _ _ fun e isFirst => ?_
                cases isFirst
                cases bad with
                | none => rfl
                | some e => exact escapes e rfl
        · exact stringBody_whole rest _ _ _ _ escapes

theorem number_brims (short : c.Short) (file : Nat) :
    (number file c).1.brims = true ↔ c.off + (digitRun c.rest).length = 0xFFFFFFFF := by
  by_cases whole : fractionRun c.rest = []
  · rw [number_int whole]
    simp only
    split
    · exact beq_iff_eq
    · exact beq_iff_eq
  · have within := fractionRun_le c.rest whole
    unfold Cursor.Short at short
    rw [number_float whole]
    simp only
    refine iff_of_false ?_ (by omega)
    split
    · exact Bool.false_ne_true
    · exact Bool.false_ne_true

/-- What is read at a place is a number, or else no whole number. -/
theorem scan_cases (short : c.Short) (inside : c.rest ≠ []) (file : Nat) :
    scan file c = scanNumber file c ∧ lexeme file c = number file c ∨
      scan file c = .ok (lexeme file c) ∧ (lexeme file c).1.isWhole = false := by
  obtain ⟨off, rest⟩ := c
  obtain ⟨b, tail, rfl⟩ := List.exists_cons_of_ne_nil inside
  have plain {read : Lexeme × Cursor} (seen : scan file ⟨off, b :: tail⟩ = .ok read)
      (same : lexeme file ⟨off, b :: tail⟩ = read) (other : read.1.isWhole = false) :
      scan file ⟨off, b :: tail⟩ = .ok (lexeme file ⟨off, b :: tail⟩) ∧ (lexeme file ⟨off, b :: tail⟩).1.isWhole = false := by
    rw [same]
    exact ⟨seen, other⟩
  by_cases underscore : b = 0x5F
  · subst underscore
    have seen : scan file ⟨off, 0x5F :: tail⟩ = if (twoBytes (0x5F :: tail)).any fun two => isNameByte two.2
        then .ok (word file ⟨off, 0x5F :: tail⟩) else .ok (operator file ⟨off, 0x5F :: tail⟩) := by
      simp only [scan, peek2_inside short inside, Except.bind, scanOperator_eq short inside]
    cases tail with
    | nil => exact .inr (plain seen rfl (not_whole_of_plain (operator_plain file _)))
    | cons d ds =>
      by_cases named : isNameByte d = true
      · exact .inr (plain (seen.trans (if_pos named)) (if_pos named) (not_whole_of_plain (word_plain file _)))
      · exact .inr (plain (seen.trans (if_neg named)) (if_neg named) (not_whole_of_plain (operator_plain file _)))
  · have read := @lexeme_of_not_underscore file off b tail underscore
    have seen : scan file ⟨off, b :: tail⟩ = if isNameStartByte b || b ≥ 0x80 then .ok (word file ⟨off, b :: tail⟩)
        else if isDecimal b then scanNumber file ⟨off, b :: tail⟩
        else if b == 0x22 then .ok (string file ⟨off, b :: tail⟩) else scanOperator file ⟨off, b :: tail⟩ := by
      simp [scan]
    split at read
    · next named => exact .inr (plain (seen.trans (if_pos named)) read (not_whole_of_plain (word_plain file _)))
    next noName =>
    rw [if_neg noName] at seen
    split at read
    · next digit => exact .inl ⟨seen.trans (if_pos digit), read⟩
    next noDigit =>
    rw [if_neg noDigit] at seen
    split at read
    · next quote =>
      have noEscape : ∀ e ∈ (none : Option LexError), (Lexeme.error e).isWhole = false := by simp
      exact .inr (plain (seen.trans (if_pos quote)) read (stringBody_whole _ _ _ _ _ noEscape))
    · next noQuote =>
      rw [if_neg noQuote, scanOperator_eq short inside] at seen
      exact .inr (plain seen read (not_whole_of_plain (operator_plain file _)))

/-- A lexeme is read as it is from a source of any length, unless it is a whole number that ends with the last offset. -/
theorem scan_eq (short : c.Short) (inside : c.rest ≠ []) (file : Nat) :
    scan file c = if (lexeme file c).1.brims then .error .index else .ok (lexeme file c) := by
  obtain ⟨seen, read⟩ | ⟨seen, other⟩ := scan_cases short inside file
  · rw [seen, read, scanNumber_eq short]
    simp only [number_brims short]
  · rw [seen, Lexeme.not_brims other]
    rfl

/-- Such a number stands at the end of a source of `2 ^ 32 - 1` bytes. -/
theorem lexeme_brims (short : c.Short) (inside : c.rest ≠ []) {file : Nat} (brims : (lexeme file c).1.brims = true) :
    c.off + c.rest.length = 0xFFFFFFFF := by
  obtain ⟨-, read⟩ | ⟨-, other⟩ := scan_cases short inside file
  · rw [read, number_brims short] at brims
    have within := digitRun_le c.rest
    unfold Cursor.Short at short
    omega
  · rw [Lexeme.not_brims other] at brims
    cases brims

end Passes

/-! ## One lexeme at a time -/

namespace Stream

/-- What a stream has yet to give: nothing, when it is done; else what waits, and then what is read on from the
    cursor, or nothing if the end of file waits already. -/
inductive Holds : Stream → List Lexeme → Prop
  | ended {file depth : Nat} {c : Cursor} {queue : List Lexeme} : Holds ⟨file, c, depth, queue, true⟩ []
  | ending {file depth off : Nat} {c : Cursor} {queue : List Lexeme} (waits : ∀ l ∈ queue, Waits l) :
    Holds ⟨file, c, depth, queue ++ [endOfFile file off], false⟩ (queue ++ [endOfFile file off])
  | reading {file depth : Nat} {c : Cursor} {queue ls : List Lexeme} (waits : ∀ l ∈ queue, Waits l)
      (short : c.Short) (run : Run file depth c ls) : Holds ⟨file, c, depth, queue, false⟩ (queue ++ ls)

theorem Holds.fresh {file depth : Nat} {c : Cursor} {ls : List Lexeme} (short : c.Short) (run : Run file depth c ls) :
    Holds ⟨file, c, depth, [], false⟩ ls := by
  rw [← List.nil_append ls]
  exact .reading (List.forall_mem_nil _) short run

theorem give_cons (s : Stream) {l : Lexeme} (waits : Waits l) (rest : List Lexeme) :
    s.give (l :: rest) = (some l, { s with queue := rest }) := by
  simp [give, waits.1]

section Calls

variable {file depth : Nat} {c : Cursor}

theorem next_waiting {s : Stream} (going : s.done = false) (waits : s.queue ≠ []) : s.next = .ok (s.give s.queue) := by
  simp [next, going, waits]

variable (short : c.Short)
include short

theorem next_reading : next ⟨file, c, depth, [], false⟩ =
    match (skipTrivia c).rest with
    | [] => .ok (give ⟨file, skipTrivia c, 0, [], false⟩
        (layout file depth 0 (skipTrivia c).off ++ [endOfFile file (skipTrivia c).off]))
    | 0x0A :: _ => (scanLine file depth (skipTrivia c)).map fun (line, depth, c) => give ⟨file, c, depth, [], false⟩ line
    | _ => (scan file (skipTrivia c)).map fun (x, c) => (some x, ⟨file, c, depth, [], false⟩) := by
  simp only [next, Bool.false_eq_true, if_false, List.isEmpty_nil, Bool.not_true, passTrivia_eq short, Except.bind]
  rfl

theorem next_stop (atEnd : (skipTrivia c).rest = []) : next ⟨file, c, depth, [], false⟩ =
    .ok (give ⟨file, skipTrivia c, 0, [], false⟩
      (layout file depth 0 (skipTrivia c).off ++ [endOfFile file (skipTrivia c).off])) := by
  rw [next_reading short, atEnd]

theorem next_line (atBreak : (skipTrivia c).rest.head? = some 0x0A) : next ⟨file, c, depth, [], false⟩ =
    .ok (give ⟨file, (lineBreak file depth (skipTrivia c)).2.2, (lineBreak file depth (skipTrivia c)).2.1, [], false⟩
      (lineBreak file depth (skipTrivia c)).1) := by
  obtain ⟨tail, shape⟩ := List.head?_eq_some_iff.mp atBreak
  have inside : (skipTrivia c).rest ≠ [] := by simp [shape]
  rw [next_reading short, shape]
  simp only [scanLine_eq ((skipTrivia_reaches c).short short) inside]
  rfl

theorem next_piece (inside : (skipTrivia c).rest ≠ []) (inLine : (skipTrivia c).rest.head? ≠ some 0x0A) :
    next ⟨file, c, depth, [], false⟩ = if (lexeme file (skipTrivia c)).1.brims then .error .index
      else .ok (some (lexeme file (skipTrivia c)).1, ⟨file, (lexeme file (skipTrivia c)).2, depth, [], false⟩) := by
  rw [next_reading short]
  split
  · next atEnd => exact absurd atEnd inside
  · next shape => exact absurd (by rw [shape]; rfl) inLine
  · rw [scan_eq ((skipTrivia_reaches c).short short) inside]
    split <;> rfl

end Calls

/-- A call gives the first of some lexemes, and the others are left. -/
def Gives (s : Stream) (ls : List Lexeme) : Prop := ∃ s', s.next = .ok (ls.head?, s') ∧ s'.Holds ls.tail

theorem gives_plain {s s' : Stream} {l : Lexeme} {ls : List Lexeme} (other : l.isWhole = false)
    (given : s.next = .ok (some l, s')) (left : s'.Holds ls) :
    if (l :: ls).head?.any Lexeme.brims then s.next = .error .index else s.Gives (l :: ls) := by
  rw [List.head?_cons, Option.any_some, Lexeme.not_brims other]
  exact ⟨s', given, left⟩

/-- One call gives the first lexeme of what the stream holds, unless that is a whole number behind which it looks ahead in
    vain. -/
theorem next_holds {s : Stream} {ls : List Lexeme} (holds : s.Holds ls) :
    if ls.head?.any Lexeme.brims then s.next = .error .index else s.Gives ls := by
  cases holds with
  | ended => exact ⟨_, rfl, .ended⟩
  | @ending file depth off c queue waits =>
    have next := next_waiting (s := ⟨file, c, depth, queue ++ [endOfFile file off], false⟩) rfl (by simp)
    cases queue with
    | nil => exact gives_plain rfl next .ended
    | cons l rest =>
      obtain ⟨first, others⟩ := List.forall_mem_cons.mp waits
      rw [List.cons_append, give_cons _ first] at next
      exact gives_plain first.2 next (.ending others)
  | @reading file depth c queue ls waits short run =>
    cases queue with
    | cons l rest =>
      obtain ⟨first, others⟩ := List.forall_mem_cons.mp waits
      have next := next_waiting (s := ⟨file, c, depth, l :: rest, false⟩) rfl (List.cons_ne_nil l rest)
      rw [give_cons _ first] at next
      exact gives_plain first.2 next (.reading others short run)
    | nil =>
      have trivia := (skipTrivia_reaches c).short short
      cases run with
      | stop atEnd =>
        have next := @next_stop file depth c short atEnd
        have waits := layout_waits file depth 0 (skipTrivia c).off
        generalize layout file depth 0 (skipTrivia c).off = queue at waits next ⊢
        cases queue with
        | nil => exact gives_plain rfl next .ended
        | cons l rest =>
          obtain ⟨first, others⟩ := List.forall_mem_cons.mp waits
          rw [List.cons_append, give_cons _ first] at next
          exact gives_plain first.2 next (.ending others)
      | line atBreak more =>
        have next := @next_line file depth c short atBreak
        have inside : (skipTrivia c).rest ≠ [] := fun none => by simp [none] at atBreak
        have waits := lineBreak_waits file depth (skipTrivia c)
        obtain ⟨l, rest, shape⟩ := List.exists_cons_of_ne_nil (lineBreak_ne_nil file depth (skipTrivia c))
        rw [shape] at waits next ⊢
        obtain ⟨first, others⟩ := List.forall_mem_cons.mp waits
        rw [give_cons _ first] at next
        exact gives_plain first.2 next (.reading others ((lineBreak_reaches file depth inside).short trivia) more)
      | piece inside inLine more =>
        have next := @next_piece file depth c short inside inLine
        rw [List.nil_append, List.head?_cons, Option.any_some]
        split at next
        · next brims =>
          rw [if_pos brims]
          exact next
        · next plain =>
          rw [if_neg plain]
          exact ⟨_, next, .fresh ((lexeme_reaches file inside).short trivia) more⟩

theorem answer_error {s : Stream} {crash : Crash} (stopped : s.next = .error crash) (call : Nat) :
    s.answer call = .error crash := by
  cases call with
  | zero => exact congrArg (Except.map (·.1)) stopped
  | succ call =>
    rw [answer, after, stopped]
    rfl

/-- After a call, the next calls are those of the stream after it. -/
theorem answer_next {s s' : Stream} {l : Option Lexeme} (given : s.next = .ok (l, s')) (call : Nat) :
    s.answer (call + 1) = s'.answer call := by
  rw [answer, after, given]
  rfl

theorem answer_of_holds {s : Stream} {ls : List Lexeme} (holds : s.Holds ls) (call : Nat) :
    s.answer call = if (ls.take (call + 1)).any Lexeme.brims then .error .index else .ok ls[call]? := by
  have parts (ls : List Lexeme) (n : Nat) :
      (ls.take (n + 1)).any Lexeme.brims = (ls.head?.any Lexeme.brims || (ls.tail.take n).any Lexeme.brims) := by
    cases ls <;> simp
  induction call generalizing s ls with
  | zero =>
    have first := next_holds holds
    rw [parts, List.take_zero, List.any_nil, Bool.or_false]
    split at first
    · next brims =>
      rw [if_pos brims]
      exact answer_error first 0
    · next plain =>
      obtain ⟨s', given, -⟩ := first
      rw [if_neg plain, ← List.head?_eq_getElem?]
      exact congrArg (Except.map (·.1)) given
  | succ call ih =>
    have first := next_holds holds
    rw [parts]
    split at first
    · next brims =>
      rw [brims, answer_error first]
      rfl
    · next plain =>
      obtain ⟨s', given, left⟩ := first
      rw [eq_false_of_ne_true plain, Bool.false_or, answer_next given, ih left, List.getElem?_tail]

end Stream

/-- The calls give the lexemes of the source in their order, and then nothing, as long as no whole number ends with the
    last offset of 32 bits. -/
theorem answer_eq (file : Nat) {source : Bytes} (short : source.length < 0x100000000) (call : Nat) :
    lexerAnswer file source call = if ((lexemes file source).take (call + 1)).any Lexeme.brims then .error .index
      else .ok (lexemes file source)[call]? := by
  have fresh : Stream.Holds ⟨file, ⟨0, source⟩, 0, [], false⟩ (lexemes file source) :=
    .fresh (Cursor.short_start short) (lexemesFrom_run file (Nat.lt_succ_self _))
  rw [lexerAnswer, Stream.start, narrow, if_pos short]
  exact Stream.answer_of_holds fresh call

/-! ## Levels -/

/-- How many of the tokens are of a kind. -/
def count (k : Kind) (ts : List Token) : Nat := ts.countP (·.kind == k)

theorem count_append (k : Kind) (ts us : List Token) : count k (ts ++ us) = count k ts + count k us :=
  List.countP_append

/-- The tokens lead from one depth to another and close no level that is not open. -/
def Climbs (old new : Nat) (ts : List Token) : Prop :=
  (∀ n, count .dedent (ts.take n) ≤ old + count .indent (ts.take n)) ∧ old + count .indent ts = new + count .dedent ts

namespace Climbs

variable {old middle new : Nat} {ts us : List Token}

theorem append (first : Climbs old middle ts) (second : Climbs middle new us) : Climbs old new (ts ++ us) := by
  obtain ⟨open₁, ends₁⟩ := first
  obtain ⟨open₂, ends₂⟩ := second
  refine ⟨fun n => ?_, ?_⟩
  · rw [List.take_append, count_append, count_append]
    obtain short | long := Nat.le_total n ts.length
    · rw [Nat.sub_eq_zero_of_le short]
      exact open₁ n
    · have behind := open₂ (n - ts.length)
      rw [List.take_of_length_le long]
      omega
  · rw [count_append, count_append]
    omega

/-- A token that is neither indent nor dedent keeps the depth. -/
theorem single {t : Token} (noIndent : t.kind ≠ .indent) (noDedent : t.kind ≠ .dedent) : Climbs old old [t] := by
  have none (k : Kind) (other : t.kind ≠ k) : ∀ ts ∈ [[], [t]], count k ts = 0 := by
    simp [count, other]
  have kept (ts : List Token) (member : ts ∈ [[], [t]]) : count .dedent ts = 0 ∧ count .indent ts = 0 :=
    ⟨none _ noDedent ts member, none _ noIndent ts member⟩
  refine ⟨fun n => ?_, ?_⟩
  · rw [(kept ([t].take n) (by cases n <;> simp)).1]
    exact Nat.zero_le _
  · rw [(kept [t] (by simp)).1, (kept [t] (by simp)).2]

theorem nil : Climbs old old [] := ⟨fun n => by simp [count], rfl⟩

end Climbs

/-- The tokens among some lexemes. -/
def tokens (ls : List Lexeme) : List Token := ls.filterMap Lexeme.token?

theorem tokens_append (ls ms : List Lexeme) : tokens (ls ++ ms) = tokens ls ++ tokens ms := List.filterMap_append

/-- The tokens of a piece of a line: one that covers it, or none. -/
theorem tokens_piece {file start : Nat} {read : Lexeme × Cursor} (covers : Covers file start read) :
    tokens [read.1] = [] ∨ ∃ k text payload, isMark k = false ∧
      tokens [read.1] = [⟨k, ⟨file, start, read.2.off⟩, text, payload⟩] := by
  obtain ⟨l, c⟩ := read
  cases l with
  | error e earlier => exact .inl rfl
  | token t =>
    obtain ⟨k, span, text, payload⟩ := t
    have same : span = ⟨file, start, c.off⟩ := covers.span _ rfl
    exact .inr ⟨k, text, payload, covers.plain, by rw [← same]; rfl⟩

theorem tokens_lineBreak (file depth : Nat) (c : Cursor) : tokens (lineBreak file depth c).1 =
    ⟨.newLine, c.span file 1, "\n", .none⟩ ::
      tokens (layout file depth (lineBreak file depth c).2.1 (lineBreak file depth c).2.2.off) := by
  unfold lineBreak lineTo
  simp only [tokens_append]
  split <;> rfl

theorem tokens_layout (file old new off : Nat) : tokens (layout file old new off) =
    if old < new then List.replicate (new - old) ⟨.indent, .point file off, "", .none⟩
    else List.replicate (old - new) ⟨.dedent, .point file off, "", .none⟩ := by
  unfold layout tokens
  split
  · exact List.filterMap_replicate_of_some rfl
  · exact List.filterMap_replicate_of_some rfl

theorem count_replicate (k kind : Kind) (n : Nat) (span : Span) :
    count k (List.replicate n ⟨kind, span, "", .none⟩) = if kind == k then n else 0 := List.countP_replicate

theorem layout_climbs (file old new off : Nat) : Climbs old new (tokens (layout file old new off)) := by
  rw [tokens_layout]
  split
  · refine ⟨fun n => ?_, ?_⟩
    · rw [List.take_replicate, count_replicate]
      exact Nat.zero_le _
    · simp only [count_replicate, beq_self_eq_true, reduceCtorEq, beq_iff_eq, if_true, if_false]
      omega
  · refine ⟨fun n => ?_, ?_⟩
    · rw [List.take_replicate, count_replicate, count_replicate]
      simp only [beq_self_eq_true, reduceCtorEq, beq_iff_eq, if_true, if_false]
      omega
    · simp only [count_replicate, beq_self_eq_true, reduceCtorEq, beq_iff_eq, if_true, if_false]
      omega

theorem lineBreak_climbs (file depth : Nat) (c : Cursor) :
    Climbs depth (lineBreak file depth c).2.1 (tokens (lineBreak file depth c).1) := by
  rw [tokens_lineBreak]
  exact (Climbs.single (t := ⟨.newLine, c.span file 1, "\n", .none⟩) nofun nofun).append (layout_climbs ..)

theorem lexeme_climbs (file depth : Nat) (c : Cursor) : Climbs depth depth (tokens [(lexeme file c).1]) := by
  obtain none | ⟨k, text, payload, plain, shape⟩ := tokens_piece (lexeme_covers file c)
  · rw [none]
    exact .nil
  · rw [shape]
    refine .single ?_ ?_
    · rintro rfl
      cases plain
    · rintro rfl
      cases plain

/-- From any depth the lexemes lead back to none. -/
theorem Run.climbs {file depth : Nat} {c : Cursor} {ls : List Lexeme} (run : Run file depth c ls) :
    Climbs depth 0 (tokens ls) := by
  induction run with
  | stop atEnd =>
    rw [tokens_append]
    exact (layout_climbs ..).append (.single nofun nofun)
  | line atBreak more ih =>
    rw [tokens_append]
    exact (lineBreak_climbs ..).append ih
  | @piece depth c ls inside inLine more ih =>
    rw [← List.singleton_append, tokens_append]
    exact (lexeme_climbs ..).append ih

/-! ## Places -/

/-- The tokens stand one behind another from an offset to an offset, and the marks among them hold no byte. -/
structure Between (first last : Nat) (ts : List Token) : Prop where
  forward : first ≤ last
  within : ∀ t ∈ ts, first ≤ t.span.start ∧ t.span.start ≤ t.span.stop ∧ t.span.stop ≤ last
  ordered : ts.Pairwise fun t u => t.span.stop ≤ u.span.start
  marks : ∀ t ∈ ts, isMark t.kind = true → t.span.isEmpty = true

namespace Between

variable {first middle last : Nat} {ts us : List Token}

theorem nil (forward : first ≤ last) : Between first last [] := ⟨forward, List.forall_mem_nil _, .nil, List.forall_mem_nil _⟩

theorem append (before : Between first middle ts) (behind : Between middle last us) : Between first last (ts ++ us) where
  forward := Nat.le_trans before.forward behind.forward
  within := by
    intro t member
    obtain inside | inside := List.mem_append.mp member
    · obtain ⟨start, span, stop⟩ := before.within t inside
      exact ⟨start, span, Nat.le_trans stop behind.forward⟩
    · obtain ⟨start, rest⟩ := behind.within t inside
      exact ⟨Nat.le_trans before.forward start, rest⟩
  ordered := List.pairwise_append.mpr ⟨before.ordered, behind.ordered, fun t inFirst u inSecond =>
    Nat.le_trans (before.within t inFirst).2.2 (behind.within u inSecond).1⟩
  marks := by
    intro t member
    obtain inside | inside := List.mem_append.mp member
    · exact before.marks t inside
    · exact behind.marks t inside

/-- One token that covers what is between the offsets. -/
theorem single {k : Kind} (file : Nat) (forward : first ≤ last) (plain : isMark k = false) (text : String)
    (payload : Payload) : Between first last [⟨k, ⟨file, first, last⟩, text, payload⟩] where
  forward := forward
  within := by simpa using forward
  ordered := List.pairwise_singleton ..
  marks := by simp [plain]

/-- Marks at one place. -/
theorem replicate (k : Kind) (n file off : Nat) (text : String) :
    Between off off (List.replicate n ⟨k, .point file off, text, .none⟩) where
  forward := Nat.le_refl off
  within := by
    intro t member
    rw [List.eq_of_mem_replicate member]
    exact ⟨Nat.le_refl off, Nat.le_refl off, Nat.le_refl off⟩
  ordered := List.pairwise_replicate.mpr (.inr (Nat.le_refl off))
  marks := by
    intro t member _
    rw [List.eq_of_mem_replicate member]
    exact beq_self_eq_true off

end Between

theorem layout_between (file old new off : Nat) : Between off off (tokens (layout file old new off)) := by
  rw [tokens_layout]
  split
  · exact .replicate ..
  · exact .replicate ..

theorem lineBreak_between (file depth : Nat) {c : Cursor} (inside : c.rest ≠ []) :
    Between c.off (lineBreak file depth c).2.2.off (tokens (lineBreak file depth c).1) := by
  obtain ⟨b, tail, shape⟩ := List.exists_cons_of_ne_nil inside
  have behind : c.off + 1 ≤ (lineBreak file depth c).2.2.off :=
    (lineHead_reaches 0 (c.off + 1) (c.off + 1) (c.rest.drop 1)).off.1
  rw [tokens_lineBreak]
  exact (Between.single file (Nat.le_succ c.off) rfl "\n" .none).append
    ((Between.nil behind).append (layout_between ..))

theorem lexeme_between (file : Nat) {c : Cursor} (inside : c.rest ≠ []) :
    Between c.off (lexeme file c).2.off (tokens [(lexeme file c).1]) := by
  have forward := (lexeme_reaches file inside).off.1
  obtain none | ⟨k, text, payload, plain, shape⟩ := tokens_piece (lexeme_covers file c)
  · rw [none]
    exact .nil forward
  · rw [shape]
    exact .single file forward plain text payload

/-- The tokens stand one behind another from the place to the end of the source, where the end of file is. -/
theorem Run.between {file depth : Nat} {c : Cursor} {ls : List Lexeme} (run : Run file depth c ls) :
    Between c.off (c.off + c.rest.length) (tokens ls) := by
  induction run with
  | @stop depth c atEnd =>
    obtain ⟨forward, total⟩ := (skipTrivia_reaches c).off
    rw [atEnd, List.length_nil, Nat.add_zero] at total
    rw [tokens_append, ← total]
    exact ((Between.nil forward).append (layout_between ..)).append (.replicate .eof 1 file _ "")
  | @line depth c ls atBreak more ih =>
    have inside : (skipTrivia c).rest ≠ [] := fun none => by simp [none] at atBreak
    obtain ⟨forward, total⟩ := (skipTrivia_reaches c).off
    rw [(lineBreak_reaches file depth inside).off.2, total] at ih
    rw [tokens_append]
    exact ((Between.nil forward).append (lineBreak_between file depth inside)).append ih
  | @piece depth c ls inside inLine more ih =>
    obtain ⟨forward, total⟩ := (skipTrivia_reaches c).off
    rw [(lexeme_reaches file inside).off.2, total] at ih
    rw [← List.singleton_append, tokens_append]
    exact ((Between.nil forward).append (lexeme_between file inside)).append ih

/-- The lexemes end with the end of file, which stands at the end of the source, and hold no other. -/
theorem Run.ends {file depth : Nat} {c : Cursor} {ls : List Lexeme} (run : Run file depth c ls) :
    ∃ ms, ls = ms ++ [endOfFile file (c.off + c.rest.length)] ∧ ∀ l ∈ ms, isEnd l = false := by
  induction run with
  | @stop depth c atEnd =>
    have total := (skipTrivia_reaches c).off.2
    rw [atEnd, List.length_nil, Nat.add_zero] at total
    exact ⟨_, by rw [← total], fun l member => (layout_waits file depth 0 _ l member).1⟩
  | @line depth c ls atBreak more ih =>
    have inside : (skipTrivia c).rest ≠ [] := fun none => by simp [none] at atBreak
    obtain ⟨ms, rfl, goesOn⟩ := ih
    rw [(lineBreak_reaches file depth inside).off.2, (skipTrivia_reaches c).off.2, ← List.append_assoc]
    exact ⟨_, rfl, List.forall_mem_append.mpr ⟨fun l member => (lineBreak_waits file depth _ l member).1, goesOn⟩⟩
  | @piece depth c ls inside inLine more ih =>
    obtain ⟨ms, rfl, goesOn⟩ := ih
    rw [(lexeme_reaches file inside).off.2, (skipTrivia_reaches c).off.2, ← List.cons_append]
    exact ⟨_, rfl, List.forall_mem_cons.mpr ⟨isEnd_of_mark (lexeme_covers file _).plain, goesOn⟩⟩

end Lexer

/-! ## The tokens of a source -/

/-- What holds of the tokens of a source of a length, whatever the source says. -/
structure TokensOf (length : Nat) (ts : List Token) : Prop where
  /-- At no point have more levels been closed than opened. -/
  nested : ∀ n, Lexer.count .dedent (ts.take n) ≤ Lexer.count .indent (ts.take n)
  /-- In the end all of them are closed. -/
  closed : Lexer.count .dedent ts = Lexer.count .indent ts
  /-- The spans lie in the source. -/
  within : ∀ t ∈ ts, t.span.start ≤ t.span.stop ∧ t.span.stop ≤ length
  /-- The spans follow one another. -/
  ordered : ts.Pairwise fun t u => t.span.stop ≤ u.span.start
  /-- An indent, a dedent and the end of file hold no byte. -/
  marks : ∀ t ∈ ts, t.kind = .indent ∨ t.kind = .dedent ∨ t.kind = .eof → t.span.isEmpty = true

/-- A whole number that ends with the last offset of 32 bits is met only in a source of `2 ^ 32 - 1` bytes. -/
theorem Lexer.Run.brims {file depth : Nat} {c : Cursor} {ls : List Lexeme} (run : Run file depth c ls) (short : c.Short) :
    ∀ l ∈ ls, l.brims = true → c.off + c.rest.length = 0xFFFFFFFF := by
  have waiting {l : Lexeme} (waits : Waits l) (brims : l.brims = true) : False := by
    rw [Lexeme.not_brims waits.2] at brims
    cases brims
  induction run with
  | @stop depth c atEnd =>
    intro l member brims
    obtain inLayout | atEnd := List.mem_append.mp member
    · exact (waiting (layout_waits _ _ _ _ l inLayout) brims).elim
    · rw [List.mem_singleton.mp atEnd] at brims
      cases brims
  | @line depth c ls atBreak more ih =>
    have inside : (skipTrivia c).rest ≠ [] := fun none => by simp [none] at atBreak
    have trivia := skipTrivia_reaches c
    have behind := lineBreak_reaches file depth inside
    intro l member brims
    obtain inLine | later := List.mem_append.mp member
    · exact (waiting (lineBreak_waits _ _ _ l inLine) brims).elim
    · rw [← trivia.off.2, ← behind.off.2]
      exact ih (behind.short (trivia.short short)) l later brims
  | @piece depth c ls inside inLine more ih =>
    have trivia := skipTrivia_reaches c
    have behind := lexeme_reaches file inside
    intro l member brims
    rw [← trivia.off.2]
    obtain rfl | later := List.mem_cons.mp member
    · exact lexeme_brims (trivia.short short) inside brims
    · rw [← behind.off.2]
      exact ih (behind.short (trivia.short short)) l later brims

theorem lexemes_tokensOf (file : Nat) (source : Bytes) :
    TokensOf source.length ((lexemes file source).filterMap Lexeme.token?) := by
  have run : Lexer.Run file 0 ⟨0, source⟩ (lexemes file source) :=
    Lexer.lexemesFrom_run file (c := ⟨0, source⟩) (Nat.lt_succ_self _)
  obtain ⟨nested, closed⟩ := run.climbs
  have places := run.between
  simp only [Nat.zero_add] at places nested closed
  refine ⟨nested, closed.symm, fun t member => (places.within t member).2, places.ordered,
    fun t member mark => places.marks t member ?_⟩
  obtain kind | kind | kind := mark <;> rw [kind] <;> rfl

/-- A lexer gives the lexemes of a source of less than `2 ^ 32` bytes one by one, and then nothing, however often it is
    called, unless one of them is a whole number that ends with the last offset of 32 bits: on coming to it the program
    stops. This can only be in a source of `2 ^ 32 - 1` bytes. The last of the lexemes is the end of file, and no other
    is; and the tokens among them are nested and ordered, whatever errors stand between them. -/
theorem token_stream (file : Nat) (source : Bytes) (short : source.length < 0x100000000) :
    (∀ call, lexerAnswer file source call = if ((lexemes file source).take (call + 1)).any Lexeme.brims
      then .error .index else .ok (lexemes file source)[call]?) ∧
    (∀ l ∈ lexemes file source, l.brims = true → source.length = 0xFFFFFFFF) ∧
    (∃ ls, lexemes file source = ls ++ [Lexer.endOfFile file source.length] ∧ ∀ l ∈ ls, l.toToken.kind ≠ .eof) ∧
    TokensOf source.length ((lexemes file source).filterMap Lexeme.token?) := by
  have run : Lexer.Run file 0 ⟨0, source⟩ (lexemes file source) :=
    Lexer.lexemesFrom_run file (c := ⟨0, source⟩) (Nat.lt_succ_self _)
  have brims := run.brims (Lexer.Cursor.short_start short)
  obtain ⟨ls, shape, goesOn⟩ := run.ends
  simp only [Nat.zero_add] at brims shape
  exact ⟨Lexer.answer_eq file short, brims, ⟨ls, shape, fun l member => ne_of_beq_false (goesOn l member)⟩,
    lexemes_tokensOf file source⟩

/-- An indented number too great, a character that belongs nowhere, and a level that stays open. -/
def unruly : Bytes := utf8 "\n    99999999999999999999 $"

theorem token_stream_unruly : unruly.length < 0x100000000 ∧ lexerAnswer 0 unruly 5 = .ok (some (Lexer.endOfFile 0 27)) ∧
    lexerAnswer 0 unruly 6 = .ok none ∧ TokensOf 27 ((lexemes 0 unruly).filterMap Lexeme.token?) := by
  have size : unruly.length = 27 := by decide +kernel
  have short : unruly.length < 0x100000000 := by rw [size]; decide
  obtain ⟨answers, -, -, tokens⟩ := token_stream 0 unruly short
  have plain : (lexemes 0 unruly).any Lexeme.brims = false := by decide +kernel
  have counted : (lexemes 0 unruly)[5]? = some (Lexer.endOfFile 0 27) ∧ (lexemes 0 unruly)[6]? = none := by decide +kernel
  have none (call : Nat) : ((lexemes 0 unruly).take call).any Lexeme.brims = false := by
    rw [List.any_eq_false] at plain ⊢
    exact fun l member => plain l (List.mem_of_mem_take member)
  refine ⟨short, ?_, ?_, size ▸ tokens⟩
  · rw [answers, none, counted.1]
    rfl
  · rw [answers, none, counted.2]
    rfl

theorem skipTrivia_digit (blanks : Nat) :
    Lexer.skipTrivia ⟨0, List.replicate blanks 0x20 ++ [0x31]⟩ = ⟨blanks, [0x31]⟩ := by
  have blank : (List.replicate blanks 0x20 ++ [0x31] : Bytes).takeWhile Lexer.isBlank = List.replicate blanks 0x20 := by
    rw [List.takeWhile_append_of_pos]
    · exact List.append_nil _
    · intro b member
      rw [List.eq_of_mem_replicate member]
      rfl
  simp [Lexer.skipTrivia, blank, Lexer.Cursor.advance, Lexer.startsComment]

theorem lexemes_digit (file blanks : Nat) : lexemes file (List.replicate blanks 0x20 ++ [0x31]) =
    [.token ⟨.intLit, ⟨file, blanks, blanks + 1⟩, "1", .int 1⟩, Lexer.endOfFile file (blanks + 1)] := by
  have digit : Lexer.lexeme file ⟨blanks, [0x31]⟩ =
      (.token ⟨.intLit, ⟨file, blanks, blanks + 1⟩, "1", .int 1⟩, ⟨blanks + 1, []⟩) := rfl
  have stop : Lexer.skipTrivia ⟨blanks + 1, []⟩ = ⟨blanks + 1, []⟩ := rfl
  rw [lexemes, List.length_append, List.length_replicate, Lexer.lexemesFrom]
  simp only [skipTrivia_digit, digit]
  show _ :: Lexer.lexemesFrom file (blanks + 1) 0 ⟨blanks + 1, []⟩ = _
  rw [Lexer.lexemesFrom]
  simp only [stop]
  rfl

/-- Blanks up to the last offset but one of 32 bits, and a digit. -/
def lastDigit : Bytes := List.replicate 0xFFFFFFFE 0x20 ++ [0x31]

theorem lastDigit_short : lastDigit.length < 0x100000000 := by
  rw [lastDigit, List.length_append, List.length_replicate]
  decide

/-- The end of file is never given out: on coming to the digit the program stops. -/
theorem token_stream_stops : lastDigit.length < 0x100000000 ∧ ∀ call, lexerAnswer 0 lastDigit call = .error .index := by
  refine ⟨lastDigit_short, fun call => ?_⟩
  have brims : Lexeme.brims (.token ⟨.intLit, ⟨0, 0xFFFFFFFE, 0xFFFFFFFE + 1⟩, "1", .int 1⟩) = true := rfl
  rw [Lexer.answer_eq 0 lastDigit_short, lastDigit, lexemes_digit, List.take_succ_cons, List.any_cons, brims]
  rfl

end PineLang
