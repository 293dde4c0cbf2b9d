import PineLang.Proofs.Utf8
import PineLang.Token.Lexer

/-!
Lexing apart from places. What a lexeme says, and where the next one starts, depends on the bytes
alone and not on their offset (`lexemesFrom_alike`), so text can be lexed piece by piece: neat text,
with nothing but spaces and empty lines between its tokens, is read by a function of its bytes
(`pieces`). The number of steps never runs out, for every step takes a byte.
-/
namespace PineLang

/-- A token without its place. -/
def Token.bare (t : Token) : Token := { t with span := {} }

/-- A lexical error without its place. -/
def LexError.placeless (e : LexError) : LexError := { e with span := {} }

/-- A lexeme without its place. -/
def Lexeme.placeless : Lexeme → Lexeme
  | .token t => .token t.bare
  | .error e earlier => .error e.placeless (earlier.map LexError.placeless)

/-- What a lexeme says apart from its place; an error says nothing. -/
def Lexeme.bare? : Lexeme → Option Token
  | .token t => some t.bare
  | .error _ _ => none

theorem Lexeme.bare?_placeless (l : Lexeme) : l.placeless.bare? = l.bare? := by
  cases l <;> rfl

/-- Lexemes that agree up to their places say the same. -/
theorem map_bare?_of_placeless {ls ms : List Lexeme} (same : ls.map Lexeme.placeless = ms.map Lexeme.placeless) :
    ls.map Lexeme.bare? = ms.map Lexeme.bare? := by
  simpa only [List.map_map, Function.comp_def, Lexeme.bare?_placeless] using congrArg (List.map Lexeme.bare?) same

namespace Lexer

/-! ## Places do not matter -/

/-- Two readings give the same lexeme up to its place, and leave the same bytes. -/
def Alike (first second : Lexeme × Cursor) : Prop :=
  first.1.placeless = second.1.placeless ∧ first.2.rest = second.2.rest

theorem Alike.error {e e' : LexError} {bad bad' : Option LexError} {c c' : Cursor} (faults : e.placeless = e'.placeless)
    (same : bad.map LexError.placeless = bad'.map LexError.placeless) (left : c.rest = c'.rest) :
    Alike (.error e bad, c) (.error e' bad', c') :=
  ⟨by simp only [Lexeme.placeless, faults, same], left⟩

theorem stringBody_alike {file file' start start' : Nat} : ∀ (bs : Bytes) (skip off off' : Nat) (text : List Char)
    (bad bad' : Option LexError), bad.map LexError.placeless = bad'.map LexError.placeless →
      Alike (stringBody file start skip off text bad bs) (stringBody file' start' skip off' text bad' bs)
  | [], _, _, _, _, _, _, same => .error rfl same rfl
  | b :: rest, k + 1, off, off', text, bad, bad', same => stringBody_alike rest k (off + 1) (off' + 1) text bad bad' same
  | b :: rest, 0, off, off', text, bad, bad', same => by
    rw [stringBody.eq_def, stringBody.eq_def file']
    simp only
    split
    · exact .error rfl same rfl
    · split
      · cases bad with
        | none => cases bad' with
          | none => exact ⟨rfl, rfl⟩
          | some e => cases same
        | some e => cases bad' with
          | none => cases same
          | some e' => exact .error (Option.some.inj same) rfl rfl
      · split
        · cases rest with
          | nil => exact .error rfl same rfl
          | cons e rest' =>
            simp only
            split
            · exact .error rfl same rfl
            · split
              · exact stringBody_alike rest' _ _ _ _ _ _ same
              · refine stringBody_alike rest' _ _ _ _ _ _ ?_
                cases bad <;> cases bad' <;> first | rfl | exact same | cases same
        · exact stringBody_alike rest _ _ _ _ _ _ same

theorem word_alike (file : Nat) (c : Cursor) : Alike (word file c) (word 0 ⟨0, c.rest⟩) := by
  unfold word unexpected
  simp only
  split <;> exact ⟨rfl, rfl⟩

/-- The digits behind the point of the number at the head. -/
def fractionRun (bs : Bytes) : Bytes :=
  match bs.drop (digitRun bs).length with
  | 0x2E :: rest => digitRun rest
  | _ => []

theorem number_int {c : Cursor} (whole : fractionRun c.rest = []) (file : Nat) : number file c =
    (let value := Double.digitsValue (digitChars (digitRun c.rest))
    let span := c.span file (digitRun c.rest).length
    let text := String.ofList (digitChars (digitRun c.rest))
    if value < 0x10000000000000000 then (.token ⟨.intLit, span, text, .int value.toUInt64⟩, c.advance (digitRun c.rest).length)
    else (.error ⟨.integerOverflow text, span⟩, c.advance (digitRun c.rest).length)) := by
  have empty : (fractionRun c.rest).isEmpty = true := by rw [whole]; rfl
  exact if_pos empty

theorem number_float {c : Cursor} (parted : fractionRun c.rest ≠ []) (file : Nat) : number file c =
    (let n := (digitRun c.rest).length + 1 + (fractionRun c.rest).length
    let text := String.ofList (digitChars (digitRun c.rest) ++ '.' :: digitChars (fractionRun c.rest))
    match Double.ofDecimal? (digitChars (digitRun c.rest)) (digitChars (fractionRun c.rest)) with
    | some value => (.token ⟨.floatLit, c.span file n, text, .float value⟩, c.advance n)
    | none => (.error ⟨.badNumber text, c.span file n⟩, c.advance n)) := by
  have some : ¬ (fractionRun c.rest).isEmpty = true := by simpa using parted
  exact if_neg some

theorem number_alike (file : Nat) (c : Cursor) : Alike (number file c) (number 0 ⟨0, c.rest⟩) := by
  by_cases whole : fractionRun c.rest = []
  · rw [number_int whole, number_int (c := ⟨0, c.rest⟩) whole]
    simp only
    split <;> exact ⟨rfl, rfl⟩
  · rw [number_float whole, number_float (c := ⟨0, c.rest⟩) whole]
    simp only
    split <;> exact ⟨rfl, rfl⟩

theorem operator_alike (file : Nat) (c : Cursor) : Alike (operator file c) (operator 0 ⟨0, c.rest⟩) := by
  unfold operator unexpected
  simp only
  split <;> exact ⟨rfl, rfl⟩

theorem lexeme_alike (file : Nat) (c : Cursor) : Alike (lexeme file c) (lexeme 0 ⟨0, c.rest⟩) := by
  unfold lexeme
  simp only
  split
  · split
    · exact word_alike file c
    · exact operator_alike file c
  · exact operator_alike file c
  · split
    · exact word_alike file c
    · split
      · exact number_alike file c
      · split
        · exact stringBody_alike _ _ _ _ _ _ _ rfl
        · exact operator_alike file c
  · exact operator_alike file c

/-- A line head is found the same way wherever the line stands. -/
theorem lineHead_alike (width start start' off off' : Nat) (bs : Bytes) :
    (lineHead width start off bs).width = (lineHead width start' off' bs).width ∧
      (lineHead width start off bs).cursor.rest = (lineHead width start' off' bs).cursor.rest := by
  refine lineHead.induct
    (fun width start off bs => ∀ start' off',
      (lineHead width start off bs).width = (lineHead width start' off' bs).width ∧
        (lineHead width start off bs).cursor.rest = (lineHead width start' off' bs).cursor.rest)
    (fun start off bs => ∀ start' off',
      (commentLine start off bs).width = (commentLine start' off' bs).width ∧
        (commentLine start off bs).cursor.rest = (commentLine start' off' bs).cursor.rest)
    ?_ ?_ ?_ ?_ ?_ ?_ ?_ ?_ ?_ ?_ width start off bs start' off'
  · intro _ _ _ _ _
    exact ⟨rfl, rfl⟩
  · intro width start off rest ih start' off'
    simpa only [lineHead] using ih start' (off' + 1)
  · intro width start off rest ih start' off'
    simpa only [lineHead] using ih start' (off' + 1)
  · intro width start off rest ih start' off'
    simpa only [lineHead] using ih start' (off' + 1)
  · intro width start off rest ih start' off'
    simpa only [lineHead] using ih (off' + 1) (off' + 1)
  · intro width start off rest ih start' off'
    simpa only [lineHead] using ih start' (off' + 2)
  · intro width start off b rest notSpace notTab notReturn notBreak notComment start' off'
    rw [lineHead.eq_7 _ _ _ _ _ notSpace notTab notReturn notBreak notComment,
      lineHead.eq_7 _ _ _ _ _ notSpace notTab notReturn notBreak notComment]
    exact ⟨rfl, rfl⟩
  · intro _ _ _ _
    exact ⟨rfl, rfl⟩
  · intro start off rest ih start' off'
    simpa only [commentLine] using ih (off' + 1) (off' + 1)
  · intro start off b rest notBreak ih start' off'
    rw [commentLine.eq_3 _ _ _ _ notBreak, commentLine.eq_3 _ _ _ _ notBreak]
    exact ih start' (off' + 1)

/-! ## Every step takes bytes -/

theorem decodeHead_width (a : UInt8) (rest : Bytes) :
    1 ≤ (Text.decodeHead (a :: rest)).2 ∧ (Text.decodeHead (a :: rest)).2 ≤ rest.length + 1 := by
  have head := Text.decodeHead_head a rest
  generalize Text.decodeHead (a :: rest) = r at *
  cases head with
  | ascii _ => exact ⟨Nat.le_refl 1, Nat.le_add_left 1 _⟩
  | stray _ => exact ⟨Nat.le_refl 1, Nat.le_add_left 1 _⟩
  | longer _ _ _ long room => exact ⟨Nat.le_of_succ_le long, room⟩

theorem nameExtent_le : ∀ (bs : Bytes) (skip : Nat), nameExtent skip bs ≤ bs.length
  | [], _ => by simp [nameExtent]
  | b :: rest, k + 1 => by
    have ih := nameExtent_le rest k
    simp only [nameExtent, List.length_cons]
    omega
  | b :: rest, 0 => by
    have ih := nameExtent_le rest
    unfold nameExtent
    simp only [List.length_cons]
    repeat' split
    all_goals first | exact Nat.succ_le_succ (ih _) | omega

/-- `c'` stands at least `least` bytes behind `c`, and not past the end. -/
def Cursor.Reaches (c c' : Cursor) (least : Nat) : Prop := ∃ n, least ≤ n ∧ n ≤ c.rest.length ∧ c' = c.advance n

namespace Cursor.Reaches

variable {c c' c'' : Cursor} {m n : Nat}

theorem here : c.Reaches c 0 := ⟨0, Nat.le_refl 0, Nat.zero_le _, rfl⟩

theorem of_advance (bound : n ≤ c.rest.length) : c.Reaches (c.advance n) n := ⟨n, Nat.le_refl n, bound, rfl⟩

theorem mono (reaches : c.Reaches c' n) (less : m ≤ n) : c.Reaches c' m := by
  obtain ⟨k, least, rest⟩ := reaches
  exact ⟨k, Nat.le_trans less least, rest⟩

theorem trans (first : c.Reaches c' m) (second : c'.Reaches c'' n) : c.Reaches c'' (m + n) := by
  obtain ⟨k, least, bound, rfl⟩ := first
  obtain ⟨l, least', bound', rfl⟩ := second
  have within : l ≤ c.rest.length - k := by simpa [advance] using bound'
  refine ⟨k + l, Nat.add_le_add least least', by omega, ?_⟩
  simp only [advance, List.drop_drop, Nat.add_assoc]

theorem cons {off : Nat} {bs : Bytes} (b : UInt8) (reaches : Reaches ⟨off + 1, bs⟩ c' n) :
    Reaches ⟨off, b :: bs⟩ c' (n + 1) :=
  (Reaches.trans (c := ⟨off, b :: bs⟩) (of_advance (n := 1) (Nat.le_add_left 1 _)) reaches).mono (by omega)

theorem length (reaches : c.Reaches c' n) : c'.rest.length + n ≤ c.rest.length := by
  obtain ⟨k, least, bound, rfl⟩ := reaches
  simp only [advance, List.length_drop]
  omega

end Cursor.Reaches

theorem stringBody_reaches {file start : Nat} : ∀ (bs : Bytes) (skip off : Nat) (text : List Char) (bad : Option LexError),
    Cursor.Reaches ⟨off, bs⟩ (stringBody file start skip off text bad bs).2 0
  | [], _, _, _, _ => .here
  | b :: rest, k + 1, off, text, bad => ((stringBody_reaches rest k (off + 1) text bad).cons b).mono (Nat.zero_le 1)
  | b :: rest, 0, off, text, bad => by
    have next : Cursor.Reaches ⟨off, b :: rest⟩ ⟨off + 1, rest⟩ 0 := (Cursor.Reaches.here.cons b).mono (Nat.zero_le 1)
    rw [stringBody.eq_def]
    simp only
    split
    · exact .here
    · split
      · split
        · exact next
        · exact next
      · split
        · cases rest with
          | nil => exact next
          | cons e rest' =>
            have escaped (skip : Nat) (text : List Char) (bad : Option LexError) :
                Cursor.Reaches ⟨off, b :: e :: rest'⟩ (stringBody file start skip (off + 2) text bad rest').2 0 :=
              (((stringBody_reaches rest' skip (off + 2) text bad).cons e).cons b).mono (Nat.zero_le 2)
            simp only
            split
            · exact next
            · split
              · exact escaped _ _ _
              · exact escaped _ _ _
        · exact ((stringBody_reaches rest _ (off + 1) _ _).cons b).mono (Nat.zero_le 1)

theorem word_reaches (file : Nat) {c : Cursor} (some : c.rest ≠ []) : c.Reaches (word file c).2 1 := by
  obtain ⟨a, tail, shape⟩ := List.exists_cons_of_ne_nil some
  have width := decodeHead_width a tail
  rw [← shape] at width
  have bound : (Text.decodeHead c.rest).2 ≤ c.rest.length := by
    rw [shape] at width ⊢
    exact width.2
  unfold word unexpected
  simp only
  split
  · have extent := nameExtent_le (c.rest.drop (Text.decodeHead c.rest).2) 0
    rw [List.length_drop] at extent
    exact (Cursor.Reaches.of_advance (by omega)).mono (by omega)
  · exact (Cursor.Reaches.of_advance bound).mono width.1

theorem digitRun_le (bs : Bytes) : (digitRun bs).length ≤ bs.length := (List.takeWhile_prefix _).length_le

theorem fractionRun_le (bs : Bytes) (parted : fractionRun bs ≠ []) :
    (digitRun bs).length + 1 + (fractionRun bs).length ≤ bs.length := by
  have whole := digitRun_le bs
  unfold fractionRun at parted ⊢
  split
  · next rest behind =>
    have lengths := congrArg List.length behind
    have fraction := digitRun_le rest
    rw [List.length_drop, List.length_cons] at lengths
    omega
  · next => simp at parted

theorem number_reaches (file : Nat) {c : Cursor} (some : digitRun c.rest ≠ []) : c.Reaches (number file c).2 1 := by
  have least : 1 ≤ (digitRun c.rest).length := List.length_pos_iff.mpr some
  by_cases whole : fractionRun c.rest = []
  · have next : c.Reaches (c.advance (digitRun c.rest).length) 1 :=
      (Cursor.Reaches.of_advance (digitRun_le _)).mono least
    rw [number_int whole]
    simp only
    split <;> exact next
  · have next : c.Reaches (c.advance ((digitRun c.rest).length + 1 + (fractionRun c.rest).length)) 1 :=
      (Cursor.Reaches.of_advance (fractionRun_le _ whole)).mono (by omega)
    rw [number_float whole]
    simp only
    split <;> exact next

theorem operator_length {bs : Bytes} {k : Kind} (found : operator? bs = some k) :
    1 ≤ k.name.length ∧ k.name.length ≤ bs.length := by
  have one {b : UInt8} {rest : Bytes} {k : Kind} (single : k.name.length = 1) :
      1 ≤ k.name.length ∧ k.name.length ≤ (b :: rest).length := by
    rw [single]
    exact ⟨Nat.le_refl 1, Nat.le_add_left 1 _⟩
  have two {b c : UInt8} {rest : Bytes} {k : Kind} (double : k.name.length = 2) :
      1 ≤ k.name.length ∧ k.name.length ≤ (b :: c :: rest).length := by
    rw [double]
    exact ⟨by decide, Nat.le_add_left 2 _⟩
  unfold operator? at found
  split at found <;> cases found <;> first | exact one (by decide) | exact two (by decide)

theorem operator_reaches (file : Nat) {c : Cursor} (some : c.rest ≠ []) : c.Reaches (operator file c).2 1 := by
  obtain ⟨a, tail, shape⟩ := List.exists_cons_of_ne_nil some
  have width := decodeHead_width a tail
  unfold operator unexpected
  split
  · next k found =>
    have bounds := operator_length found
    exact (Cursor.Reaches.of_advance bounds.2).mono bounds.1
  · rw [shape]
    exact (Cursor.Reaches.of_advance (by rw [shape]; exact width.2)).mono width.1

theorem string_reaches (file : Nat) {c : Cursor} (some : c.rest ≠ []) : c.Reaches (string file c).2 1 := by
  obtain ⟨a, tail, shape⟩ := List.exists_cons_of_ne_nil some
  obtain ⟨off, bs⟩ := c
  cases shape
  exact (stringBody_reaches tail 0 (off + 1) [] none).cons a

theorem lexeme_of_not_underscore {file off : Nat} {a : UInt8} {tail : Bytes} (other : a ≠ 0x5F) :
    lexeme file ⟨off, a :: tail⟩ =
      if isNameStartByte a || a ≥ 0x80 then word file ⟨off, a :: tail⟩
      else if isDecimal a then number file ⟨off, a :: tail⟩
      else if a == 0x22 then string file ⟨off, a :: tail⟩
      else operator file ⟨off, a :: tail⟩ := by
  simp [lexeme, other]

/-- What reads the lexeme at a place: the byte that stands there decides. -/
inductive ReadBy (file : Nat) (c : Cursor) : Prop
  | word {b : UInt8} {tail : Bytes} (shape : c.rest = b :: tail) (read : lexeme file c = word file c)
  | number {b : UInt8} {tail : Bytes} (shape : c.rest = b :: tail) (isDigit : isDecimal b = true)
      (read : lexeme file c = number file c)
  | string {tail : Bytes} (shape : c.rest = 0x22 :: tail) (read : lexeme file c = string file c)
  | operator (read : lexeme file c = operator file c)

theorem lexeme_readBy (file : Nat) (c : Cursor) : ReadBy file c := by
  obtain ⟨off, bs⟩ := c
  cases bs with
  | nil => exact .operator rfl
  | cons b tail =>
    by_cases underscore : b = 0x5F
    · subst underscore
      cases tail with
      | nil => exact .operator rfl
      | cons d ds =>
        by_cases named : isNameByte d = true
        · exact .word rfl (if_pos named)
        · exact .operator (if_neg named)
    · have same := @lexeme_of_not_underscore file off b tail underscore
      split at same
      · exact .word rfl same
      split at same
      · next isDigit => exact .number rfl isDigit same
      split at same
      · next isQuote =>
        obtain rfl := eq_of_beq isQuote
        exact .string rfl same
      · exact .operator same

theorem lexeme_reaches (file : Nat) {c : Cursor} (some : c.rest ≠ []) : c.Reaches (lexeme file c).2 1 := by
  cases lexeme_readBy file c with
  | word _ read => exact read ▸ word_reaches file some
  | operator read => exact read ▸ operator_reaches file some
  | string _ read => exact read ▸ string_reaches file some
  | number shape isDigit read =>
    rw [read]
    refine number_reaches file ?_
    rw [digitRun, shape, List.takeWhile_cons_of_pos isDigit]
    exact List.cons_ne_nil _ _

theorem skipTrivia_reaches (c : Cursor) : c.Reaches (skipTrivia c) 0 := by
  have blanks : c.Reaches (c.advance (c.rest.takeWhile isBlank).length) 0 :=
    (Cursor.Reaches.of_advance (List.takeWhile_prefix _).length_le).mono (Nat.zero_le _)
  unfold skipTrivia
  simp only
  split
  · exact blanks.trans ((Cursor.Reaches.of_advance (List.takeWhile_prefix _).length_le).mono (Nat.zero_le _))
  · exact blanks

theorem lineHead_reaches (width start off : Nat) (bs : Bytes) :
    Cursor.Reaches ⟨off, bs⟩ (lineHead width start off bs).cursor 0 := by
  refine lineHead.induct
    (fun width start off bs => Cursor.Reaches ⟨off, bs⟩ (lineHead width start off bs).cursor 0)
    (fun start off bs => Cursor.Reaches ⟨off, bs⟩ (commentLine start off bs).cursor 0)
    ?_ ?_ ?_ ?_ ?_ ?_ ?_ ?_ ?_ ?_ width start off bs
  · intro _ _ _
    exact .here
  · intro _ _ _ _ ih
    simpa only [lineHead] using (ih.cons _).mono (Nat.zero_le 1)
  · intro _ _ _ _ ih
    simpa only [lineHead] using (ih.cons _).mono (Nat.zero_le 1)
  · intro _ _ _ _ ih
    simpa only [lineHead] using (ih.cons _).mono (Nat.zero_le 1)
  · intro _ _ _ _ ih
    simpa only [lineHead] using (ih.cons _).mono (Nat.zero_le 1)
  · intro _ _ _ _ ih
    simpa only [lineHead] using ((ih.cons _).cons _).mono (Nat.zero_le 2)
  · intro width start off b rest notSpace notTab notReturn notBreak notComment
    rw [lineHead.eq_7 _ _ _ _ _ notSpace notTab notReturn notBreak notComment]
    exact .here
  · intro _ _
    exact .here
  · intro _ _ _ ih
    simpa only [commentLine] using (ih.cons _).mono (Nat.zero_le 1)
  · intro start off b rest notBreak ih
    rw [commentLine.eq_3 _ _ _ _ notBreak]
    exact (ih.cons _).mono (Nat.zero_le 1)

theorem lineBreak_reaches (file depth : Nat) {c : Cursor} (some : c.rest ≠ []) :
    c.Reaches (lineBreak file depth c).2.2 1 := by
  obtain ⟨a, tail, shape⟩ := List.exists_cons_of_ne_nil some
  obtain ⟨off, bs⟩ := c
  cases shape
  exact (lineHead_reaches 0 (off + 1) (off + 1) tail).cons a

/-! ## Piece by piece -/

/-- A fixed token without its place. -/
def mark (k : Kind) (text : String) : Option Token := some ⟨k, {}, text, .none⟩

/-- What leads from one depth to another. -/
def turn (old new : Nat) : List (Option Token) :=
  if old < new then List.replicate (new - old) (mark .indent "") else List.replicate (old - new) (mark .dedent "")

theorem map_layout (file old new off : Nat) : (layout file old new off).map Lexeme.bare? = turn old new := by
  unfold layout turn
  split <;> rw [List.map_replicate] <;> rfl

theorem layout_placeless (file file' old new off off' : Nat) :
    (layout file old new off).map Lexeme.placeless = (layout file' old new off').map Lexeme.placeless := by
  unfold layout
  split <;> rw [List.map_replicate, List.map_replicate] <;> rfl

theorem skipTrivia_alike (c : Cursor) : (skipTrivia c).rest = (skipTrivia ⟨0, c.rest⟩).rest := by
  by_cases comment : startsComment (c.rest.drop (c.rest.takeWhile isBlank).length) = true <;>
    simp [skipTrivia, Cursor.advance, comment]

/-- A line break before the same bytes gives the same line head, and the same lexemes up to their places. -/
theorem lineBreak_alike (file file' depth : Nat) (c c' : Cursor)
    (width : (lineHead 0 (c.off + 1) (c.off + 1) (c.rest.drop 1)).width =
      (lineHead 0 (c'.off + 1) (c'.off + 1) (c'.rest.drop 1)).width) :
    (lineBreak file depth c).1.map Lexeme.placeless = (lineBreak file' depth c').1.map Lexeme.placeless ∧
      (lineBreak file depth c).2.1 = (lineBreak file' depth c').2.1 := by
  unfold lineBreak lineTo
  simp only
  rw [width]
  simp only [List.map_append, List.map_cons,
    layout_placeless file file' _ _ _ (lineHead 0 (c'.off + 1) (c'.off + 1) (c'.rest.drop 1)).cursor.off]
  refine ⟨?_, trivial⟩
  split <;> rfl

/-- Enough steps read the same wherever the text stands. -/
theorem lexemesFrom_alike (file file' : Nat) : ∀ (n m depth : Nat) (c c' : Cursor),
    (skipTrivia c).rest = (skipTrivia c').rest → c.rest.length < n → c'.rest.length < m →
      (lexemesFrom file n depth c).map Lexeme.placeless = (lexemesFrom file' m depth c').map Lexeme.placeless
  | 0, _, _, _, _, _, room, _ => absurd room (Nat.not_lt_zero _)
  | _, 0, _, _, _, _, _, room => absurd room (Nat.not_lt_zero _)
  | n + 1, m + 1, depth, c, c', same, room, room' => by
    have shorter := (skipTrivia_reaches c).length
    have shorter' := (skipTrivia_reaches c').length
    have onward {d d' : Cursor} {k : Nat} (reaches : (skipTrivia c).Reaches d 1) (reaches' : (skipTrivia c').Reaches d' 1)
        (rest : d.rest = d'.rest) :
        (lexemesFrom file n k d).map Lexeme.placeless = (lexemesFrom file' m k d').map Lexeme.placeless := by
      have left := reaches.length
      have right := reaches'.length
      refine lexemesFrom_alike file file' n m k d d' ?_ (by omega) (by omega)
      rw [skipTrivia_alike d, skipTrivia_alike d', rest]
    unfold lexemesFrom
    simp only
    rw [← same]
    split
    · rw [List.map_append, List.map_append, layout_placeless]
      rfl
    · next tail atBreak =>
      have some : (skipTrivia c).rest ≠ [] := by simp [atBreak]
      have some' : (skipTrivia c').rest ≠ [] := by simp [← same, atBreak]
      have heads := lineHead_alike 0 ((skipTrivia c).off + 1) ((skipTrivia c').off + 1) ((skipTrivia c).off + 1)
        ((skipTrivia c').off + 1) ((skipTrivia c).rest.drop 1)
      have width : (lineHead 0 ((skipTrivia c).off + 1) ((skipTrivia c).off + 1) ((skipTrivia c).rest.drop 1)).width =
          (lineHead 0 ((skipTrivia c').off + 1) ((skipTrivia c').off + 1) ((skipTrivia c').rest.drop 1)).width := by
        rw [← same]
        exact heads.1
      have rest : (lineBreak file depth (skipTrivia c)).2.2.rest = (lineBreak file' depth (skipTrivia c')).2.2.rest := by
        simp only [lineBreak, lineTo, ← same]
        exact heads.2
      obtain ⟨line, depths⟩ := lineBreak_alike file file' depth _ _ width
      rw [List.map_append, List.map_append, line, depths]
      exact congrArg _ (onward (lineBreak_reaches file depth some) (lineBreak_reaches file' depth some') rest)
    · next notEnd _ =>
      have some : (skipTrivia c).rest ≠ [] := notEnd
      have some' : (skipTrivia c').rest ≠ [] := by rwa [← same]
      have first := lexeme_alike file (skipTrivia c)
      have first' := lexeme_alike file' (skipTrivia c')
      rw [← same] at first'
      rw [List.map_cons, List.map_cons, first.1, first'.1]
      exact congrArg _ (onward (lexeme_reaches file some) (lexeme_reaches file' some') (first.2.trans first'.2.symm))

/-! ## Neat text -/

/-- A kind whose tokens all have one spelling. -/
def isFixed (k : Kind) : Bool :=
  match k with
  | .ident | .intLit | .floatLit | .stringLit | .invalid | .eof | .newLine | .indent | .dedent => false
  | _ => true

/-- The bytes of the tokens of a kind, if they are always the same. -/
def spelling? (k : Kind) : Option Bytes :=
  if isFixed k then some (utf8 k.name)
  else match k with
    | .newLine => some [0x0A]
    | .indent | .dedent | .eof => some []
    | _ => none

theorem spelling_fixed {k : Kind} (fixed : isFixed k = true) : spelling? k = some (utf8 k.name) := if_pos fixed

/-- What the first lexeme of the bytes says, if it is a token with the spelling of its kind. -/
def piece (bs : Bytes) : Option Token :=
  (lexeme 0 ⟨0, bs⟩).1.bare?.filter fun t => (spelling? t.kind).all (· == bs.take (lexeme 0 ⟨0, bs⟩).2.off)

/-- What the lexemes of the bytes say, from a depth on, as far as the text is neat: nothing stands for an error, and for
    white space other than spaces and empty lines, a comment or an uneven line. -/
@[grind =] def pieces (depth : Nat) : Bytes → List (Option Token)
  | [] => turn depth 0 ++ [mark .eof ""]
  | b :: bs =>
    if b = 0x20 then pieces depth bs
    else if b = 0x0A then
      if (lineHead 0 0 0 bs).width % indentWidth = 0 ∧ ∀ c ∈ bs.take (lineHead 0 0 0 bs).cursor.off, c = 0x20 ∨ c = 0x0A then
        mark .newLine "\n" :: (turn depth ((lineHead 0 0 0 bs).width / indentWidth) ++
          pieces ((lineHead 0 0 0 bs).width / indentWidth) (lineHead 0 0 0 bs).cursor.rest)
      else [none]
    else if isBlank b || startsComment (b :: bs) then [none]
    else piece (b :: bs) :: pieces depth (lexeme 0 ⟨0, b :: bs⟩).2.rest
termination_by bs => bs.length
decreasing_by
  · exact Nat.lt_succ_self _
  · exact Nat.lt_succ_of_le (lineHead_reaches 0 0 0 bs).length
  · exact (lexeme_reaches 0 (List.cons_ne_nil b bs)).length

section Steps

variable {depth : Nat} {b : UInt8} {bs tail text rest : Bytes} {t : Token}

theorem pieces_nil : pieces depth [] = turn depth 0 ++ [mark .eof ""] := by
  rw [pieces]

theorem pieces_blank (depth : Nat) (bs : Bytes) : pieces depth (0x20 :: bs) = pieces depth bs := by
  rw [pieces, if_pos rfl]

theorem pieces_cons (notBlank : isBlank b = false) (notComment : startsComment (b :: tail) = false) (notBreak : b ≠ 0x0A) :
    pieces depth (b :: tail) = piece (b :: tail) :: pieces depth (lexeme 0 ⟨0, b :: tail⟩).2.rest := by
  have notSpace : b ≠ 0x20 := by
    rintro rfl
    cases notBlank
  rw [pieces, if_neg notSpace, if_neg notBreak, notBlank, notComment, Bool.or_false, if_neg Bool.false_ne_true]

/-- Text that is read as a token, whatever follows it. -/
theorem pieces_token (starts : text.head? = some b) (notBlank : isBlank b = false) (notBreak : b ≠ 0x0A)
    (notComment : startsComment (text ++ rest) = false) (read : (lexeme 0 ⟨0, text ++ rest⟩).1.bare? = some t)
    (left : (lexeme 0 ⟨0, text ++ rest⟩).2.rest = rest) (spelled : ∀ s ∈ spelling? t.kind, s = text) :
    pieces depth (text ++ rest) = some t :: pieces depth rest := by
  obtain ⟨tail, rfl⟩ := List.head?_eq_some_iff.mp starts
  obtain ⟨k, -, bound, there⟩ := lexeme_reaches 0 (c := ⟨0, b :: tail ++ rest⟩) (List.cons_ne_nil b _)
  have taken : (lexeme 0 ⟨0, b :: tail ++ rest⟩).2.off = (b :: tail).length := by
    have lengths := congrArg List.length left
    simp only [there, Cursor.advance, List.length_drop, List.length_append] at lengths bound ⊢
    omega
  have first : piece (b :: tail ++ rest) = some t := by
    rw [piece, read, taken, List.take_left, Option.filter_some, if_pos]
    cases known : spelling? t.kind with
    | none => rfl
    | some s => rw [spelled s known, Option.all_some, beq_self_eq_true]
  rw [List.cons_append] at notComment first left ⊢
  rw [pieces_cons notBlank notComment notBreak, first, left]

/-- A line break whose next line with content is evenly indented. -/
theorem pieces_break {gap : Bytes} {level start : Nat} (head : lineHead 0 0 0 (gap ++ bs) = ⟨4 * level, start, ⟨gap.length, bs⟩⟩)
    (plain : ∀ c ∈ gap, c = 0x20 ∨ c = 0x0A) :
    pieces depth (0x0A :: (gap ++ bs)) = mark .newLine "\n" :: (turn depth level ++ pieces level bs) := by
  have whole : 4 * level / indentWidth = level := Nat.mul_div_cancel_left level (by decide)
  have even : 4 * level % indentWidth = 0 := Nat.mul_mod_right 4 level
  rw [pieces, if_neg (by decide), if_pos rfl, head, if_pos ⟨even, by rwa [List.take_left]⟩, whole]

end Steps

end Lexer
end PineLang
