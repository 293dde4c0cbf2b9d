import PineLang.Proofs.BlankLines
import PineLang.Proofs.IntegerLiterals
import PineLang.Proofs.NameCodes
import PineLang.Proofs.NeatText
import PineLang.Proofs.StringLiterals

/-!
No byte of a source is lost. Where the lexer finds no fault, the spans of the tokens and the gaps between them make up
the source in its order (`lexing_lossless`): a gap is white space and comments, with line breaks only behind a line
break, and every token tells the bytes of its span.
-/
namespace PineLang

/-! ## The normal form of ASCII -/

namespace Text

theorem compatibility_above : (compatibilityAttached.toList.all fun e => 0x80 ≤ e.1) = true := by decide

theorem ascii_plain : ∀ n < 0x80, mapping? n = none ∧ combiningClass n = 0 ∧
    ((decompose n).takeWhile attaches).length = 0 ∧ ((decompose n).reverse.takeWhile attaches).length = 0 := by
  decide

theorem ascii_outside (n : Nat) (ascii : n < 0x80) : (compatibilityAttached.find? fun (a, b, _) => a ≤ n && n ≤ b) = none := by
  rw [Array.find?_eq_none]
  intro e member
  have least : 0x80 ≤ e.1 := of_decide_eq_true (List.all_eq_true.mp compatibility_above e (Array.mem_toList_iff.mpr member))
  have apart : ¬ e.1 ≤ n := by omega
  simp [apart]

/-- A code point of ASCII stands for itself, starts a character, and is no mark. -/
theorem ascii_starter (n : Nat) (ascii : n < 0x80) : mapping? n = none ∧ combiningClass n = 0 ∧ attachedEnds n = (0, 0) := by
  obtain ⟨own, starts, leading, trailing⟩ := ascii_plain n ascii
  refine ⟨own, starts, ?_⟩
  rw [attachedEnds, ascii_outside n ascii]
  simp only [leading, trailing]
theorem pairs_marks : (pairs.all fun e => 0x80 ≤ e.2.2) = true := by
  decide +kernel

/-- Nothing composes with a code point of ASCII behind it. -/
theorem compose_ascii (a : Nat) {b : Nat} (ascii : b < 0x80) : compose? a b = none := by
  rw [Option.eq_none_iff_forall_ne_some]
  intro n composed
  obtain hangul | ⟨member, -⟩ := compose_cases composed
  · unfold hangulCompose? at hangul
    split at hangul
    · next letters =>
      simp only [Bool.and_eq_true, decide_eq_true_eq] at letters
      omega
    · split at hangul
      · next parts =>
        simp only [Bool.and_eq_true, decide_eq_true_eq] at parts
        omega
      · cases hangul
  · have mark : 0x80 ≤ b := of_decide_eq_true (List.all_eq_true.mp pairs_marks _ member)
    omega

theorem composeFrom_ascii {ns : List Nat} (ascii : ∀ n ∈ ns, n < 0x80) (starter : Nat) :
    composeFrom starter [] none (classed ns) = starter :: ns := by
  induction ns generalizing starter with
  | nil => rfl
  | cons n ns ih =>
    obtain ⟨first, others⟩ := List.forall_mem_cons.mp ascii
    have classZero := (ascii_starter n first).2.1
    rw [classed_cons, composeFrom, classZero]
    simp only [Bool.false_eq_true, if_false, compose_ascii starter first, beq_self_eq_true, if_true, ih others n]
    rfl

/-- ASCII is its own normal form. -/
theorem normalCodes_ascii {ns : List Nat} (ascii : ∀ n ∈ ns, n < 0x80) : normalCodes ns = ns := by
  have short (k : Nat) : (runLength k ns).isSome = true := by
    induction ns generalizing k with
    | nil => rfl
    | cons n ns ih =>
      obtain ⟨first, others⟩ := List.forall_mem_cons.mp ascii
      rw [runLength_cons, runStep_plain (by rw [(ascii_starter n first).2.2])]
      exact ih others _
  have sorted : InOrder 0 (classed ns) := by
    clear short
    induction ns with
    | nil => trivial
    | cons n ns ih =>
      obtain ⟨first, others⟩ := List.forall_mem_cons.mp ascii
      have classZero := (ascii_starter n first).2.1
      rw [classed_cons, InOrder, classZero]
      exact ⟨.inl rfl, ih others⟩
  have full : ∀ n ∈ ns, IsFull n := fun n member => (ascii_starter n (ascii n member)).1
  rw [normalCodes_eq, partRuns_of_short (short 0), classed_canonical, flatMap_full full,
    orderMarks_of_inOrder sorted (List.forall_mem_nil _), List.nil_append]
  cases ns with
  | nil => rfl
  | cons n ns =>
    obtain ⟨first, others⟩ := List.forall_mem_cons.mp ascii
    rw [classed_cons, composeAll, (ascii_starter n first).2.1]
    exact composeFrom_ascii others n

theorem nfc_ascii {s : String} (ascii : ∀ c ∈ s.toList, c.toNat < 0x80) : nfc s = s := by
  have codes : ∀ n ∈ s.toList.map Char.toNat, n < 0x80 := List.forall_mem_map.mpr ascii
  rw [nfc_eq, normalCodes_ascii codes, List.map_map]
  have back : ∀ c ∈ s.toList, (Char.ofNat ∘ Char.toNat) c = c := fun c _ => Char.ofNat_toNat c
  rw [List.map_congr_left back, List.map_id', String.ofList_toList]

end Text

/-! ## Tokens and the bytes they stand for -/

/-- What a token of a source tells of the bytes of its span. -/
def Token.Tells (t : Token) (bytes : Bytes) : Prop :=
  match t.kind with
  | .indent | .dedent | .eof => bytes = []
  | .ident => t.text = Text.nfc (Text.lossy bytes)
  | .stringLit => ∃ body, bytes = 0x22 :: body ++ [0x22] ∧ Lexer.unescaped? (Text.chars body) = some t.text.toList
  | _ => utf8 t.text = bytes

/-- White space, and perhaps a comment, which goes on to the end of the line. `next` stands behind. -/
def IsTrivia (gap next : Bytes) : Prop :=
  ∃ blanks note, gap = blanks ++ note ∧ (∀ b ∈ blanks, b = 0x20 ∨ b = 0x09 ∨ b = 0x0D) ∧
    (note = [] ∨ (∃ text, note = 0x2F :: 0x2F :: text ∧ 0x0A ∉ text) ∧ ∀ b ∈ next.head?, b = 0x0A)

/-- What may stand before a token: white space and comments, and whole blank lines if a line break stands before. -/
inductive IsGap : Bool → Bytes → Bytes → Prop
  | last {afterBreak : Bool} {gap next : Bytes} (trivia : IsTrivia gap next) : IsGap afterBreak gap next
  | line {line gap next : Bytes} (blank : IsBlankLine line) (more : IsGap true gap next) : IsGap true (line ++ gap) next

theorem IsTrivia.nil (next : Bytes) : IsTrivia [] next := ⟨[], [], rfl, List.forall_mem_nil _, .inl rfl⟩

theorem IsTrivia.cons {b : UInt8} {gap next : Bytes} (blank : b = 0x20 ∨ b = 0x09 ∨ b = 0x0D) (trivia : IsTrivia gap next) :
    IsTrivia (b :: gap) next := by
  obtain ⟨blanks, note, rfl, white, comment⟩ := trivia
  exact ⟨b :: blanks, note, rfl, List.forall_mem_cons.mpr ⟨blank, white⟩, comment⟩

theorem IsGap.cons {afterBreak : Bool} {b : UInt8} {gap next : Bytes} (blank : b = 0x20 ∨ b = 0x09 ∨ b = 0x0D)
    (isGap : IsGap afterBreak gap next) : IsGap afterBreak (b :: gap) next := by
  cases isGap with
  | last trivia => exact .last (trivia.cons blank)
  | line isLine more =>
    obtain ⟨blanks, note, rfl, white, comment⟩ := isLine
    have isLine : IsBlankLine (b :: (blanks ++ note ++ [0x0A])) :=
      ⟨b :: blanks, note, rfl, List.forall_mem_cons.mpr ⟨blank, white⟩, comment⟩
    exact .line isLine more

/-- The tokens make up the bytes from an offset on, with gaps between them. -/
inductive MakeUp (file : Nat) : Bool → Nat → Bytes → List Token → Prop
  | done {afterBreak : Bool} {off : Nat} : MakeUp file afterBreak off [] []
  | token {afterBreak : Bool} {off : Nat} {gap bytes rest : Bytes} {t : Token} {ts : List Token}
      (apart : IsGap afterBreak gap (bytes ++ rest))
      (span : t.span = ⟨file, off + gap.length, off + gap.length + bytes.length⟩) (tells : t.Tells bytes)
      (more : MakeUp file (t.kind == .newLine) (off + gap.length + bytes.length) rest ts) :
      MakeUp file afterBreak off (gap ++ (bytes ++ rest)) (t :: ts)

namespace Lexer
open Text (decodeHead)

/-! ## Lexemes -/

theorem wordText_nfc (bs : Bytes) : wordText bs = Text.nfc (Text.lossy bs) := by
  unfold wordText
  split
  · next all =>
    have ascii : ∀ b ∈ bs, b < 0x80 := by simpa using all
    refine (Text.nfc_ascii ?_).symm
    rw [Text.lossy, String.toList_ofList, chars_ascii ascii, List.forall_mem_map]
    intro b member
    have low := UInt8.lt_iff_toNat_lt.mp (ascii b member)
    rw [Text.toNat_ofNat (.inl (Nat.lt_trans low (by decide)))]
    exact low
  · rfl

theorem tells_fixed {t : Token} {bytes : Bytes} (fixed : isFixed t.kind = true) (spelled : utf8 t.text = bytes) : t.Tells bytes := by
  obtain ⟨k, span, text, payload⟩ := t
  cases k <;> first | exact spelled | cases fixed

/-- A reading that gives a token takes the bytes that it tells of. -/
def Takes (c : Cursor) (read : Lexeme × Cursor) : Prop :=
  ∀ t, read.1 = .token t → ∃ bytes, c.rest = bytes ++ read.2.rest ∧ read.2.off = c.off + bytes.length ∧ t.Tells bytes

theorem Takes.error (c : Cursor) (e : LexError) (earlier : Option LexError) (next : Cursor) : Takes c (.error e earlier, next) := by
  intro t none
  cases none

/-- A token of the next bytes. -/
theorem Takes.taking {c : Cursor} {n : Nat} {t : Token} (within : n ≤ c.rest.length) (tells : t.Tells (c.rest.take n)) :
    Takes c (.token t, c.advance n) := by
  intro t' same
  cases same
  exact ⟨c.rest.take n, (List.take_append_drop n c.rest).symm, by rw [List.length_take_of_le within]; rfl, tells⟩

theorem word_takes (file : Nat) {c : Cursor} (inside : c.rest ≠ []) : Takes c (word file c) := by
  obtain ⟨off, bs⟩ := c
  obtain ⟨b, tail, rfl⟩ := List.exists_cons_of_ne_nil inside
  unfold word unexpected
  simp only
  split
  · next starts =>
    have width := (decodeHead_width b tail).2
    have extent := nameExtent_le ((b :: tail).drop (decodeHead (b :: tail)).2) 0
    rw [List.length_drop] at extent
    refine .taking (by simp only [List.length_cons] at extent ⊢; omega) ?_
    change Token.Tells ⟨wordKind (wordText (wordBytes (b :: tail))), _, wordText (wordBytes (b :: tail)), .none⟩ (wordBytes (b :: tail))
    obtain isName | ⟨fixed, name⟩ := wordKind_cases (wordText (wordBytes (b :: tail)))
    · rw [isName]
      exact wordText_nfc _
    · have plain := fixed_plain fixed
      rw [← name] at plain
      exact tells_fixed fixed (wordBytes_ascii starts plain)
  · exact Takes.error _ _ _ _

theorem operator_takes (file : Nat) (c : Cursor) : Takes c (operator file c) := by
  unfold operator unexpected
  split
  · next k found =>
    have fixed : isFixed k = true := by
      unfold operator? at found
      split at found <;> cases found <;> rfl
    have bytes := operator_bytes found
    have width : (utf8 k.name).length = k.name.length := by
      have lengths := congrArg List.length bytes
      have within := (operator_length found).2
      rw [List.length_append, List.length_drop] at lengths
      omega
    refine .taking (operator_length found).2 (tells_fixed fixed ?_)
    rw [bytes, ← width, List.take_left]
  · exact Takes.error _ _ _ _

theorem digitRun_decimal (bs : Bytes) : ∀ b ∈ digitRun bs, isDecimal b = true := List.all_eq_true.mp List.all_takeWhile

theorem digitRun_take (bs : Bytes) : bs.take (digitRun bs).length = digitRun bs :=
  (List.prefix_iff_eq_take.mp (List.takeWhile_prefix _)).symm

theorem fractionRun_decimal (bs : Bytes) : ∀ b ∈ fractionRun bs, isDecimal b = true := by
  unfold fractionRun
  split
  · exact digitRun_decimal _
  · exact List.forall_mem_nil _

theorem fractionRun_take {bs : Bytes} (parted : fractionRun bs ≠ []) :
    bs.take ((digitRun bs).length + 1 + (fractionRun bs).length) = digitRun bs ++ 0x2E :: fractionRun bs := by
  obtain ⟨rest, whole⟩ : ∃ rest, bs = (digitRun bs ++ 0x2E :: fractionRun bs) ++ rest := by
    have first : bs = digitRun bs ++ bs.drop (digitRun bs).length := by
      conv => lhs; rw [← List.take_append_drop (digitRun bs).length bs, digitRun_take]
    unfold fractionRun at parted ⊢
    split
    · next rest shape =>
      rw [shape] at first
      refine ⟨rest.drop (digitRun rest).length, ?_⟩
      have second : rest = digitRun rest ++ rest.drop (digitRun rest).length := by
        conv => lhs; rw [← List.take_append_drop (digitRun rest).length rest, digitRun_take]
      rw [List.append_assoc, List.cons_append, ← second, ← first]
    · next => simp at parted
  calc bs.take ((digitRun bs).length + 1 + (fractionRun bs).length)
      = ((digitRun bs ++ 0x2E :: fractionRun bs) ++ rest).take ((digitRun bs).length + 1 + (fractionRun bs).length) :=
        congrArg (List.take _) whole
    _ = digitRun bs ++ 0x2E :: fractionRun bs := by
        refine List.take_left' ?_
        rw [List.length_append, List.length_cons]
        omega

theorem number_takes (file : Nat) (c : Cursor) : Takes c (number file c) := by
  by_cases whole : fractionRun c.rest = []
  · rw [number_int whole]
    simp only
    split
    · refine .taking (digitRun_le _) ?_
      rw [digitRun_take]
      exact utf8_ofBytes fun b member => ascii_of_decimal (digitRun_decimal _ b member)
    · exact Takes.error _ _ _ _
  · rw [number_float whole]
    simp only
    split
    · refine .taking (fractionRun_le _ whole) ?_
      rw [fractionRun_take whole]
      have text : digitChars (digitRun c.rest) ++ '.' :: digitChars (fractionRun c.rest) =
          digitChars (digitRun c.rest ++ 0x2E :: fractionRun c.rest) := by simp [digitChars]
      change utf8 (String.ofList _) = _
      rw [text]
      refine utf8_ofBytes (List.forall_mem_append.mpr ⟨?_, List.forall_mem_cons.mpr ⟨by decide, ?_⟩⟩)
      · exact fun b member => ascii_of_decimal (digitRun_decimal _ b member)
      · exact fun b member => ascii_of_decimal (fractionRun_decimal _ b member)
    · exact Takes.error _ _ _ _

theorem string_takes (file : Nat) {c : Cursor} {tail : Bytes} (quoted : c.rest = 0x22 :: tail) : Takes c (string file c) := by
  intro t token
  have closed : stringBody file c.off 0 (c.off + 1) [] none tail = (.token t, (string file c).2) := by
    rw [← token, string, quoted]
    rfl
  obtain ⟨-, body, cs, known⟩ := stringBody_literal tail 0 (c.off + 1) [] none closed
  refine ⟨0x22 :: body ++ [0x22], ?_, ?_, ?_⟩
  · rw [quoted, known.split]
    simp
  · rw [known.stop]
    simp only [List.cons_append, List.length_cons, List.length_append, List.length_nil]
    omega
  · rw [known.token]
    refine ⟨body, rfl, ?_⟩
    rw [List.reverse_nil, List.nil_append, String.toList_ofList]
    exact known.denotes

/-- A token within a line stands for the bytes that are taken. -/
theorem lexeme_takes (file : Nat) {c : Cursor} (inside : c.rest ≠ []) : Takes c (lexeme file c) := by
  cases lexeme_readBy file c with
  | word _ read => exact read ▸ word_takes file inside
  | operator read => exact read ▸ operator_takes file c
  | number _ _ read => exact read ▸ number_takes file c
  | string quoted read => exact read ▸ string_takes file quoted

/-! ## Gaps -/

theorem isBlank_iff {b : UInt8} : isBlank b = true ↔ b = 0x20 ∨ b = 0x09 ∨ b = 0x0D := by
  simp only [isBlank, Bool.or_eq_true, beq_iff_eq, or_assoc]

theorem takeWhile_blank (bs : Bytes) : ∀ b ∈ bs.takeWhile isBlank, b = 0x20 ∨ b = 0x09 ∨ b = 0x0D :=
  fun b member => isBlank_iff.mp (List.all_eq_true.mp List.all_takeWhile b member)

theorem startsComment_iff (bs : Bytes) : startsComment bs = true ↔ ∃ text, bs = 0x2F :: 0x2F :: text := by
  constructor
  · intro starts
    by_contra other
    rw [startsComment.eq_2 bs fun text shape => other ⟨text, shape⟩] at starts
    cases starts
  · rintro ⟨text, rfl⟩
    rfl

/-- Between a place and where its trivia ends stand white space and a comment. -/
theorem skipTrivia_gap (c : Cursor) : ∃ gap, c.rest = gap ++ (skipTrivia c).rest ∧ (skipTrivia c).off = c.off + gap.length ∧
    IsTrivia gap (skipTrivia c).rest := by
  have parts : c.rest = c.rest.takeWhile isBlank ++ c.rest.dropWhile isBlank := List.takeWhile_append_dropWhile.symm
  unfold skipTrivia
  simp only [Cursor.advance, lineExtent, drop_takeWhile]
  split
  · next starts =>
    obtain ⟨text, isComment⟩ := (startsComment_iff _).mp starts
    rw [isComment] at parts ⊢
    have note : (0x2F :: 0x2F :: text).takeWhile (· != 0x0A) = 0x2F :: 0x2F :: text.takeWhile (· != 0x0A) := rfl
    have behind : (0x2F :: 0x2F :: text).dropWhile (· != 0x0A) = text.dropWhile (· != 0x0A) := rfl
    refine ⟨c.rest.takeWhile isBlank ++ 0x2F :: 0x2F :: text.takeWhile (· != 0x0A), ?_, ?_, _, _, rfl, takeWhile_blank _,
      .inr ⟨⟨_, rfl, ?_⟩, ?_⟩⟩
    · rw [behind, List.append_assoc, List.cons_append, List.cons_append, List.takeWhile_append_dropWhile, ← parts]
    · rw [note, List.length_append, Nat.add_assoc]
    · intro isBreak
      have other := List.all_eq_true.mp List.all_takeWhile _ isBreak
      cases other
    · intro b head
      rw [behind, Option.mem_def] at head
      have stop := List.head?_dropWhile_not (· != 0x0A) text
      simp only [head, bne_eq_false_iff_eq] at stop
      exact stop
  · exact ⟨_, parts, rfl, _, [], (List.append_nil _).symm, takeWhile_blank _, .inl rfl⟩

/-- Between a line break and the next content stand blank lines. -/
theorem lineHead_gap (width start off : Nat) (bs : Bytes) : ∃ gap, bs = gap ++ (lineHead width start off bs).cursor.rest ∧
    (lineHead width start off bs).cursor.off = off + gap.length ∧ IsGap true gap (lineHead width start off bs).cursor.rest := by
  refine lineHead.induct
    (fun width start off bs => ∃ gap, bs = gap ++ (lineHead width start off bs).cursor.rest ∧
      (lineHead width start off bs).cursor.off = off + gap.length ∧ IsGap true gap (lineHead width start off bs).cursor.rest)
    (fun start off bs => ∃ text behind, bs = text ++ behind ++ (commentLine start off bs).cursor.rest ∧
      (commentLine start off bs).cursor.off = off + text.length + behind.length ∧ 0x0A ∉ text ∧
      (behind = [] ∧ (commentLine start off bs).cursor.rest = [] ∨
        ∃ gap, behind = 0x0A :: gap ∧ IsGap true gap (commentLine start off bs).cursor.rest))
    ?_ ?_ ?_ ?_ ?_ ?_ ?_ ?_ ?_ ?_ width start off bs
  · intro width start off
    exact ⟨[], rfl, rfl, .last (.nil _)⟩
  · intro width start off rest ih
    obtain ⟨gap, whole, place, isGap⟩ := ih
    simp only [lineHead]
    exact ⟨0x20 :: gap, congrArg _ whole, by rw [place, List.length_cons]; omega, isGap.cons (by decide)⟩
  · intro width start off rest ih
    obtain ⟨gap, whole, place, isGap⟩ := ih
    simp only [lineHead]
    exact ⟨0x09 :: gap, congrArg _ whole, by rw [place, List.length_cons]; omega, isGap.cons (by decide)⟩
  · intro width start off rest ih
    obtain ⟨gap, whole, place, isGap⟩ := ih
    simp only [lineHead]
    exact ⟨0x0D :: gap, congrArg _ whole, by rw [place, List.length_cons]; omega, isGap.cons (by decide)⟩
  · intro width start off rest ih
    obtain ⟨gap, whole, place, isGap⟩ := ih
    simp only [lineHead]
    refine ⟨[0x0A] ++ gap, congrArg _ whole, by rw [place, List.length_append, List.length_singleton]; omega, .line ?_ isGap⟩
    exact ⟨[], [], rfl, List.forall_mem_nil _, .inl rfl⟩
  · intro width start off rest ih
    obtain ⟨text, behind, whole, place, single, ends⟩ := ih
    simp only [lineHead]
    have off : (commentLine start (off + 2) rest).cursor.off = off + (0x2F :: 0x2F :: text ++ behind).length := by
      rw [place]
      simp only [List.cons_append, List.length_cons, List.length_append]
      omega
    refine ⟨0x2F :: 0x2F :: text ++ behind, by simpa using whole, off, ?_⟩
    obtain ⟨rfl, atEnd⟩ | ⟨gap, rfl, isGap⟩ := ends
    · rw [atEnd, List.append_nil]
      exact .last ⟨[], _, rfl, List.forall_mem_nil _, .inr ⟨⟨text, rfl, single⟩, fun b member => by cases member⟩⟩
    · have cut : 0x2F :: 0x2F :: text ++ 0x0A :: gap = [] ++ 0x2F :: 0x2F :: text ++ [0x0A] ++ gap := by simp
      rw [cut]
      exact .line ⟨[], 0x2F :: 0x2F :: text, rfl, List.forall_mem_nil _, .inr ⟨text, rfl, single⟩⟩ isGap
  · intro width start off b rest notSpace notTab notReturn notBreak notComment
    rw [lineHead.eq_7 _ _ _ _ _ notSpace notTab notReturn notBreak notComment]
    exact ⟨[], rfl, rfl, .last (.nil _)⟩
  · intro start off
    exact ⟨[], [], rfl, rfl, List.not_mem_nil, .inl ⟨rfl, rfl⟩⟩
  · intro start off rest ih
    obtain ⟨gap, whole, place, isGap⟩ := ih
    simp only [commentLine]
    refine ⟨[], 0x0A :: gap, congrArg _ whole, ?_, List.not_mem_nil, .inr ⟨gap, rfl, isGap⟩⟩
    rw [place, List.length_nil, List.length_cons]
    omega
  · intro start off b rest notBreak ih
    obtain ⟨text, behind, whole, place, single, ends⟩ := ih
    rw [commentLine.eq_3 _ _ _ _ notBreak]
    refine ⟨b :: text, behind, congrArg _ whole, by rw [place, List.length_cons]; omega, ?_, ends⟩
    exact List.not_mem_cons_of_ne_of_not_mem (fun same => notBreak same.symm) single

/-- Where the next content starts, nothing is left to pass over. -/
theorem lineHead_settled (width start off : Nat) (bs : Bytes) :
    skipTrivia (lineHead width start off bs).cursor = (lineHead width start off bs).cursor := by
  refine lineHead.induct
    (fun width start off bs => skipTrivia (lineHead width start off bs).cursor = (lineHead width start off bs).cursor)
    (fun start off bs => skipTrivia (commentLine start off bs).cursor = (commentLine start off bs).cursor)
    ?_ ?_ ?_ ?_ ?_ ?_ ?_ ?_ ?_ ?_ width start off bs
  · intro _ _ _
    rfl
  · intro _ _ _ _ ih
    simpa only [lineHead] using ih
  · intro _ _ _ _ ih
    simpa only [lineHead] using ih
  · intro _ _ _ _ ih
    simpa only [lineHead] using ih
  · intro _ _ _ _ ih
    simpa only [lineHead] using ih
  · intro _ _ _ _ ih
    simpa only [lineHead] using ih
  · intro width start off b rest notSpace notTab notReturn notBreak notComment
    rw [lineHead.eq_7 _ _ _ _ _ notSpace notTab notReturn notBreak notComment]
    refine skipTrivia_eq ?_ ?_
    · rw [Bool.eq_false_iff, Ne, isBlank_iff]
      rintro (rfl | rfl | rfl)
      · exact notSpace rfl
      · exact notTab rfl
      · exact notReturn rfl
    · rw [Bool.eq_false_iff, Ne, startsComment_iff]
      rintro ⟨text, shape⟩
      exact notComment text (List.cons.inj shape).1 (List.cons.inj shape).2
  · intro _ _
    rfl
  · intro _ _ _ ih
    simpa only [commentLine] using ih
  · intro start off b rest notBreak ih
    rw [commentLine.eq_3 _ _ _ _ notBreak]
    exact ih

/-! ## Runs -/

/-- Behind whatever gap leads to the place, the tokens make up the bytes. -/
def Ready (file : Nat) (c : Cursor) (ts : List Token) : Prop :=
  ∀ (afterBreak : Bool) (off : Nat) (gap : Bytes), off + gap.length = c.off → IsGap afterBreak gap c.rest →
    MakeUp file afterBreak off (gap ++ c.rest) ts

section Runs

variable {file : Nat} {c c' : Cursor} {t : Token} {ts : List Token}

/-- A token stands at the place, and the others make up the bytes behind it. -/
theorem Ready.token {bytes : Bytes} (split : c.rest = bytes ++ c'.rest) (place : c'.off = c.off + bytes.length)
    (span : t.span = ⟨file, c.off, c'.off⟩) (tells : t.Tells bytes)
    (more : MakeUp file (t.kind == .newLine) c'.off c'.rest ts) : Ready file c (t :: ts) := by
  intro afterBreak off gap reaches isGap
  rw [split] at isGap ⊢
  rw [place, ← reaches] at span more
  exact .token isGap span tells more

/-- A mark stands at the place for no bytes. -/
theorem Ready.mark {k : Kind} (isMark : isMark k = true) (more : MakeUp file (k == .newLine) c.off c.rest ts) :
    Ready file c (⟨k, .point file c.off, "", .none⟩ :: ts) := by
  have tells : Token.Tells ⟨k, .point file c.off, "", .none⟩ [] := by cases k <;> first | rfl | cases isMark
  exact @Ready.token file c c _ _ [] rfl rfl rfl tells more

theorem Ready.marks {k : Kind} (isMark : isMark k = true) (ready : Ready file c ts) : ∀ {us : List Token} {n : Nat},
    us.map Lexeme.token = List.replicate n (.token ⟨k, .point file c.off, "", .none⟩) → Ready file c (us ++ ts)
  | [], _, _ => ready
  | u :: us, 0, marks => by cases marks
  | u :: us, n + 1, marks => by
    rw [List.map_cons, List.replicate_succ] at marks
    obtain ⟨first, others⟩ := List.cons.inj marks
    obtain rfl := Lexeme.token.inj first
    exact .mark isMark (Ready.marks isMark ready others _ _ [] rfl (.last (.nil _)))

theorem Ready.layout {old new : Nat} {us : List Token} (ready : Ready file c ts)
    (marks : us.map Lexeme.token = layout file old new c.off) : Ready file c (us ++ ts) := by
  unfold Lexer.layout at marks
  split at marks
  · exact Ready.marks rfl ready marks
  · exact Ready.marks rfl ready marks

/-- The tokens of a run make up what is left behind the white space before them. -/
theorem Run.ready {depth : Nat} {ls : List Lexeme} (run : Run file depth c ls) (clean : ls = ts.map Lexeme.token) :
    Ready file (skipTrivia c) ts := by
  induction run generalizing ts with
  | @stop depth c atEnd =>
    obtain ⟨us, _, rfl, marks, last⟩ := List.map_eq_append_iff.mp clean.symm
    obtain ⟨_, _, rfl, isEnd, none⟩ := List.map_eq_cons_iff.mp last
    obtain rfl := List.map_eq_nil_iff.mp none
    obtain rfl := Lexeme.token.inj isEnd
    have ready : Ready file (skipTrivia c) [⟨.eof, .point file (skipTrivia c).off, "", .none⟩] :=
      .mark rfl (by rw [atEnd]; exact .done)
    exact ready.layout marks
  | @line depth c ls atBreak more ih =>
    obtain ⟨us, vs, rfl, broken, later⟩ := List.map_eq_append_iff.mp clean.symm
    obtain ⟨behind, shape⟩ := List.head?_eq_some_iff.mp atBreak
    obtain ⟨gap, whole, reaches, isGap⟩ := lineHead_gap 0 ((skipTrivia c).off + 1) ((skipTrivia c).off + 1) behind
    have settled := lineHead_settled 0 ((skipTrivia c).off + 1) ((skipTrivia c).off + 1) behind
    have ready := ih later.symm
    simp only [lineBreak, lineTo, shape, List.drop_one, List.tail_cons] at broken ready
    generalize lineHead 0 ((skipTrivia c).off + 1) ((skipTrivia c).off + 1) behind = head at broken ready whole reaches isGap settled
    rw [settled] at ready
    split at broken
    · obtain ⟨u, us, rfl, isBreak, marks⟩ := List.map_eq_cons_iff.mp broken
      obtain rfl := Lexeme.token.inj isBreak
      have told : utf8 "\n" = [0x0A] := by simp only [utf8_eq]; decide
      refine @Ready.token file (skipTrivia c) ⟨(skipTrivia c).off + 1, behind⟩ _ _ [0x0A] shape rfl rfl told ?_
      rw [whole]
      exact ready.layout marks _ _ gap reaches.symm isGap
    · obtain ⟨u, us, rfl, isError, -⟩ := List.map_eq_cons_iff.mp broken
      cases isError
  | @piece depth c ls inside inLine more ih =>
    obtain ⟨t, ts, rfl, token, later⟩ := List.map_eq_cons_iff.mp clean.symm
    obtain ⟨bytes, split, place, tells⟩ := lexeme_takes file inside t token.symm
    obtain ⟨gap, whole, reaches, trivia⟩ := skipTrivia_gap (lexeme file (skipTrivia c)).2
    have span := (lexeme_covers file (skipTrivia c)).span t (by rw [← token]; rfl)
    refine Ready.token split place span tells ?_
    rw [whole]
    exact ih later.symm _ _ _ reaches.symm (.last trivia)

theorem tokens_of_clean {ls : List Lexeme} (clean : ∀ l ∈ ls, l.token?.isSome = true) : ls = (tokens ls).map Lexeme.token := by
  induction ls with
  | nil => rfl
  | cons l ls ih =>
    obtain ⟨first, others⟩ := List.forall_mem_cons.mp clean
    cases l with
    | token t => exact congrArg _ (ih others)
    | error => cases first

end Runs

/-- A run without a fault makes up the source. -/
theorem Run.makeUp {file : Nat} {source : Bytes} {ls : List Lexeme} (run : Run file 0 ⟨0, source⟩ ls)
    (clean : ∀ l ∈ ls, l.token?.isSome = true) : MakeUp file false 0 source (tokens ls) := by
  obtain ⟨gap, whole, reaches, trivia⟩ := skipTrivia_gap ⟨0, source⟩
  have made := run.ready (tokens_of_clean clean) false 0 gap reaches.symm (.last trivia)
  rwa [← whole] at made

end Lexer

/-- Lexing loses nothing. Where no lexeme of a source is a fault, its tokens make up the source: the gaps between them
    are white space, comments and, behind a line break, blank lines; operators, keywords and numbers are spelled as in the
    source, a name is the normal form of its bytes, and a string is what its literal denotes. -/
theorem lexing_lossless (file : Nat) (source : Bytes) (clean : ∀ l ∈ lexemes file source, l.token?.isSome = true) :
    MakeUp file false 0 source (Lexer.tokens (lexemes file source)) := by
  have run : Lexer.Run file 0 ⟨0, source⟩ (lexemes file source) := Lexer.lexemesFrom_run file (Nat.lt_succ_self _)
  exact run.makeUp clean

/-- Comments on lines of their own and behind code, a carriage return, a malformed byte in a string, and no line break at
    the end. -/
def annotatedText : Bytes :=
  utf8 "fun e() -> i8: // a\n\n\t// b\r\n    return \"\\t" ++ [0xFF] ++ utf8 "\" == 1.5 // c"

theorem lexing_lossless_commented : (∀ l ∈ lexemes 0 annotatedText, l.token?.isSome = true) ∧
    MakeUp 0 false 0 annotatedText (Lexer.tokens (lexemes 0 annotatedText)) := by
  have clean : ((lexemes 0 annotatedText).all fun l => l.token?.isSome) = true := by
    rw [annotatedText, utf8_ofList, utf8_ofList]
    decide +kernel
  exact ⟨List.all_eq_true.mp clean, lexing_lossless 0 annotatedText (List.all_eq_true.mp clean)⟩

end PineLang
