import Mathlib.Data.List.Find
import PineLang.Proofs.CTokens
import PineLang.Proofs.Spelling

/-!
How the tokens of C text are spelled. A text spells tokens before everything that its last token does not
take up (`Spells`), and such texts can be put one behind the other (`Spells.append`).
-/
namespace PineLang.C

/-! ## Heads -/

theorem commentTail_shorter : ∀ {bs rest : Bytes}, commentTail bs = some rest → rest.length < bs.length := by
  intro bs
  fun_induction commentTail bs with
  | case1 => nofun
  | case2 rest =>
    rintro _ ⟨⟩
    simp only [List.length_cons]
    omega
  | case3 b bs _ ih =>
    intro rest found
    have := ih found
    simp only [List.length_cons]
    omega

theorem stringTail_shorter : ∀ {bs inner rest : Bytes}, stringTail bs = some (inner, rest) → rest.length < bs.length := by
  intro bs
  fun_induction stringTail bs with
  | case1 => nofun
  | case2 rest =>
    rintro _ _ ⟨⟩
    simp
  | case3 => nofun
  | case4 => nofun
  | case5 b bs _ ih =>
    intro inner rest found
    obtain ⟨⟨inner', rest'⟩, known, same⟩ := Option.map_eq_some_iff.mp found
    cases same
    have := ih known
    simp only [List.length_cons]
    omega
  | case6 b bs _ _ _ ih =>
    intro inner rest found
    obtain ⟨⟨inner', rest'⟩, known, same⟩ := Option.map_eq_some_iff.mp found
    cases same
    have := ih known
    simp only [List.length_cons]
    omega

theorem spellings_nonempty : ∀ s ∈ Punct.spellings, s.1 ≠ [] := by decide

theorem headPunct_shorter {bs rest : Bytes} {p : Punct} (nonempty : bs ≠ []) (head : headPunct bs = some (p, rest)) :
    rest.length < bs.length := by
  obtain ⟨⟨s, q⟩, found, same⟩ := Option.map_eq_some_iff.mp head
  cases same
  have some := List.length_pos_iff.mpr (spellings_nonempty _ (List.mem_of_find?_eq_some found))
  have long := List.length_pos_iff.mpr nonempty
  have least : 0 < s.length := some
  rw [List.length_drop]
  omega

theorem headToken_shorter {bs rest : Bytes} {t : Option CToken} (head : headToken bs = some (t, rest)) :
    rest.length < bs.length := by
  have run (p : UInt8 → Bool) (cs : Bytes) : (cs.dropWhile p).length < cs.length + 1 :=
    Nat.lt_succ_of_le (List.dropWhile_sublist p).length_le
  cases bs with
  | nil => cases head
  | cons b bs =>
    simp only [headToken] at head
    rw [List.length_cons]
    split at head
    · cases head
      omega
    split at head
    · cases head
      exact run _ bs
    split at head
    · obtain ⟨_, found, same⟩ := Option.map_eq_some_iff.mp head
      cases same
      have := commentTail_shorter found
      rw [List.length_drop] at this
      omega
    split at head
    · obtain ⟨name, -, rest⟩ := Option.bind_eq_some_iff.mp head
      split at rest
      · cases rest
      · cases rest
        exact run _ bs
    split at head
    · cases head
      rw [List.length_drop]
      omega
    split at head
    · obtain ⟨⟨inner, rest⟩, found, same⟩ := Option.map_eq_some_iff.mp head
      cases same
      exact Nat.lt_succ_of_lt (stringTail_shorter found)
    · obtain ⟨⟨p, rest⟩, found, same⟩ := Option.map_eq_some_iff.mp head
      cases same
      exact headPunct_shorter (List.cons_ne_nil b bs) found

/-! ## Tokens one by one -/

theorem tokensWith_eq : ∀ (n m : Nat) (bs : Bytes), bs.length ≤ n → bs.length ≤ m → tokensWith n bs = tokensWith m bs
  | n, m, [], _, _ => by cases n <;> cases m <;> rfl
  | 0, _, b :: bs, enough, _ => by simp at enough
  | _, 0, b :: bs, _, enough => by simp at enough
  | n + 1, m + 1, b :: bs, first, second => by
    rw [List.length_cons] at first second
    simp only [tokensWith]
    cases head : headToken (b :: bs) with
    | none => rfl
    | some found =>
      obtain ⟨t, rest⟩ := found
      have shorter := headToken_shorter head
      rw [List.length_cons] at shorter
      have ih := tokensWith_eq n m rest (by omega) (by omega)
      simp [ih]

theorem tokens_head {bs rest : Bytes} {t : Option CToken} (head : headToken bs = some (t, rest)) :
    tokens bs = (tokens rest).map (t.toList ++ ·) := by
  have shorter := headToken_shorter head
  obtain ⟨b, tail, rfl⟩ : ∃ b tail, bs = b :: tail := by
    cases bs with
    | nil => cases head
    | cons b tail => exact ⟨b, tail, rfl⟩
  rw [List.length_cons] at shorter
  have same := tokensWith_eq tail.length rest.length rest (by omega) (Nat.le_refl _)
  simp only [tokens, List.length_cons, tokensWith, head, Option.bind_eq_bind, Option.bind_some, same]
  cases tokensWith rest.length rest <;> rfl

@[simp] theorem tokens_nil : tokens [] = some [] := rfl

/-- The text spells the tokens before any text that starts with a byte at which they end. -/
def Spells (ends : UInt8 → Bool) (bs : Bytes) (ts : List CToken) : Prop :=
  ∀ rest, (∀ b ∈ rest.head?, ends b = true) → tokens (bs ++ rest) = (tokens rest).map (ts ++ ·)

/-- What ends with anything behind it. -/
def anything (_ : UInt8) : Bool := true

namespace Spells

variable {p q : UInt8 → Bool} {as bs : Bytes} {ss ts : List CToken}

theorem mono (spells : Spells p bs ts) (weaker : ∀ b, q b = true → p b = true) : Spells q bs ts :=
  fun rest ends => spells rest fun b member => weaker b (ends b member)

theorem everywhere (spells : Spells anything bs ts) : Spells q bs ts := spells.mono fun _ _ => rfl

theorem append (first : Spells p as ss) (second : Spells q bs ts) (fits : ∀ b ∈ bs.head?, p b = true) (some : bs ≠ []) :
    Spells q (as ++ bs) (ss ++ ts) := by
  intro rest ends
  have between : ∀ b ∈ (bs ++ rest).head?, p b = true := by
    obtain ⟨b, tail, rfl⟩ := List.exists_cons_of_ne_nil some
    exact fits
  rw [List.append_assoc, first _ between, second rest ends]
  cases tokens rest <;> simp

theorem closed (first : Spells anything as ss) (second : Spells q bs ts) : Spells q (as ++ bs) (ss ++ ts) := by
  intro rest ends
  rw [List.append_assoc, first _ fun _ _ => rfl, second rest ends]
  cases tokens rest <;> simp

theorem whole (spells : Spells p bs ts) : tokens bs = some ts := by
  have := spells [] nofun
  simpa using this

theorem nil : Spells q [] [] := by
  intro rest _
  rw [List.nil_append]
  cases tokens rest <;> rfl

/-- White space spells nothing. -/
theorem space {b : UInt8} (blank : isSpace b = true) : Spells q [b] [] := by
  intro rest _
  have head : headToken (b :: rest) = some (none, rest) := by simp [headToken, blank]
  rw [List.singleton_append, tokens_head head]
  rfl

theorem spaces (n : Nat) : Spells q (List.replicate n 0x20) [] := by
  induction n with
  | zero => exact nil
  | succ n ih => exact (space (q := anything) rfl).closed ih

end Spells

/-! ## Punctuators -/

/-- With this byte behind it, the punctuator would be part of something longer. -/
def Punct.grows (p : Punct) (b : UInt8) : Bool :=
  (Punct.spellings.any fun s => (p.bytes ++ [b]).isPrefixOf (asciiBytes s.1)) ||
    (p == .slash && (b == 0x2F || b == 0x2A)) || (p == .dot && isDigit b)

theorem bytes_found (p : Punct) :
    (Punct.spellings.find? fun s => (asciiBytes s.1).isPrefixOf p.bytes).map (fun s => (s.2, s.1.length)) =
      some (p, p.bytes.length) := by
  cases p <;> decide

theorem headPunct_append (p : Punct) {rest : Bytes} (ends : ∀ b ∈ rest.head?, p.grows b = false) :
    headPunct (p.bytes ++ rest) = some (p, rest) := by
  have same : ∀ s ∈ Punct.spellings,
      (asciiBytes s.1).isPrefixOf (p.bytes ++ rest) = (asciiBytes s.1).isPrefixOf p.bytes := by
    intro s member
    rw [Bool.eq_iff_iff, List.isPrefixOf_iff_prefix, List.isPrefixOf_iff_prefix]
    refine ⟨fun longer => ?_, fun shorter => shorter.trans (List.prefix_append _ _)⟩
    obtain shorter | ⟨more, spelled⟩ := List.prefix_or_prefix_of_prefix longer (List.prefix_append p.bytes rest)
    · exact shorter
    cases more with
    | nil =>
      have whole : asciiBytes s.1 = p.bytes := by rw [← spelled, List.append_nil]
      exact whole ▸ List.prefix_rfl
    | cons b more =>
      -- The spelling goes on into the text behind the punctuator.
      obtain ⟨others, whole⟩ := longer
      rw [← spelled, List.append_assoc, List.append_cancel_left_eq] at whole
      have stops := ends b (by rw [← whole]; rfl)
      have within : (p.bytes ++ [b]).isPrefixOf (asciiBytes s.1) = true := by
        rw [List.isPrefixOf_iff_prefix, ← spelled]
        exact ⟨more, by simp⟩
      have any : (Punct.spellings.any fun s => (p.bytes ++ [b]).isPrefixOf (asciiBytes s.1)) = true :=
        List.any_eq_true.mpr ⟨s, member, within⟩
      simp [Punct.grows, any] at stops
  have found := bytes_found p
  rw [headPunct, List.find?_congr same]
  obtain ⟨⟨s, q⟩, known, pair⟩ := Option.map_eq_some_iff.mp found
  obtain ⟨rfl, width⟩ := Prod.mk.inj pair
  have long : s.length = q.bytes.length := width
  simp only [known, Option.map_some, long, List.drop_left]

theorem bytes_classes (p : Punct) : ∃ b tail, p.bytes = b :: tail ∧ isSpace b = false ∧ isWordStart b = false ∧
    isDigit b = false ∧ b ≠ 0x22 ∧ ∀ c ∈ tail.head?, (b = 0x2F → c ≠ 0x2F ∧ c ≠ 0x2A) ∧ (b = 0x2E → isDigit c = false) := by
  cases p <;> exact ⟨_, _, rfl, by decide⟩

theorem bytes_single : ∀ p : Punct, (p.bytes = [0x2F] → p = .slash) ∧ (p.bytes = [0x2E] → p = .dot) := by
  intro p
  cases p <;> decide

/-- A byte that does not make the punctuator longer. -/
def Punct.ends (p : Punct) (b : UInt8) : Bool := !p.grows b

/-- Neither a comment nor a number begins where a punctuator stands. -/
theorem bytes_second {p : Punct} {b : UInt8} {tail rest : Bytes} (spelled : p.bytes = b :: tail)
    (ends : ∀ c ∈ rest.head?, p.grows c = false) :
    ∀ c ∈ (tail ++ rest).head?, (b = 0x2F → c ≠ 0x2F ∧ c ≠ 0x2A) ∧ (b = 0x2E → isDigit c = false) := by
  intro c next
  cases tail with
  | cons d tail =>
    obtain ⟨_, _, same, -, -, -, -, second⟩ := bytes_classes p
    obtain ⟨rfl, rfl⟩ := List.cons.inj (spelled.symm.trans same)
    exact second c next
  | nil =>
    have known := ends c next
    simp only [Punct.grows, Bool.or_eq_false_iff] at known
    refine ⟨fun slash => ?_, fun point => ?_⟩
    · obtain rfl := (bytes_single p).1 (slash ▸ spelled)
      simpa using known.1.2
    · obtain rfl := (bytes_single p).2 (point ▸ spelled)
      simpa using known.2

theorem Spells.punct (p : Punct) : Spells p.ends p.bytes [.punct p] := by
  intro rest ends
  have stops : ∀ b ∈ rest.head?, p.grows b = false := fun b member => by simpa [Punct.ends] using ends b member
  have found := headPunct_append p stops
  obtain ⟨b, tail, spelled, notSpace, notWord, notDigit, notQuote, -⟩ := bytes_classes p
  have second := bytes_second spelled stops
  rw [spelled, List.cons_append] at found ⊢
  have lineComment : (b == 0x2F && (tail ++ rest).head? == some 0x2F) = false := by
    by_contra comment
    obtain ⟨slash, next⟩ : b = 0x2F ∧ (tail ++ rest).head? = some 0x2F := by
      simpa only [Bool.not_eq_false, Bool.and_eq_true, beq_iff_eq] using comment
    exact ((second _ next).1 slash).1 rfl
  have comment : (b == 0x2F && (tail ++ rest).head? == some 0x2A) = false := by
    by_contra comment
    obtain ⟨slash, next⟩ : b = 0x2F ∧ (tail ++ rest).head? = some 0x2A := by
      simpa only [Bool.not_eq_false, Bool.and_eq_true, beq_iff_eq] using comment
    exact ((second _ next).1 slash).2 rfl
  have number : (isDigit b || (b == 0x2E && (tail ++ rest).head?.any isDigit)) = false := by
    rw [notDigit, Bool.false_or]
    by_contra number
    obtain ⟨point, c, next, digit⟩ : b = 0x2E ∧ ∃ c, (tail ++ rest).head? = some c ∧ isDigit c = true := by
      simpa [Option.any_eq_true] using number
    exact absurd ((second c next).2 point) (by simp [digit])
  have quote : (b == 0x22) = false := by simpa using notQuote
  have head : headToken (b :: (tail ++ rest)) = some (some (.punct p), rest) := by
    simp only [headToken, notSpace, lineComment, comment, notWord, number, quote, found, Bool.false_eq_true, if_false,
      Option.map_some]
  rw [tokens_head head]
  rfl

/-- Bytes that make some punctuator longer. -/
def Punct.laterBytes : Bytes := Punct.spellings.flatMap fun s => (asciiBytes s.1).tail

theorem grows_cases {p : Punct} {b : UInt8} (grows : p.grows b = true) :
    (∃ s ∈ Punct.spellings, p.bytes ++ [b] <+: asciiBytes s.1) ∨ b = 0x2F ∨ b = 0x2A ∨ p = .dot ∧ isDigit b = true := by
  simp only [Punct.grows, Bool.or_eq_true, Bool.and_eq_true, beq_iff_eq, List.any_eq_true, List.isPrefixOf_iff_prefix] at grows
  obtain (longer | ⟨-, rfl | rfl⟩) | number := grows
  · exact .inl longer
  · exact .inr (.inl rfl)
  · exact .inr (.inr (.inl rfl))
  · exact .inr (.inr (.inr number))

theorem ends_of_other {p : Punct} {b : UInt8} (other : b ∉ Punct.laterBytes) (noComment : b ≠ 0x2F ∧ b ≠ 0x2A)
    (noNumber : p = .dot → isDigit b = false) : p.ends b = true := by
  rw [Punct.ends, Bool.not_eq_true', ← Bool.not_eq_true]
  intro grows
  obtain ⟨s, member, rest, longer⟩ | rfl | rfl | ⟨isDot, digit⟩ := grows_cases grows
  · obtain ⟨c, tail, spelled, -⟩ := bytes_classes p
    refine other (List.mem_flatMap.mpr ⟨s, member, ?_⟩)
    rw [← longer, spelled]
    simp
  · exact noComment.1 rfl
  · exact noComment.2 rfl
  · rw [noNumber isDot] at digit
    cases digit

/-- Punctuators that nothing behind them makes longer. -/
def Punct.complete : List Punct :=
  [.lparen, .rparen, .lbracket, .rbracket, .lbrace, .rbrace, .comma, .semicolon, .tilde, .arrow, .inc, .dec]

theorem grows_complete {p : Punct} (complete : p ∈ Punct.complete) (b : UInt8) : p.grows b = false := by
  have longest : ∀ p ∈ Punct.complete, ∀ s ∈ Punct.spellings, p.bytes.isPrefixOf (asciiBytes s.1) = true →
      (asciiBytes s.1).length = p.bytes.length := by decide
  have alone : ∀ p ∈ Punct.complete, p ≠ .slash ∧ p ≠ .dot := by decide
  have none : (Punct.spellings.any fun s => (p.bytes ++ [b]).isPrefixOf (asciiBytes s.1)) = false := by
    rw [List.any_eq_false]
    intro s member longer
    have within := List.isPrefixOf_iff_prefix.mp longer
    have short := longest p complete s member (List.isPrefixOf_iff_prefix.mpr ((List.prefix_append _ _).trans within))
    have long := within.length_le
    rw [List.length_append, List.length_singleton] at long
    omega
  simp [Punct.grows, none, alone p complete]

theorem Spells.mark {p : Punct} (complete : p ∈ Punct.complete) : Spells anything p.bytes [.punct p] :=
  (punct p).mono fun b _ => by simp [Punct.ends, grows_complete complete]

/-! ## Words -/

/-- A character of a C word. Whatever lies beyond ASCII counts as a letter. -/
def isWordChar (c : Char) : Bool := 0x80 ≤ c.toNat || isWordPart (UInt8.ofNat c.toNat)

/-- A character that a C word can start with. -/
def isWordHead (c : Char) : Bool := 0x80 ≤ c.toNat || isWordStart (UInt8.ofNat c.toNat)

/-- The name is a word of C, as far as its characters go. -/
def isWord (n : String) : Bool :=
  match n.toList with
  | [] => false
  | c :: cs => isWordHead c && cs.all isWordChar

/-- Bytes that end a word. A quote would make some words the prefix of a string. -/
def endsWord (b : UInt8) : Bool := !isWordPart b && b != 0x22

theorem encode_small {c : Char} (ascii : c.toNat < 0x80) : String.utf8EncodeChar c = [UInt8.ofNat c.toNat] := by
  have small : (UInt8.ofNat c.toNat).toNat = c.toNat := UInt8.toNat_ofNat_of_lt' (Nat.lt_trans ascii (by decide))
  have encoded := encode_ascii (b := UInt8.ofNat c.toNat) (UInt8.lt_iff_toNat_lt.mpr (by rw [small]; exact ascii))
  rwa [small, Char.ofNat_toNat] at encoded

/-- A string of ASCII characters has a byte for each. -/
theorem utf8_ascii {cs : List Char} (ascii : ∀ c ∈ cs, c.toNat < 0x80) : utf8 (String.ofList cs) = asciiBytes cs := by
  rw [utf8_ofList]
  induction cs with
  | nil => rfl
  | cons c cs ih =>
    rw [List.forall_mem_cons] at ascii
    rw [List.flatMap_cons, encode_small ascii.1, ih ascii.2]
    rfl

theorem encode_large {c : Char} (beyond : 0x80 ≤ c.toNat) : ∀ b ∈ String.utf8EncodeChar c, 0x80 ≤ b := by
  have high {n m : Nat} (m_lower : 0x80 ≤ m) (m_upper : m < 256) (same : n = m) : (0x80 : UInt8) ≤ UInt8.ofNat n := by
    rw [UInt8.le_iff_toNat_le, same, UInt8.toNat_ofNat_of_lt' m_upper]
    exact m_lower
  have code : c.val.toNat = c.toNat := rfl
  fun_cases String.utf8EncodeChar c with
  | case1 v one => omega
  | case2 v =>
    simp only [List.forall_mem_cons, List.not_mem_nil, false_implies, implies_true, and_true]
    exact ⟨high (by omega) (by omega) rfl, high (by omega) (by omega) rfl⟩
  | case3 v =>
    simp only [List.forall_mem_cons, List.not_mem_nil, false_implies, implies_true, and_true]
    exact ⟨high (by omega) (by omega) rfl, high (by omega) (by omega) rfl, high (by omega) (by omega) rfl⟩
  | case4 v =>
    simp only [List.forall_mem_cons, List.not_mem_nil, false_implies, implies_true, and_true]
    exact ⟨high (by omega) (by omega) rfl, high (by omega) (by omega) rfl, high (by omega) (by omega) rfl,
      high (by omega) (by omega) rfl⟩

theorem encode_part {c : Char} (part : isWordChar c = true) : ∀ b ∈ String.utf8EncodeChar c, isWordPart b = true := by
  by_cases beyond : 0x80 ≤ c.toNat
  · intro b member
    simp [isWordPart, isWordStart, encode_large beyond b member]
  · rw [encode_small (by omega)]
    simpa [isWordChar, beyond] using part

theorem encode_head {c : Char} (head : isWordHead c = true) : ∃ b tail, String.utf8EncodeChar c = b :: tail ∧
    isWordStart b = true ∧ ∀ d ∈ tail, isWordPart d = true := by
  by_cases beyond : 0x80 ≤ c.toNat
  · obtain ⟨b, tail, encoded⟩ := List.exists_cons_of_ne_nil (@String.utf8EncodeChar_ne_nil c)
    have large := encode_large beyond
    rw [encoded, List.forall_mem_cons] at large
    refine ⟨b, tail, encoded, by simp [isWordStart, large.1], fun d member => ?_⟩
    simp [isWordPart, isWordStart, large.2 d member]
  · refine ⟨_, [], encode_small (by omega), ?_, nofun⟩
    simpa [isWordHead, beyond] using head

theorem bytes_of_isWord {n : String} (word : isWord n = true) : ∃ b tail, utf8 n = b :: tail ∧ isWordStart b = true ∧
    ∀ d ∈ tail, isWordPart d = true := by
  rw [utf8_eq]
  unfold isWord at word
  split at word
  · cases word
  · next c cs shape =>
    obtain ⟨first, others⟩ := Bool.and_eq_true_iff.mp word
    obtain ⟨b, tail, encoded, starts, parts⟩ := encode_head first
    refine ⟨b, tail ++ cs.flatMap String.utf8EncodeChar, by simp [shape, encoded], starts, ?_⟩
    rw [List.forall_mem_append]
    refine ⟨parts, fun d member => ?_⟩
    obtain ⟨c, inside, within⟩ := List.mem_flatMap.mp member
    exact encode_part (List.all_eq_true.mp others c inside) d within

theorem unitsFrom_skip : ∀ (bs rest : Bytes), Text.unitsFrom bs.length (bs ++ rest) = Text.unitsFrom 0 rest
  | [], _ => rfl
  | _ :: bs, rest => unitsFrom_skip bs rest

theorem units_utf8 : ∀ cs : List Char, Text.units (cs.flatMap String.utf8EncodeChar) = cs.map .char
  | [] => rfl
  | c :: cs => by
    have decoded := Text.decodeHead_encode c (cs.flatMap String.utf8EncodeChar)
    have ih := units_utf8 cs
    obtain ⟨b, tail, encoded⟩ := List.exists_cons_of_ne_nil (@String.utf8EncodeChar_ne_nil c)
    -- One byte stands for itself only if it is ASCII.
    have known : ¬ (((b :: tail).length == 1 && decide (b ≥ 0x80)) = true) := by
      intro stray
      obtain ⟨single, high⟩ : tail = [] ∧ 0x80 ≤ b := by simpa using stray
      by_cases beyond : 0x80 ≤ c.toNat
      · have : (String.utf8EncodeChar c).length ≠ 1 := by
          fun_cases String.utf8EncodeChar c with
          | case1 v one => exact absurd one (by have : c.val.toNat = c.toNat := rfl; omega)
          | case2 => simp
          | case3 => simp
          | case4 => simp
        exact this (by rw [encoded, single]; rfl)
      · have small := encode_small (c := c) (by omega)
        obtain ⟨rfl, -⟩ := List.cons.inj (encoded.symm.trans small)
        rw [UInt8.le_iff_toNat_le, UInt8.toNat_ofNat_of_lt' (by omega : c.toNat < 256)] at high
        exact beyond high
    rw [encoded, List.cons_append] at decoded
    rw [List.flatMap_cons, encoded, List.cons_append, Text.units, Text.unitsFrom, decoded]
    simp only [if_neg known, List.map_cons]
    rw [List.length_cons, Nat.add_sub_cancel, unitsFrom_skip]
    exact congrArg _ ih

theorem string_utf8 (s : String) : Text.string? (utf8 s) = some s := by
  have units : Text.units (utf8 s) = s.toList.map .char := by rw [utf8_eq, units_utf8]
  have valid : Text.isUtf8 (utf8 s) = true := by simp [Text.isUtf8, units]
  rw [Text.string?, if_pos valid, Text.lossy, Text.chars, units, List.map_map]
  simp [Function.comp_def, Text.Unit8.toChar]

theorem Spells.word {n : String} (word : isWord n = true) : Spells endsWord (utf8 n) [.word n] := by
  intro rest ends
  obtain ⟨b, tail, spelled, starts, parts⟩ := bytes_of_isWord word
  have stops : ∀ c ∈ rest.head?, isWordPart c = false := fun c member => by
    have := ends c member
    simp only [endsWord, Bool.and_eq_true, Bool.not_eq_true'] at this
    exact this.1
  have noQuote : (rest.head? == some 0x22) = false := by
    by_contra quote
    have := ends 0x22 (by simpa using quote)
    exact absurd this (by decide)
  have taken : (tail ++ rest).takeWhile isWordPart = tail := by
    rw [List.takeWhile_append_of_pos parts]
    cases rest with
    | nil => simp
    | cons c rest => simp [stops c rfl]
  have left : (tail ++ rest).dropWhile isWordPart = rest := by
    rw [List.dropWhile_append_of_pos parts]
    cases rest with
    | nil => rfl
    | cons c rest => simp [stops c rfl]
  have classes : isSpace b = false ∧ (b == 0x2F) = false := by
    simp only [isWordStart, isSpace, Bool.or_eq_true, Bool.and_eq_true, decide_eq_true_eq, beq_iff_eq] at starts ⊢
    grind
  have name := string_utf8 n
  rw [spelled] at name ⊢
  have head : headToken (b :: tail ++ rest) = some (some (.word n), rest) := by
    simp only [headToken, List.cons_append, classes, starts, taken, left, name, noQuote, Bool.false_and, Bool.false_eq_true,
      if_false, if_true, Option.bind_eq_bind, Option.bind_some]
  rw [tokens_head head]
  rfl

end PineLang.C
