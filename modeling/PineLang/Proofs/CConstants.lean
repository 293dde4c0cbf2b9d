import PineLang.C.Printer
import PineLang.Proofs.CReader
import PineLang.Proofs.CSpelling

/-!
Constants are read back from their spelling: whole numbers that are not negative, text whatever bytes it
has, and floats as far as their digits give back the float (`floatValue?`).
-/
namespace PineLang.C

/-! ## Numbers as tokens -/

/-- Bytes that end a number. -/
def endsNumber (b : UInt8) : Bool := !isWordPart b && b != 0x2E && !isSign b

/-- The bytes are one number. -/
def IsNumber (text : Bytes) : Prop := ∃ b tail, text = b :: tail ∧ isDigit b = true ∧ numberTail b tail = tail

theorem not_continues {previous b : UInt8} (ends : endsNumber b = true) : continuesNumber previous b = false := by
  simp only [endsNumber, Bool.and_eq_true, Bool.not_eq_true', bne_iff_ne] at ends
  obtain ⟨⟨notPart, notPoint⟩, notSign⟩ := ends
  simp [continuesNumber, notPart, notPoint, notSign]

theorem numberTail_append : ∀ {previous : UInt8} {tail rest : Bytes}, numberTail previous tail = tail →
    (∀ b ∈ rest.head?, endsNumber b = true) → numberTail previous (tail ++ rest) = tail
  | previous, [], rest, _, ends => by
    cases rest with
    | nil => rfl
    | cons b rest => simp [numberTail, not_continues (ends b rfl)]
  | previous, b :: tail, rest, taken, ends => by
    have continues : continuesNumber previous b = true := by
      by_contra stops
      simp [numberTail, stops] at taken
    simp only [numberTail, continues, if_true, List.cons.injEq, true_and, List.cons_append] at taken ⊢
    exact numberTail_append taken ends

theorem numberTail_parts : ∀ {previous : UInt8} {bs more : Bytes}, (∀ b ∈ bs, isWordPart b = true ∨ b = 0x2E) →
    (∀ last, numberTail last more = more) → numberTail previous (bs ++ more) = bs ++ more
  | _, [], _, _, rest => rest _
  | previous, b :: bs, more, parts, rest => by
    have continues : continuesNumber previous b = true := by
      obtain part | point := parts b (List.mem_cons_self ..)
      · simp [continuesNumber, part]
      · simp [continuesNumber, point]
    rw [List.cons_append, numberTail, if_pos continues,
      numberTail_parts (fun c member => parts c (List.mem_cons_of_mem b member)) rest]

theorem digit_part {b : UInt8} (digit : isDigit b = true) : isWordPart b = true := by simp [isWordPart, digit]

theorem Spells.number {text : Bytes} (number : IsNumber text) : Spells endsNumber text [.number text] := by
  intro rest ends
  obtain ⟨b, tail, rfl, digit, taken⟩ := number
  have classes : isSpace b = false ∧ (b == 0x2F) = false ∧ isWordStart b = false := by
    simp only [isDigit, isSpace, isWordStart, Bool.and_eq_true, decide_eq_true_eq] at digit ⊢
    grind
  have whole := numberTail_append taken ends
  have head : headToken (b :: tail ++ rest) = some (some (.number (b :: tail)), rest) := by
    simp only [headToken, List.cons_append, classes, digit, whole, List.drop_left, Bool.false_and, Bool.true_or,
      Bool.false_eq_true, if_false, if_true]
  rw [tokens_head head]
  rfl

/-! ## Whole numbers -/

/-- The decimal digits of a number. -/
def decimal (n : Nat) : Bytes := asciiBytes (Nat.toDigits 10 n)

theorem decimal_chars {n : Nat} {c : Char} (member : c ∈ Nat.toDigits 10 n) : 0x30 ≤ c.toNat ∧ c.toNat ≤ 0x39 := by
  have digit := Nat.isDigit_of_mem_toDigits (by decide) (by decide) member
  simp only [Char.isDigit, Bool.and_eq_true, decide_eq_true_eq] at digit
  exact ⟨UInt32.le_iff_toNat_le.mp digit.1, UInt32.le_iff_toNat_le.mp digit.2⟩

theorem utf8_toString (n : Nat) : utf8 (toString n) = decimal n := by
  rw [Nat.toString_eq_ofList_toDigits, utf8_ascii fun c member => Nat.lt_of_le_of_lt (decimal_chars member).2 (by decide)]
  rfl

theorem toNat_ofNat {n : Nat} (small : n < 256) : (UInt8.ofNat n).toNat = n := UInt8.toNat_ofNat_of_lt' small

theorem decimal_digits {n : Nat} : ∀ b ∈ decimal n, isDigit b = true := by
  intro b member
  obtain ⟨c, inside, rfl⟩ := List.mem_map.mp member
  have bounds := decimal_chars inside
  simp only [isDigit, Bool.and_eq_true, decide_eq_true_eq, UInt8.le_iff_toNat_le, toNat_ofNat (by omega : c.toNat < 256)]
  exact bounds

theorem decimal_nonempty (n : Nat) : decimal n ≠ [] := by
  rw [decimal, asciiBytes, Ne, List.map_eq_nil_iff]
  exact Nat.toDigits_ne_nil

/-- Only zero is spelled with a zero at the head. -/
theorem decimal_head : ∀ {n : Nat}, n ≠ 0 → (decimal n).head? ≠ some 0x30 := by
  intro n
  induction n using Nat.strong_induction_on with
  | _ n ih =>
    intro positive
    have shape := Nat.toDigits_eq_if (b := 10) (n := n) (by decide)
    split at shape
    · next small =>
      have digits : ∀ k < 10, k ≠ 0 → UInt8.ofNat (Nat.digitChar k).toNat ≠ 0x30 := by decide
      simpa [decimal, asciiBytes, shape] using digits n small positive
    · next large =>
      have first := ih (n / 10) (by omega) (by omega)
      have some := decimal_nonempty (n / 10)
      obtain ⟨b, tail, spelled⟩ := List.exists_cons_of_ne_nil some
      have whole : decimal n = decimal (n / 10) ++ asciiBytes [(n % 10).digitChar] := by
        simp [decimal, asciiBytes, shape]
      rw [whole, spelled, List.cons_append]
      rw [spelled] at first
      exact first

theorem digitsIn_ascii (base : Nat) : ∀ (cs : List Char) (init : Nat), (∀ c ∈ cs, c.toNat < 256) →
    (asciiBytes cs).foldl (fun n d => n * base + (d.toNat - 0x30)) init = Nat.ofDigitChars base cs init
  | [], _, _ => rfl
  | c :: cs, init, small => by
    rw [List.forall_mem_cons] at small
    rw [asciiBytes, List.map_cons, List.foldl_cons, toNat_ofNat small.1, Nat.ofDigitChars_cons, Nat.mul_comm]
    exact digitsIn_ascii base cs _ small.2

theorem digitsIn_decimal (n : Nat) : digitsIn 10 (decimal n) = n := by
  rw [digitsIn, decimal, digitsIn_ascii 10 _ _ fun c member => Nat.lt_of_le_of_lt (decimal_chars member).2 (by decide),
    Nat.ofDigitChars_ten_toDigits]

theorem wholeValue_decimal (n : Nat) : wholeValue? (decimal n) = some n := by
  by_cases zero : n = 0
  · subst zero
    decide
  · have head := decimal_head zero
    unfold wholeValue?
    split
    · next more spelled =>
      rw [spelled] at head
      exact absurd rfl head
    · rw [digitsIn_decimal]

theorem decimal_number {n : Nat} {suffix : Bytes} (letters : ∀ b ∈ suffix, isWordPart b = true) :
    IsNumber (decimal n ++ suffix) := by
  obtain ⟨b, tail, spelled⟩ := List.exists_cons_of_ne_nil (decimal_nonempty n)
  have digits := @decimal_digits n
  rw [spelled, List.forall_mem_cons] at digits
  refine ⟨b, tail ++ suffix, by rw [spelled, List.cons_append], digits.1, ?_⟩
  have parts : ∀ c ∈ tail ++ suffix, isWordPart c = true ∨ c = 0x2E := by
    rw [List.forall_mem_append]
    exact ⟨fun c member => .inl (digit_part (digits.2 c member)), fun c member => .inl (letters c member)⟩
  have whole : numberTail b (tail ++ suffix ++ []) = tail ++ suffix ++ [] := numberTail_parts parts fun _ => rfl
  rwa [List.append_nil] at whole

theorem dropWhile_decimal (n : Nat) (suffix : Bytes) (stops : ∀ b ∈ suffix.head?, isDigit b = false) :
    (decimal n ++ suffix).dropWhile isDigit = suffix ∧ (decimal n ++ suffix).takeWhile isDigit = decimal n := by
  rw [List.dropWhile_append_of_pos decimal_digits, List.takeWhile_append_of_pos decimal_digits]
  cases suffix with
  | nil => simp
  | cons b suffix => simp [stops b rfl]

theorem decimal_isNumber (n : Nat) : IsNumber (decimal n) := by
  have number := @decimal_number n [] (List.forall_mem_nil _)
  rwa [List.append_nil] at number

/-- Digits are a signed integer as far as those go. -/
theorem number_decimal (n : Nat) : number? (decimal n) = if n < 0x8000000000000000 then some (.int (Int64.ofNat n)) else none := by
  have nonempty : (decimal n).isEmpty = false := by simpa using decimal_nonempty n
  have parts := dropWhile_decimal n [] nofun
  rw [List.append_nil] at parts
  simp only [number?, nonempty, parts.1, wholeValue_decimal, Bool.false_eq_true, if_false, List.isEmpty_nil, if_true,
    Option.bind_some]

theorem number_int {n : Nat} (bound : n < 0x8000000000000000) : number? (decimal n) = some (.int (Int64.ofNat n)) := by
  rw [number_decimal, if_pos bound]

theorem number_uint {n : Nat} (bound : n < 0x10000000000000000) :
    number? (decimal n ++ [0x55, 0x4C, 0x4C]) = some (.uint (UInt64.ofNat n)) := by
  have nonempty : (decimal n ++ [0x55, 0x4C, 0x4C]).isEmpty = false := by simp
  have parts := dropWhile_decimal n [0x55, 0x4C, 0x4C] (by rintro b ⟨⟩; rfl)
  simp only [number?, nonempty, parts.1, parts.2, wholeValue_decimal, Bool.false_eq_true, if_false, beq_self_eq_true, if_true,
    Option.bind_some, bound, List.isEmpty_cons]

/-! ## Floats -/

theorem digits_tail {digits : Bytes} (all : ∀ b ∈ digits, isDigit b = true) (last : UInt8) : numberTail last digits = digits := by
  have parts : ∀ c ∈ digits, isWordPart c = true ∨ c = 0x2E := fun c member => .inl (digit_part (all c member))
  have whole : numberTail last (digits ++ []) = digits ++ [] := numberTail_parts parts fun _ => rfl
  rwa [List.append_nil] at whole

theorem unsigned_tail {bs : Bytes} {last : UInt8} (exponent : isExponent last = true)
    (all : ∀ b ∈ (unsigned bs).2, isDigit b = true) : numberTail last bs = bs := by
  unfold unsigned at all
  split at all
  · rw [numberTail, if_pos (by simp [continuesNumber, exponent, isSign]), digits_tail all]
  · rw [numberTail, if_pos (by simp [continuesNumber, exponent, isSign]), digits_tail all]
  · exact digits_tail all last

theorem exponent_tail {text : Bytes} {e : Int} (read : exponent? text = some e) (last : UInt8) :
    numberTail last text = text ∧ ∀ b ∈ text.head?, b = 0x65 ∨ b = 0x45 := by
  cases text with
  | nil => exact ⟨rfl, nofun⟩
  | cons b rest =>
    unfold exponent? at read
    obtain ⟨known, -⟩ := Option.ite_none_right_eq_some.mp read
    simp only [Bool.and_eq_true, Bool.or_eq_true, beq_iff_eq, List.all_eq_true] at known
    obtain ⟨⟨letter, -⟩, digits⟩ := known
    have classes : continuesNumber last b = true ∧ isExponent b = true := by
      obtain rfl | rfl := letter <;> exact ⟨rfl, rfl⟩
    refine ⟨?_, by simpa using letter⟩
    rw [numberTail, if_pos classes.1, unsigned_tail classes.2 digits]

theorem takeWhile_digits {bs : Bytes} : ∀ b ∈ bs.takeWhile isDigit, isDigit b = true :=
  List.all_eq_true.mp List.all_takeWhile

theorem fraction_tail {rest : Bytes} {e : Int} (exponent : exponent? (fraction rest).2 = some e) (last : UInt8) :
    numberTail last rest = rest ∧ ∀ b ∈ rest.head?, b = 0x2E ∨ b = 0x65 ∨ b = 0x45 := by
  unfold fraction at exponent
  split at exponent
  · next more =>
    have parts : ∀ c ∈ more.takeWhile isDigit, isWordPart c = true ∨ c = 0x2E :=
      fun c member => .inl (digit_part (takeWhile_digits c member))
    have all : numberTail 0x2E (more.takeWhile isDigit ++ more.dropWhile isDigit) = _ :=
      numberTail_parts parts fun last => (exponent_tail exponent last).1
    rw [List.takeWhile_append_dropWhile] at all
    refine ⟨?_, by simp⟩
    rw [numberTail, if_pos (by simp [continuesNumber]), all]
  · exact ⟨(exponent_tail exponent last).1, fun b member => .inr ((exponent_tail exponent last).2 b member)⟩

/-- What has the value of a float is one number, and is read as that float. -/
theorem number_float {text : Bytes} {x : Double} (read : floatValue? text = some x) :
    IsNumber text ∧ number? text = some (.float x) := by
  have value := read
  have parted := List.takeWhile_append_dropWhile (p := isDigit) (l := text)
  have digits := @takeWhile_digits text
  unfold floatValue? at read
  obtain ⟨known, read⟩ := Option.ite_none_left_eq_some.mp read
  simp only [Bool.or_eq_true, List.isEmpty_iff, not_or] at known
  obtain ⟨e, exponent, -⟩ := Option.bind_eq_some_iff.mp read
  have behind := fraction_tail exponent
  have notSuffix : (text.dropWhile isDigit == [0x55, 0x4C, 0x4C]) = false := by
    by_contra suffix
    have same : text.dropWhile isDigit = [0x55, 0x4C, 0x4C] := by simpa using suffix
    exact absurd ((behind 0).2 0x55 (by rw [same]; rfl)) (by decide)
  have notWhole : (text.dropWhile isDigit).isEmpty = false := by simpa using known.2
  have nonempty : text.isEmpty = false := by
    cases text with
    | nil => exact absurd rfl known.1
    | cons b tail => rfl
  refine ⟨?_, by simp only [number?, nonempty, notWhole, notSuffix, value, Bool.false_eq_true, if_false, Option.map_some]⟩
  obtain ⟨b, tail, first⟩ := List.exists_cons_of_ne_nil known.1
  rw [first, List.forall_mem_cons] at digits
  rw [first, List.cons_append] at parted
  refine ⟨b, _, parted.symm, digits.1, numberTail_parts (fun c member => .inl (digit_part (digits.2 c member))) fun last => ?_⟩
  exact (behind last).1

/-! ## Text -/

/-- The bytes of an escape, and what they stand for whatever follows. -/
def IsEscape (spelled : Bytes) (b : UInt8) : Prop :=
  ∃ e tail, spelled = 0x5C :: e :: tail ∧ e ≠ 0x0A ∧ (∀ c ∈ tail, c ≠ 0x0A ∧ c ≠ 0x22 ∧ c ≠ 0x5C) ∧
    ∀ rest, escaped? (e :: tail ++ rest) = some (b, (e :: tail).length)

theorem IsEscape.letter {e b : UInt8} (known : (e, b) ∈ escapes) : IsEscape [0x5C, e] b := by
  have every : (escapes.all fun s => decide (s.1 ≠ 0x0A ∧ escapes.lookup s.1 = some s.2)) = true := by decide
  obtain ⟨inLine, found⟩ := of_decide_eq_true (List.all_eq_true.mp every _ known)
  refine ⟨e, [], rfl, inLine, nofun, fun rest => ?_⟩
  simp [escaped?, found]

theorem octal_spelling : ∀ n < 256, utf8 (octalEscape (UInt8.ofNat n)) =
    [0x5C, UInt8.ofNat (0x30 + n / 64), UInt8.ofNat (0x30 + n / 8 % 8), UInt8.ofNat (0x30 + n % 8)] := by
  intro n small
  rw [octalEscape, utf8_ofList, toNat_ofNat small]
  revert n
  decide +kernel

/-- An octal digit is no letter or sign with a meaning of its own. -/
theorem octal_digit : ∀ d < 8, escapes.lookup (UInt8.ofNat (0x30 + d)) = none ∧ isOctal (UInt8.ofNat (0x30 + d)) = true ∧
    (UInt8.ofNat (0x30 + d)).toNat - 0x30 = d ∧
    (UInt8.ofNat (0x30 + d) ≠ 0x0A ∧ UInt8.ofNat (0x30 + d) ≠ 0x22 ∧ UInt8.ofNat (0x30 + d) ≠ 0x5C) := by
  decide

/-- Three octal digits are no letter or sign with a meaning of its own, and have the value they spell. -/
theorem octal_value (n : Nat) (small : n < 256) : escapes.lookup (UInt8.ofNat (0x30 + n / 64)) = none ∧
    [UInt8.ofNat (0x30 + n / 64), UInt8.ofNat (0x30 + n / 8 % 8), UInt8.ofNat (0x30 + n % 8)].takeWhile isOctal =
      [UInt8.ofNat (0x30 + n / 64), UInt8.ofNat (0x30 + n / 8 % 8), UInt8.ofNat (0x30 + n % 8)] ∧
    digitsIn 8 [UInt8.ofNat (0x30 + n / 64), UInt8.ofNat (0x30 + n / 8 % 8), UInt8.ofNat (0x30 + n % 8)] = n ∧
    UInt8.ofNat (0x30 + n / 64) ≠ 0x0A ∧
    ([UInt8.ofNat (0x30 + n / 8 % 8), UInt8.ofNat (0x30 + n % 8)].all fun c =>
      decide (c ≠ 0x0A ∧ c ≠ 0x22 ∧ c ≠ 0x5C)) = true := by
  obtain ⟨unnamed, octal₂, value₂, apart₂, -⟩ := octal_digit (n / 64) (by omega)
  obtain ⟨-, octal₁, value₁, apart₁⟩ := octal_digit (n / 8 % 8) (by omega)
  obtain ⟨-, octal₀, value₀, apart₀⟩ := octal_digit (n % 8) (by omega)
  refine ⟨unnamed, ?_, ?_, apart₂, ?_⟩
  · simp only [List.takeWhile_cons, octal₂, octal₁, octal₀, if_true, List.takeWhile_nil]
  · simp only [digitsIn, List.foldl_cons, List.foldl_nil, value₂, value₁, value₀]
    omega
  · exact List.all_eq_true.mpr (List.forall_mem_cons.mpr
      ⟨decide_eq_true apart₁, List.forall_mem_singleton.mpr (decide_eq_true apart₀)⟩)

theorem IsEscape.octal (b : UInt8) : IsEscape (utf8 (octalEscape b)) b := by
  have spelled := octal_spelling b.toNat (UInt8.toNat_lt b)
  obtain ⟨unnamed, digits, value, inLine, plain⟩ := octal_value b.toNat (UInt8.toNat_lt b)
  rw [UInt8.ofNat_toNat] at spelled
  refine ⟨_, _, spelled, inLine, fun c inside => of_decide_eq_true (List.all_eq_true.mp plain c inside), fun rest => ?_⟩
  simp only [escaped?, List.cons_append, List.nil_append, List.head?_cons, Option.bind_some, unnamed, List.take_succ_cons,
    List.take_zero, digits, value, UInt8.toNat_lt b, UInt8.ofNat_toNat]
  rfl

theorem quoteByte_cases (b : UInt8) : IsEscape (quoteByte b) b ∨ quoteByte b = [b] ∧ b ≠ 0x22 ∧ b ≠ 0x5C ∧ b ≠ 0x0A := by
  have spelled {e : UInt8} {word : String} (same : utf8 word = [0x5C, e]) (known : (e, b) ∈ escapes) :
      IsEscape (utf8 word) b := same ▸ IsEscape.letter known
  unfold quoteByte
  split
  · next same =>
    obtain rfl := beq_iff_eq.mp same
    exact .inl (spelled (e := 0x22) (by simp only [utf8_eq]; decide) (by decide))
  split
  · next same =>
    obtain rfl := beq_iff_eq.mp same
    exact .inl (spelled (e := 0x5C) (by simp only [utf8_eq]; decide) (by decide))
  split
  · next same =>
    obtain rfl := beq_iff_eq.mp same
    exact .inl (spelled (e := 0x6E) (by simp only [utf8_eq]; decide) (by decide))
  split
  · next same =>
    obtain rfl := beq_iff_eq.mp same
    exact .inl (spelled (e := 0x74) (by simp only [utf8_eq]; decide) (by decide))
  split
  · next same =>
    obtain rfl := beq_iff_eq.mp same
    exact .inl (spelled (e := 0x72) (by simp only [utf8_eq]; decide) (by decide))
  split
  · next same =>
    obtain rfl := beq_iff_eq.mp same
    exact .inl (spelled (e := 0x3F) (by simp only [utf8_eq]; decide) (by decide))
  split
  · exact .inl (.octal b)
  · next notQuote notEscape notBreak _ _ _ _ => exact .inr ⟨rfl, by simpa using notQuote, by simpa using notEscape, by simpa using notBreak⟩

theorem stringTail_plain {b : UInt8} (plain : b ≠ 0x0A ∧ b ≠ 0x22 ∧ b ≠ 0x5C) (rest : Bytes) :
    stringTail (b :: rest) = (stringTail rest).map fun (inner, rest) => (b :: inner, rest) := by
  obtain ⟨notBreak, notQuote, notEscape⟩ := plain
  rw [stringTail.eq_def]
  split <;> simp_all

theorem stringTail_run {tail inner rest more : Bytes} (found : stringTail rest = some (inner, more)) :
    (∀ c ∈ tail, c ≠ 0x0A ∧ c ≠ 0x22 ∧ c ≠ 0x5C) → stringTail (tail ++ rest) = some (tail ++ inner, more) := by
  induction tail with
  | nil => exact fun _ => found
  | cons c tail ih =>
    intro plain
    rw [List.forall_mem_cons] at plain
    rw [List.cons_append, stringTail_plain plain.1, ih plain.2]
    rfl

theorem stringTail_quoted (bs rest : Bytes) :
    stringTail (bs.flatMap quoteByte ++ 0x22 :: rest) = some (bs.flatMap quoteByte, rest) := by
  induction bs with
  | nil => simp [stringTail]
  | cons b bs ih =>
    rw [List.flatMap_cons, List.append_assoc]
    obtain ⟨e, tail, spelled, inLine, plain, -⟩ | ⟨same, notQuote, notEscape, notBreak⟩ := quoteByte_cases b
    · rw [spelled, List.cons_append, List.cons_append]
      simp only [stringTail, inLine, if_false, stringTail_run ih plain, Option.map_some, List.cons_append]
    · rw [same, List.singleton_append, stringTail_plain ⟨notBreak, notQuote, notEscape⟩, ih]
      rfl

theorem unescapeFrom_skip : ∀ bs rest : Bytes, unescapeFrom bs.length (bs ++ rest) = unescapeFrom 0 rest
  | [], _ => rfl
  | _ :: bs, rest => unescapeFrom_skip bs rest

theorem unescape_quoted (bs : Bytes) : unescape (bs.flatMap quoteByte) = some bs := by
  induction bs with
  | nil => rfl
  | cons b bs ih =>
    rw [unescape] at ih ⊢
    rw [List.flatMap_cons]
    obtain ⟨e, tail, spelled, -, -, read⟩ | ⟨same, -, notEscape, -⟩ := quoteByte_cases b
    · rw [spelled, List.cons_append, unescapeFrom, if_pos rfl, read]
      simp only [Option.bind_eq_bind, Option.bind_some, unescapeFrom_skip, ih]
    · rw [same, List.singleton_append, unescapeFrom, if_neg notEscape, ih]
      rfl

theorem Spells.quote (bs : Bytes) : Spells anything (quote bs) [.str (bs.flatMap quoteByte)] := by
  intro rest _
  have mark : utf8 "\"" = [0x22] := by simp only [utf8_eq]; decide
  have head : headToken (C.quote bs ++ rest) = some (some (.str (bs.flatMap quoteByte)), rest) := by
    have body := stringTail_quoted bs rest
    simp only [C.quote, mark, List.append_assoc, List.cons_append, List.nil_append, headToken]
    simp [body, isSpace, isWordStart, isDigit]
  rw [tokens_head head]
  rfl

/-! ## Constants as operands -/

/-- The constant has a spelling of its own: a whole number is not negative, and the digits of a float give
    back the float. -/
def Const.Readable : Const → Prop
  | int v => 0 ≤ v.toInt
  | uint _ => True
  | float x => floatValue? (utf8 (floatText x)) = some x
  | str _ => True

/-- The tokens start with a punctuator of some kind. -/
def Behind (ok : Punct → Bool) (ts : List CToken) : Prop := ∃ p rest, ts = .punct p :: rest ∧ ok p = true

/-- Numbers and text are operands. -/
def CToken.isConst : CToken → Bool
  | number _ | str _ => true
  | _ => false

/-- A byte that a number or a string starts with. -/
def opensConst (b : UInt8) : Bool := isDigit b || b == 0x22

theorem readAtom_str (structs : List String) (bs : Bytes) {ok : Punct → Bool} {rest : List CToken} (behind : Behind ok rest) :
    readAtom structs (.str (bs.flatMap quoteByte) :: rest) = some (.const (.str bs), rest) := by
  obtain ⟨p, more, rfl, -⟩ := behind
  simp [readAtom, readStrings, unescape_quoted]

theorem IsNumber.head {text : Bytes} (number : IsNumber text) : ∃ b ∈ text.head?, opensConst b = true := by
  obtain ⟨b, tail, rfl, digit, -⟩ := number
  exact ⟨b, rfl, by simp [opensConst, digit]⟩

/-- A readable constant that is no text is one number. -/
theorem Const.number {c : Const} (readable : c.Readable) (notText : ∀ bs, c ≠ .str bs) : IsNumber c.text ∧ number? c.text = some c := by
  cases c with
  | int v =>
    have notNegative : ¬ v < 0 := by
      rw [Int64.lt_iff_toInt_lt]
      exact Int.not_lt.mpr readable
    obtain ⟨n, whole⟩ := Int.eq_ofNat_of_zero_le readable
    have bound := v.toInt_lt
    have value : Int64.ofNat n = v := by rw [← Int64.ofInt_eq_ofNat, ← whole, Int64.ofInt_toInt]
    have spelled : Const.text (.int v) = decimal n := by
      rw [Const.text, if_neg notNegative, whole]
      exact utf8_toString n
    rw [spelled, number_int (by omega), value]
    exact ⟨decimal_isNumber n, rfl⟩
  | uint v =>
    have spelled : Const.text (.uint v) = decimal v.toNat ++ [0x55, 0x4C, 0x4C] := by
      have suffix : utf8 "ULL" = [0x55, 0x4C, 0x4C] := by simp only [utf8_eq]; decide
      rw [Const.text, utf8_append, utf8_toString, suffix]
    rw [spelled, number_uint v.toNat_lt, UInt64.ofNat_toNat]
    exact ⟨decimal_number (by decide), rfl⟩
  | float x => exact number_float readable
  | str bs => exact absurd rfl (notText bs)

end PineLang.C
