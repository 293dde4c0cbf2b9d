import PineLang.Proofs.CConstants
import PineLang.Proofs.ShortestDigits

/-!
# The text of a float

A finite float that is not negative is read back from its text (`float_readable`), in whichever of the two notations it
stands; a negative one is a minus sign before the text of its magnitude (`floatText_negative`).
-/
namespace PineLang
namespace Double

/-! ## Magnitudes -/

section
variable (x : Double)

theorem magnitude_bits : x.magnitude.bits.toNat = x.bits.toNat % 0x8000000000000000 := by
  rw [magnitude]
  exact UInt64.toNat_ofNat_of_lt' (Nat.lt_trans (Nat.mod_lt _ (by decide)) (by decide))

@[simp] theorem magnitude_fraction : x.magnitude.fraction = x.fraction := by
  rw [fraction, fraction, magnitude_bits]
  omega

@[simp] theorem magnitude_exponent : x.magnitude.exponent = x.exponent := by
  rw [exponent, exponent, magnitude_bits]
  omega

@[simp] theorem magnitude_finite : x.magnitude.isFinite = x.isFinite := by rw [isFinite, isFinite, magnitude_exponent]

@[simp] theorem magnitude_nonnegative : x.magnitude.isNegative = false := by
  rw [isNegative, magnitude_bits, decide_eq_false_iff_not]
  omega

@[simp] theorem magnitude_significand : x.magnitude.significand = x.significand := by
  rw [significand, significand, magnitude_fraction, magnitude_exponent]

@[simp] theorem magnitude_power : x.magnitude.power = x.power := by unfold power; rw [magnitude_exponent]

theorem magnitude_rounds (r : Ratio) : x.magnitude.roundsTo r = x.roundsTo r := by
  simp [roundsTo, roundingInterval]

theorem magnitude_nearest : x.magnitude.nearestWith = x.nearestWith := by
  have same : x.magnitude.roundsTo = x.roundsTo := funext x.magnitude_rounds
  funext r point n
  rw [nearestWith, same, nearestWith]

theorem magnitude_shortest : x.magnitude.shortest = x.shortest := by
  unfold shortest
  simp only [magnitude_significand, magnitude_power, magnitude_nearest]

variable {x}

theorem magnitude_self (nonnegative : x.isNegative = false) : x.magnitude = x := by
  rw [isNegative, decide_eq_false_iff_not] at nonnegative
  rw [magnitude, Nat.mod_eq_of_lt (by omega)]
  simp

theorem magnitude_zero (zero : x.significand = 0) : x.magnitude = ⟨0⟩ := by
  have none : x.exponent = 0 ∧ x.fraction = 0 := by
    obtain ⟨least, same, -⟩ | ⟨-, same, -⟩ := significand_cases x <;> omega
  rw [magnitude_eq, none.1, none.2]
  rfl

end

/-! ## Notations -/

/-- The text of a finite double without its sign. -/
def digitsText (x : Double) : String :=
  if x.significand == 0 then "0"
  else if x.shortest.point - 1 < -4 || x.shortest.point - 1 ≥ positionalLimit then scientific x.shortest
  else positional x.shortest

theorem general_finite {x : Double} (finite : x.isFinite = true) :
    x.general = (if x.isNegative then "-" else "") ++ x.digitsText := by
  unfold general digitsText
  rw [finite]
  simp only [Bool.not_true, Bool.false_eq_true, if_false]
  split <;> rfl

theorem magnitude_digitsText (x : Double) : x.magnitude.digitsText = x.digitsText := by
  unfold digitsText
  rw [magnitude_significand, magnitude_shortest]

section
variable (c d : Char) (cs : List Char) (p : Int)

theorem scientific_one : scientific ⟨[c], p⟩ = String.ofList [c] ++ exponentText (p - 1) := rfl

theorem scientific_more : scientific ⟨c :: d :: cs, p⟩ =
    String.ofList [c] ++ "." ++ String.ofList (d :: cs) ++ exponentText (p - 1) := by
  have nonempty : (String.ofList (d :: cs)).isEmpty = false := by simp
  unfold scientific
  simp only [List.drop_succ_cons, List.drop_zero, nonempty, Bool.false_eq_true, if_false, List.take_succ_cons, List.take_zero]

end

end Double

namespace C

/-! ## Points and exponents -/

/-- The text with a point or an exponent. -/
def marked (s : String) : String := if s.any fun c => c == '.' || c == 'e' || c == 'E' then s else s ++ ".0"

theorem floatText_marked (x : Double) : floatText x = marked x.general := rfl

theorem marked_of_mem {s : String} {c : Char} (inside : c ∈ s.toList) (mark : (c == '.' || c == 'e' || c == 'E') = true) :
    marked s = s := by
  rw [marked, String.any, String.contains_bool_eq, if_pos (List.any_eq_true.mpr ⟨c, inside, mark⟩)]

theorem marked_digits {s : String} (digits : ∀ c ∈ s.toList, c.isDigit = true) : marked s = s ++ ".0" := by
  have none : ¬ (s.toList.any fun c => c == '.' || c == 'e' || c == 'E') = true := by
    rw [List.any_eq_true]
    rintro ⟨c, inside, mark⟩
    have digit := digits c inside
    simp only [Bool.or_eq_true, beq_iff_eq] at mark
    obtain (rfl | rfl) | rfl := mark <;> exact absurd digit (by decide)
  rw [marked, String.any, String.contains_bool_eq, if_neg none]

theorem marked_sign (s : String) : marked ("-" ++ s) = "-" ++ marked s := by
  rw [marked, marked, String.any, String.contains_bool_eq, String.any, String.contains_bool_eq, String.toList_append, List.any_append]
  have sign : ("-".toList.any fun c => c == '.' || c == 'e' || c == 'E') = false := by decide
  rw [sign, Bool.false_or]
  split
  · rfl
  · rw [String.append_assoc]

/-! ## Layouts -/

theorem digit_bounds {c : Char} (digit : c.isDigit = true) : 0x30 ≤ c.toNat ∧ c.toNat ≤ 0x39 := by
  simp only [Char.isDigit, Bool.and_eq_true, decide_eq_true_eq] at digit
  exact ⟨UInt32.le_iff_toNat_le.mp digit.1, UInt32.le_iff_toNat_le.mp digit.2⟩

variable {cs whole places : List Char} {tail : Bytes} {e : Int}

theorem asciiBytes_append (cs ds : List Char) : asciiBytes (cs ++ ds) = asciiBytes cs ++ asciiBytes ds := List.map_append

theorem utf8_digits (digits : ∀ c ∈ cs, c.isDigit = true) : utf8 (String.ofList cs) = asciiBytes cs :=
  utf8_ascii fun c member => Nat.lt_of_le_of_lt (digit_bounds (digits c member)).2 (by decide)

theorem asciiBytes_digits (digits : ∀ c ∈ cs, c.isDigit = true) : ∀ b ∈ asciiBytes cs, isDigit b = true := by
  intro b member
  obtain ⟨c, inside, rfl⟩ := List.mem_map.mp member
  have bounds := digit_bounds (digits c inside)
  simp only [isDigit, Bool.and_eq_true, decide_eq_true_eq, UInt8.le_iff_toNat_le, toNat_ofNat (by omega : c.toNat < 256)]
  exact bounds

theorem digitsIn_digits (digits : ∀ c ∈ cs, c.isDigit = true) : digitsIn 10 (asciiBytes cs) = Nat.ofDigitChars 10 cs 0 :=
  digitsIn_ascii 10 cs 0 fun c member => Nat.lt_of_le_of_lt (digit_bounds (digits c member)).2 (by decide)

/-- Digits before something else are found whole. -/
theorem run_digits (digits : ∀ c ∈ cs, c.isDigit = true) (ends : ∀ b ∈ tail.head?, isDigit b = false) :
    (asciiBytes cs ++ tail).takeWhile isDigit = asciiBytes cs ∧ (asciiBytes cs ++ tail).dropWhile isDigit = tail := by
  rw [List.takeWhile_append_of_pos (asciiBytes_digits digits), List.dropWhile_append_of_pos (asciiBytes_digits digits)]
  cases tail with
  | nil => simp
  | cons b tail => simp [ends b rfl]

theorem exponent_head (read : exponent? tail = some e) : ∀ b ∈ tail.head?, isDigit b = false ∧ b ≠ 0x2E := by
  intro b first
  obtain rfl | rfl := (exponent_tail read 0).2 b first <;> decide

theorem asciiBytes_nonempty (nonempty : cs ≠ []) : (asciiBytes cs).isEmpty = false := by
  simpa [asciiBytes] using nonempty

/-- Digits, a point, and maybe more digits and an exponent. -/
theorem floatValue_point (digits : ∀ c ∈ whole ++ places, c.isDigit = true) (nonempty : whole ≠ []) (read : exponent? tail = some e) :
    floatValue? (asciiBytes whole ++ 0x2E :: (asciiBytes places ++ tail)) =
      scaled? (Nat.ofDigitChars 10 (whole ++ places) 0) (e - places.length) := by
  have both := List.forall_mem_append.mp digits
  have first := @run_digits whole (0x2E :: (asciiBytes places ++ tail)) both.1 (by rintro _ ⟨⟩; decide)
  have second := @run_digits places tail both.2 fun b member => (exponent_head read b member).1
  have value : digitsIn 10 (asciiBytes whole ++ asciiBytes places) = Nat.ofDigitChars 10 (whole ++ places) 0 := by
    rw [← asciiBytes_append, digitsIn_digits digits]
  have width : (asciiBytes places).length = places.length := List.length_map _
  unfold floatValue?
  simp only [first.1, first.2, asciiBytes_nonempty nonempty, List.isEmpty_cons, Bool.or_false, Bool.false_eq_true, if_false, fraction,
    second.1, second.2, read, Option.bind_some, value, width]

/-- Digits and an exponent. -/
theorem floatValue_exponent (digits : ∀ c ∈ whole, c.isDigit = true) (nonempty : whole ≠ []) (read : exponent? tail = some e)
    (present : tail ≠ []) : floatValue? (asciiBytes whole ++ tail) = scaled? (Nat.ofDigitChars 10 whole 0) e := by
  have run := @run_digits whole tail digits fun b member => (exponent_head read b member).1
  have noPoint : fraction tail = ([], tail) := by
    unfold fraction
    split
    · exact absurd rfl (exponent_head read 0x2E rfl).2
    · rfl
  have present' : tail.isEmpty = false := by simpa using present
  unfold floatValue?
  simp only [run.1, run.2, asciiBytes_nonempty nonempty, present', Bool.or_false, Bool.false_eq_true, if_false, noPoint, read,
    Option.bind_some, List.append_nil, digitsIn_digits digits, List.length_nil, Nat.cast_zero, sub_zero]

/-- An exponent mark, a sign and at least two digits. -/
theorem exponentText_bytes (e : Int) : ∃ sign digits, utf8 (Double.exponentText e) = 0x65 :: sign :: digits ∧
    sign = (if e < 0 then 0x2D else 0x2B) ∧ digits ≠ [] ∧ (∀ b ∈ digits, isDigit b = true) ∧ digitsIn 10 digits = e.natAbs := by
  have zero : utf8 "0" = [0x30] := by simp only [utf8_eq]; decide
  have signs : utf8 "e-" = [0x65, 0x2D] ∧ utf8 "e+" = [0x65, 0x2B] := by simp only [utf8_eq]; decide
  refine ⟨_, utf8 (if (toString e.natAbs).length < 2 then "0" ++ toString e.natAbs else toString e.natAbs), ?_, rfl, ?_⟩
  · rw [Double.exponentText, utf8_append]
    split
    · rw [signs.1]
      rfl
    · rw [signs.2]
      rfl
  · split
    · rw [utf8_append, zero, utf8_toString]
      refine ⟨by simp, ?_, digitsIn_decimal _⟩
      rw [List.forall_mem_append]
      exact ⟨by decide, decimal_digits⟩
    · rw [utf8_toString]
      exact ⟨decimal_nonempty _, decimal_digits, digitsIn_decimal _⟩

theorem exponent_text (e : Int) : exponent? (utf8 (Double.exponentText e)) = some e ∧ utf8 (Double.exponentText e) ≠ [] := by
  obtain ⟨sign, digits, spelled, isSign, nonempty, all, value⟩ := exponentText_bytes e
  have present : digits.isEmpty = false := by simpa using nonempty
  have every : digits.all isDigit = true := List.all_eq_true.mpr all
  rw [spelled]
  refine ⟨?_, by simp⟩
  subst isSign
  split
  · simp only [exponent?, unsigned, beq_self_eq_true, Bool.true_or, present, Bool.not_false, every, Bool.and_self, if_true, value,
      Option.some.injEq]
    omega
  · simp only [exponent?, unsigned, beq_self_eq_true, Bool.true_or, present, Bool.not_false, every, Bool.and_self, if_true, value,
      Bool.false_eq_true, if_false, Option.some.injEq]
    omega

/-! ## Values -/

section
variable {x : Double}

/-- A decimal of the rounding interval is read as the double. -/
theorem scaled_interval (finite : x.isFinite = true) (positive : 0 < x.significand) {n : Nat} {e : Int}
    (inside : x.InInterval (n * 10 ^ e)) : scaled? n e = some x.magnitude := by
  have same : scaled? n e = Double.ofRatio? (Double.Ratio.scaled10 n e).num (Double.Ratio.scaled10 n e).den := by
    unfold scaled? Double.Ratio.scaled10
    split <;> rfl
  have rounds := (Double.roundsTo_value positive (Double.Ratio.scaled10_den n e)).mpr (by rwa [Double.Ratio.scaled10_value])
  rw [same]
  exact Double.ofRatio_interval finite positive (Double.Ratio.scaled10_den n e) rounds

theorem point_bytes : utf8 "." = [0x2E] := by simp only [utf8_eq]; decide

theorem exponentText_mark (e : Int) : 'e' ∈ (Double.exponentText e).toList := by
  rw [Double.exponentText, String.toList_append]
  split <;> simp

theorem scientific_read (finite : x.isFinite = true) (positive : 0 < x.significand) :
    floatValue? (utf8 (marked (Double.scientific x.shortest))) = some x.magnitude := by
  obtain ⟨nonempty, digits, inside⟩ := Double.shortest_inInterval finite positive
  generalize x.shortest = d at nonempty digits inside ⊢
  obtain ⟨ds, point⟩ := d
  obtain ⟨c, cs, rfl⟩ := List.exists_cons_of_ne_nil nonempty
  obtain ⟨exponent, present⟩ := exponent_text (point - 1)
  have mark : 'e' ∈ (Double.scientific ⟨c :: cs, point⟩).toList := by
    rw [Double.scientific, String.toList_append]
    exact List.mem_append_right _ (exponentText_mark _)
  rw [marked_of_mem mark rfl]
  have value : x.InInterval (Nat.ofDigitChars 10 (c :: cs) 0 * 10 ^ (point - 1 - cs.length)) := by
    have place : point - 1 - (cs.length : Int) = point - ((c :: cs).length : Int) := by
      rw [List.length_cons]
      omega
    rwa [place]
  rw [← scaled_interval finite positive value]
  have first := (List.forall_mem_cons.mp digits).1
  cases cs with
  | nil =>
    rw [Double.scientific_one, utf8_append, utf8_digits (by simpa using first), floatValue_exponent (by simpa using first) (by simp)
      exponent present]
    rw [List.length_nil, Nat.cast_zero, sub_zero]
  | cons d cs =>
    rw [Double.scientific_more, utf8_append, utf8_append, utf8_append, utf8_digits (by simpa using first),
      utf8_digits (List.forall_mem_cons.mp digits).2, point_bytes]
    have read := @floatValue_point [c] _ _ _ digits (by simp) exponent
    simpa only [List.append_assoc, List.cons_append, List.nil_append] using read

theorem positional_read (finite : x.isFinite = true) (positive : 0 < x.significand) :
    floatValue? (utf8 (marked (Double.positional x.shortest))) = some x.magnitude := by
  obtain ⟨nonempty, digits, inside⟩ := Double.shortest_inInterval finite positive
  generalize x.shortest = d at nonempty digits inside ⊢
  obtain ⟨ds, point⟩ := d
  have exponent : exponent? [] = some 0 := rfl
  have zeros (k : Nat) : ∀ c ∈ List.replicate k '0', c.isDigit = true := fun c member => by
    rw [List.eq_of_mem_replicate member]
    rfl
  by_cases before : point ≤ 0
  · obtain ⟨k, same⟩ := Int.eq_ofNat_of_zero_le (by omega : 0 ≤ -point)
    have layout : Double.positional ⟨ds, point⟩ = "0." ++ String.ofList (List.replicate k '0' ++ ds) := by
      rw [Double.positional, if_pos before, same]
      rfl
    have places := List.forall_mem_append.mpr ⟨zeros k, digits⟩
    have read := @floatValue_point ['0'] _ _ _ (List.forall_mem_append.mpr ⟨zeros 1, places⟩) (by simp) exponent
    have value : Nat.ofDigitChars 10 (['0'] ++ (List.replicate k '0' ++ ds)) 0 = Nat.ofDigitChars 10 ds 0 := by
      have zero : Nat.ofDigitChars 10 ['0'] 0 = 0 := rfl
      rw [Nat.ofDigitChars_append, Nat.ofDigitChars_append, Nat.ofDigitChars_replicate_zero, zero, Nat.mul_zero]
    have place : (0 : Int) - (List.replicate k '0' ++ ds).length = point - ds.length := by
      rw [List.length_append, List.length_replicate]
      push_cast
      omega
    have zeroPoint : utf8 "0." = asciiBytes ['0'] ++ [0x2E] := by simp only [utf8_eq]; decide
    rw [value, place, scaled_interval finite positive inside] at read
    rw [layout, marked_of_mem (c := '.') (by simp) rfl, utf8_append, utf8_digits places, zeroPoint]
    simpa only [List.append_assoc, List.cons_append, List.nil_append, List.append_nil] using read
  · obtain ⟨p, rfl⟩ := Int.eq_ofNat_of_zero_le (by omega : 0 ≤ point)
    have digits : ∀ c ∈ ds, c.isDigit = true := digits
    have layout : Double.positional ⟨ds, p⟩ = String.ofList (ds.take p ++ List.replicate (p - ds.length) '0') ++
        (if (ds.drop p).isEmpty then "" else "." ++ String.ofList (ds.drop p)) := by
      rw [Double.positional, if_neg before]
      rfl
    by_cases all : ds.length ≤ p
    · have whole := List.forall_mem_append.mpr ⟨digits, zeros (p - ds.length)⟩
      have read := @floatValue_point _ ['0'] _ _ (List.forall_mem_append.mpr ⟨whole, zeros 1⟩) (by simp [nonempty]) exponent
      have value : x.InInterval
          (Nat.ofDigitChars 10 (ds ++ List.replicate (p - ds.length) '0' ++ ['0']) 0 * 10 ^ ((0 : Int) - ['0'].length)) := by
        have tail : List.replicate (p - ds.length) '0' ++ ['0'] = List.replicate (p - ds.length + 1) '0' := List.replicate_succ'.symm
        have place : (p : Int) - ds.length = (p - ds.length + 1 : Nat) + ((0 : Int) - ['0'].length) := by
          rw [List.length_singleton]
          omega
        rw [Double.Decimal.value, place, zpow_add₀ (by norm_num), zpow_natCast, ← mul_assoc] at inside
        rw [List.append_assoc, tail, Nat.ofDigitChars_append, Nat.ofDigitChars_replicate_zero, Nat.cast_mul, Nat.cast_pow, Nat.cast_ofNat,
          mul_comm ((10 : ℚ) ^ _)]
        exact inside
      rw [scaled_interval finite positive value] at read
      have plain : ∀ c ∈ (String.ofList (ds ++ List.replicate (p - ds.length) '0')).toList, c.isDigit = true := by
        rwa [String.toList_ofList]
      have last : utf8 ".0" = 0x2E :: (asciiBytes ['0'] ++ []) := by simp only [utf8_eq]; decide
      rw [layout, List.take_of_length_le all, List.drop_of_length_le all, List.isEmpty_nil, if_pos rfl, String.append_empty,
        marked_digits plain, utf8_append, utf8_digits whole, last]
      exact read
    · have rest : (ds.drop p).isEmpty = false := by
        simpa using all
      have noZeros : p - ds.length = 0 := by omega
      have both : ∀ c ∈ ds.take p ++ ds.drop p, c.isDigit = true := by rwa [List.take_append_drop]
      have first : ds.take p ≠ [] := by
        rw [Ne, List.take_eq_nil_iff]
        rintro (zero | rfl)
        · omega
        · exact all (Nat.zero_le _)
      have read := floatValue_point both first exponent
      have place : (0 : Int) - (ds.drop p).length = p - ds.length := by
        rw [List.length_drop]
        omega
      rw [place, List.take_append_drop, scaled_interval finite positive inside] at read
      have parts := List.forall_mem_append.mp both
      have mark : '.' ∈ (String.ofList (ds.take p) ++ ("." ++ String.ofList (ds.drop p))).toList := by simp
      rw [layout, noZeros, rest, if_neg Bool.false_ne_true, List.replicate_zero, List.append_nil, marked_of_mem mark rfl, utf8_append,
        utf8_append, utf8_digits parts.1, utf8_digits parts.2, point_bytes]
      rwa [List.append_nil] at read

/-- The text of a finite float without its sign is read as the float without its sign. -/
theorem digitsText_read (finite : x.isFinite = true) : floatValue? (utf8 (marked x.digitsText)) = some x.magnitude := by
  unfold Double.digitsText
  by_cases zero : x.significand = 0
  · have digits : ∀ c ∈ "0".toList, c.isDigit = true := by
      intro c member
      obtain rfl := List.mem_singleton.mp (member : c ∈ ['0'])
      rfl
    rw [if_pos (by simpa using zero), marked_digits digits, Double.magnitude_zero zero, utf8_append]
    have spelled : utf8 "0" ++ utf8 ".0" = [0x30, 0x2E, 0x30] := by simp only [utf8_eq]; decide
    rw [spelled]
    decide
  · have positive := Nat.pos_of_ne_zero zero
    rw [if_neg (by simpa using zero)]
    split
    · exact scientific_read finite positive
    · exact positional_read finite positive

theorem floatText_sign (finite : x.isFinite = true) :
    floatText x = (if x.isNegative then "-" else "") ++ marked x.digitsText := by
  rw [floatText_marked, Double.general_finite finite]
  split
  · exact marked_sign _
  · rw [String.empty_append, String.empty_append]

/-- A float that is finite and not negative is read back from its text. -/
theorem float_readable (finite : x.isFinite = true) (nonnegative : x.isNegative = false) : (Const.float x).Readable := by
  have read := digitsText_read finite
  rw [Double.magnitude_self nonnegative] at read
  rwa [Const.Readable, floatText_sign finite, nonnegative, if_neg Bool.false_ne_true, String.empty_append]

/-- A negative float is a minus sign before its magnitude. -/
theorem floatText_negative (finite : x.isFinite = true) (negative : x.isNegative = true) :
    floatText x = "-" ++ floatText x.magnitude := by
  rw [floatText_sign finite, floatText_sign (by rwa [Double.magnitude_finite]), negative, Double.magnitude_nonnegative,
    Double.magnitude_digitsText, if_pos rfl, if_neg Bool.false_ne_true, String.empty_append]

theorem floatValue_none {b : UInt8} {text : Bytes} (noDigit : isDigit b = false) : floatValue? (b :: text) = none := by
  simp [floatValue?, noDigit]

theorem marked_prefix (s : String) : ∃ more, marked s = s ++ more := by
  unfold marked
  split
  · exact ⟨"", String.append_empty.symm⟩
  · exact ⟨".0", rfl⟩

/-- What is neither finite nor a number has no digits. -/
theorem floatValue_infinite (infinite : x.isFinite = false) : floatValue? (utf8 (floatText x)) = none := by
  have notFinite : (!x.isFinite) = true := by rw [infinite, Bool.not_false]
  have letters : ∀ s ∈ ["NaN", "-Inf", "+Inf"], ∃ b tail, utf8 s = b :: tail ∧ isDigit b = false := by
    simp only [utf8_eq, List.forall_mem_cons, List.not_mem_nil, false_implies, implies_true, and_true]
    exact ⟨⟨_, _, rfl, rfl⟩, ⟨_, _, rfl, rfl⟩, ⟨_, _, rfl, rfl⟩⟩
  have spelled : x.general ∈ ["NaN", "-Inf", "+Inf"] := by
    rw [Double.general, if_pos notFinite]
    split
    · decide
    · split <;> decide
  obtain ⟨b, tail, first, noDigit⟩ := letters _ spelled
  obtain ⟨more, rest⟩ := marked_prefix x.general
  rw [floatText_marked, rest, utf8_append, first]
  exact floatValue_none noDigit

/-- A float that is read back from its text is finite and not negative. -/
theorem float_readable_iff : (Const.float x).Readable ↔ x.isFinite = true ∧ x.isNegative = false := by
  constructor
  · intro readable
    rw [Const.Readable] at readable
    cases finite : x.isFinite with
    | false =>
      rw [floatValue_infinite finite] at readable
      cases readable
    | true =>
      refine ⟨rfl, Bool.eq_false_iff.mpr fun negative => ?_⟩
      have sign : utf8 "-" = [0x2D] := by simp only [utf8_eq]; decide
      rw [floatText_negative finite negative, utf8_append, sign, List.singleton_append, floatValue_none (by decide)] at readable
      cases readable
  · rintro ⟨finite, nonnegative⟩
    exact float_readable finite nonnegative

end

end C
end PineLang
