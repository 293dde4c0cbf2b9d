import Mathlib.Algebra.Order.Floor.Semifield
import PineLang.Proofs.DoubleRounding

/-!
# The digits of a double

The decimal that is found for a double lies in its rounding interval (`shortest_inInterval`), and one is always found: the
multiples of the unit of a seventeenth digit lie closer than the ends of the interval.
-/
namespace PineLang.Double

/-! ## Between powers of ten -/

theorem Ratio.scaled10_one (p : ℤ) : (Ratio.scaled10 1 p).value = 10 ^ p := by
  rw [Ratio.scaled10_value, Nat.cast_one, one_mul]

/-- The search upwards stops behind the first power of ten that is not too small. -/
theorem decimalPoint_between {r : Ratio} (hr : 0 < r.den) : ∀ {fuel : ℕ} {p : ℤ}, (10 : ℚ) ^ (p - 1) ≤ r.value →
    r.value < 10 ^ (p + fuel) →
      (10 : ℚ) ^ (decimalPoint r fuel p - 1) ≤ r.value ∧ r.value < 10 ^ decimalPoint r fuel p
  | 0, p, low, high => by
    rw [Nat.cast_zero, add_zero] at high
    exact ⟨low, high⟩
  | fuel + 1, p, low, high => by
    have beyond := Ratio.lt_iff hr (Ratio.scaled10_den 1 p)
    rw [Ratio.scaled10_one] at beyond
    rw [decimalPoint]
    split
    · next below => exact ⟨low, beyond.mp below⟩
    · next reached =>
      refine decimalPoint_between hr ?_ ?_
      · rw [add_sub_cancel_right]
        exact not_lt.mp fun below => reached (beyond.mpr below)
      · rwa [add_assoc, add_comm 1, ← Nat.cast_succ]

/-- A thousand is nearly the tenth power of two: three tenths of a binary exponent are nearly the decimal one. -/
theorem start_low {e : ℤ} (least : -1080 ≤ e) : (10 : ℚ) ^ (e * 3 / 10 - 3) ≤ 2 ^ e := by
  have tenth : (1000 : ℚ) ^ e ≤ 10 ^ 30 * 1024 ^ e := by
    rcases le_total 0 e with up | down
    · obtain ⟨k, rfl⟩ := Int.eq_ofNat_of_zero_le up
      rw [zpow_natCast, zpow_natCast]
      calc (1000 : ℚ) ^ k ≤ 1024 ^ k := by
            gcongr
            norm_num
        _ ≤ 10 ^ 30 * 1024 ^ k := le_mul_of_one_le_left (by positivity) (by norm_num)
    · obtain ⟨k, same⟩ := Int.eq_ofNat_of_zero_le (neg_nonneg.mpr down)
      obtain rfl : e = -(k : ℤ) := by omega
      have ratio : (1024 / 1000 : ℚ) ^ k ≤ 10 ^ 30 := by
        calc (1024 / 1000 : ℚ) ^ k ≤ (1024 / 1000) ^ (36 * 30) := pow_le_pow_right₀ (by norm_num) (by omega)
          _ = ((1024 / 1000) ^ 36) ^ 30 := pow_mul ..
          _ ≤ 10 ^ 30 := by
            gcongr
            norm_num
      rw [div_pow, div_le_iff₀ (by positivity)] at ratio
      rw [zpow_neg, zpow_neg, zpow_natCast, zpow_natCast, ← div_eq_mul_inv, inv_eq_one_div, div_le_div_iff₀ (by positivity) (by positivity),
        one_mul]
      exact ratio
  have power : ((10 : ℚ) ^ (e * 3 / 10 - 3)) ^ 10 ≤ ((2 : ℚ) ^ e) ^ 10 := by
    calc ((10 : ℚ) ^ (e * 3 / 10 - 3)) ^ 10 = 10 ^ ((e * 3 / 10 - 3) * 10) := by
          rw [← zpow_natCast, ← zpow_mul]
          rfl
      _ ≤ 10 ^ (3 * e - 30) := zpow_le_zpow_right₀ (by norm_num) (by omega)
      _ = 1000 ^ e / 10 ^ 30 := by
          rw [zpow_sub₀ (by norm_num), zpow_mul]
          norm_num
      _ ≤ 1024 ^ e := by
          rw [div_le_iff₀ (by positivity), mul_comm]
          exact tenth
      _ = (2 ^ e) ^ 10 := by
          rw [← zpow_natCast, ← zpow_mul, mul_comm, zpow_mul]
          norm_num
  exact (pow_le_pow_iff_left₀ (by positivity) (by positivity) (by norm_num)).mp power

section
variable {x : Double}

/-- The rational that a double that is not negative stands for. -/
def size (x : Double) : ℚ := x.significand * 2 ^ x.power

theorem size_value (x : Double) : (Ratio.scaled2 x.significand x.power).value = x.size := Ratio.scaled2_value ..

/-- The power of ten behind the first digit. -/
def point (x : Double) : ℤ :=
  decimalPoint (.scaled2 x.significand x.power) 700 ((x.power + x.significand.log2) * 3 / 10 - 2)

theorem size_between (finite : x.isFinite = true) (positive : 0 < x.significand) :
    (10 : ℚ) ^ (x.point - 1) ≤ x.size ∧ x.size < 10 ^ x.point := by
  have most : x.exponent ≤ 2046 := by
    have := x.exponent_lt
    have : x.exponent ≠ 2047 := by simpa [isFinite] using finite
    omega
  have scale : -1074 ≤ x.power ∧ x.power ≤ 971 := by
    obtain ⟨-, -, scale⟩ | ⟨normal, -, scale⟩ := significand_cases x <;> omega
  have short : x.significand.log2 < 53 := (Nat.log2_lt positive.ne').mpr x.significand_lt
  have log : (2 : ℚ) ^ x.significand.log2 ≤ x.significand ∧ (x.significand : ℚ) < 2 ^ (x.significand.log2 + 1) := by
    exact_mod_cast And.intro (Nat.log2_self_le positive.ne') (Nat.lt_log2_self (n := x.significand))
  rw [← size_value]
  refine decimalPoint_between (Ratio.scaled2_den _ _) ?_ ?_
  · calc (10 : ℚ) ^ ((x.power + x.significand.log2) * 3 / 10 - 2 - 1) = 10 ^ ((x.power + x.significand.log2) * 3 / 10 - 3) := by
          rw [sub_sub]
          rfl
      _ ≤ 2 ^ (x.power + x.significand.log2) := start_low (by omega)
      _ = 2 ^ x.significand.log2 * 2 ^ x.power := by rw [power_add, zpow_natCast]
      _ ≤ x.significand * 2 ^ x.power := by
          gcongr
          exact log.1
      _ = (Ratio.scaled2 x.significand x.power).value := (size_value x).symm
  · calc (Ratio.scaled2 x.significand x.power).value = x.significand * 2 ^ x.power := size_value x
      _ < 2 ^ (x.significand.log2 + 1) * 2 ^ x.power := by
          gcongr
          exact log.2
      _ = 2 ^ (x.power + (x.significand.log2 + 1 : ℕ)) := by rw [power_add, zpow_natCast]
      _ ≤ 2 ^ ((3 * 342 : ℕ) : ℤ) := zpow_le_zpow_right₀ (by norm_num) (by omega)
      _ = (2 ^ 3) ^ 342 := by rw [zpow_natCast, pow_mul]
      _ ≤ 10 ^ 342 := pow_le_pow_left₀ (by norm_num) (by norm_num) 342
      _ = 10 ^ (342 : ℤ) := (zpow_natCast (10 : ℚ) 342).symm
      _ ≤ 10 ^ ((x.power + x.significand.log2) * 3 / 10 - 2 + (700 : ℕ)) :=
          zpow_le_zpow_right₀ (by norm_num) (by push_cast; omega)

/-! ## The nearest decimals -/

theorem Ratio.floorAt_eq (r : Ratio) (e : ℤ) : r.floorAt e = ⌊r.value / 10 ^ e⌋₊ := by
  have power := Ratio.zpow_cases 10 e
  rw [Nat.cast_ofNat] at power
  rw [power, floorAt, value]
  split
  · rw [← Nat.floor_div_eq_div (K := ℚ), Nat.pow_eq, Nat.cast_mul, div_div]
  · rw [← Nat.floor_div_eq_div (K := ℚ), Nat.pow_eq, Nat.cast_mul, div_div_eq_mul_div, div_one, div_mul_eq_mul_div]

/-- A multiple of a power of ten is not above the size, and the next one is. -/
theorem floorAt_between (x : Double) (e : ℤ) : ((Ratio.scaled2 x.significand x.power).floorAt e : ℚ) * 10 ^ e ≤ x.size ∧
    x.size < (((Ratio.scaled2 x.significand x.power).floorAt e + 1 : ℕ) : ℚ) * 10 ^ e := by
  have unit : (0 : ℚ) < 10 ^ e := by positivity
  have some : 0 ≤ x.size / 10 ^ e := by
    rw [size]
    positivity
  rw [Ratio.floorAt_eq, size_value, ← le_div_iff₀ unit, ← div_lt_iff₀ unit, Nat.cast_succ]
  exact ⟨Nat.floor_le some, Nat.lt_floor_add_one _⟩

variable {r : Ratio} {point : ℤ} {n : ℕ}

/-- The multiple of the unit next below rounds to the double. -/
def takesLow (x : Double) (r : Ratio) (e : ℤ) : Bool := r.floorAt e != 0 && x.roundsTo (.scaled10 (r.floorAt e) e)

/-- The multiple of the unit next above rounds to the double. -/
def takesHigh (x : Double) (r : Ratio) (e : ℤ) : Bool := x.roundsTo (.scaled10 (r.floorAt e + 1) e)

/-- The neighbour above is nearer than the one below, or as near and even. -/
def Ratio.prefersHigh (r : Ratio) (e : ℤ) : Bool :=
  if r.floorAt e % 2 == 0 then (r.dist (.scaled10 (r.floorAt e + 1) e)).lt (r.dist (.scaled10 (r.floorAt e) e))
  else (r.dist (.scaled10 (r.floorAt e + 1) e)).le (r.dist (.scaled10 (r.floorAt e) e))

/-- A neighbour is taken only if it rounds to the double, and none only if neither does. -/
theorem nearestWith_cases (x : Double) (r : Ratio) (point : ℤ) (n : ℕ) :
    (x.nearestWith r point n = some (r.floorAt (point - n), point - n) ∧ x.takesLow r (point - n) = true) ∨
    (x.nearestWith r point n = some (r.floorAt (point - n) + 1, point - n) ∧ x.takesHigh r (point - n) = true) ∨
    (x.nearestWith r point n = none ∧ x.takesLow r (point - n) = false ∧ x.takesHigh r (point - n) = false) := by
  have lowest : (r.floorAt (point - n) != 0 && x.roundsTo (.scaled10 (r.floorAt (point - n)) (point - n))) =
      x.takesLow r (point - n) := rfl
  have highest : x.roundsTo (.scaled10 (r.floorAt (point - n) + 1) (point - n)) = x.takesHigh r (point - n) := rfl
  have closer := Ratio.prefersHigh.eq_1 r (point - n)
  simp only [nearestWith, lowest, highest, ← closer]
  cases low : x.takesLow r (point - n) <;> cases high : x.takesHigh r (point - n)
  · exact .inr (.inr ⟨rfl, rfl, rfl⟩)
  · exact .inr (.inl ⟨rfl, rfl⟩)
  · exact .inl ⟨rfl, rfl⟩
  · cases r.prefersHigh (point - n)
    · exact .inl ⟨rfl, rfl⟩
    · exact .inr (.inl ⟨rfl, rfl⟩)

theorem nearestWith_rounds {m : ℕ} {e : ℤ} (found : x.nearestWith r point n = some (m, e)) :
    0 < m ∧ x.roundsTo (.scaled10 m e) = true := by
  obtain ⟨same, low⟩ | ⟨same, high⟩ | ⟨none, -⟩ := nearestWith_cases x r point n
  · cases found.symm.trans same
    simpa [takesLow, Nat.pos_iff_ne_zero] using low
  · cases found.symm.trans same
    exact ⟨Nat.succ_pos _, high⟩
  · cases found.symm.trans none

theorem nearestWith_isSome (taken : x.takesLow r (point - n) = true ∨ x.takesHigh r (point - n) = true) :
    (x.nearestWith r point n).isSome = true := by
  obtain ⟨same, -⟩ | ⟨same, -⟩ | ⟨-, low, high⟩ := nearestWith_cases x r point n
  · rw [same, Option.isSome_some]
  · rw [same, Option.isSome_some]
  · simp [low, high] at taken

theorem InInterval.of_lt {q : ℚ} (low : x.lowerEnd < q) (high : q < x.upperEnd) : x.InInterval q :=
  ⟨low.le, high.le, fun _ => ⟨low, high⟩⟩

/-- Seventeen digits suffice: one of the neighbours at the unit of the seventeenth digit lies between the ends. -/
theorem seventeen_digits (finite : x.isFinite = true) (positive : 0 < x.significand) :
    (x.nearestWith (.scaled2 x.significand x.power) x.point 17).isSome = true := by
  obtain ⟨low, high⟩ := floorAt_between x (x.point - 17)
  have first := (size_between finite positive).1
  have fine : (10 : ℚ) ^ (x.point - 17) * 10 ^ 16 ≤ x.size := by
    calc (10 : ℚ) ^ (x.point - 17) * 10 ^ 16 = 10 ^ (x.point - 17 + 16) := (zpow_add₀ (by norm_num) _ 16).symm
      _ = 10 ^ (x.point - 1) := by
        congr 1
        ring
      _ ≤ x.size := first
  have unit : (0 : ℚ) < 2 ^ x.power := by positivity
  have short : (x.significand : ℚ) ≤ 2 ^ 53 := by exact_mod_cast x.significand_lt.le
  have some : (1 : ℚ) ≤ x.significand := by exact_mod_cast positive
  apply nearestWith_isSome
  rw [takesLow, takesHigh, Bool.and_eq_true, bne_iff_ne, roundsTo_value positive (Ratio.scaled10_den _ _),
    roundsTo_value positive (Ratio.scaled10_den _ _), Ratio.scaled10_value, Ratio.scaled10_value]
  change _ ∧ x.InInterval (_ * 10 ^ (x.point - 17)) ∨ x.InInterval (_ * 10 ^ (x.point - 17))
  generalize (Ratio.scaled2 x.significand x.power).floorAt (x.point - 17) = below at low high ⊢
  generalize (10 : ℚ) ^ (x.point - 17) = grain at low high fine ⊢
  have above : x.lowerEnd < x.size := by
    have := x.lowerGap_pos
    rw [lowerEnd, size]
    gcongr
    linarith
  have under : x.size < x.upperEnd := by
    rw [upperEnd, size]
    gcongr
    linarith
  by_cases upper : ((below + 1 : ℕ) : ℚ) * grain < x.upperEnd
  · exact .inr (.of_lt (above.trans high) upper)
  · -- The unit is less than the way between the ends, and less than a half of a bit at the least double of a binade.
    rw [Nat.cast_succ, add_mul, one_mul, not_lt, upperEnd] at upper
    rw [size] at low fine
    have wide : x.lowerEnd < below * grain := by
      cases boundary : x.isBoundary with
      | true =>
        rw [(boundary_significand boundary).1] at low fine upper
        push_cast at low fine upper
        linarith
      | false =>
        have : (x.significand : ℚ) * 2 ^ x.power ≤ 2 ^ 53 * 2 ^ x.power := by gcongr
        rw [lowerEnd, lowerGap, boundary, if_neg Bool.false_ne_true]
        linarith
    refine .inl ⟨?_, .of_lt wide ?_⟩
    · rintro rfl
      have gap := x.lowerGap_le
      rw [Nat.cast_zero, zero_mul, lowerEnd] at wide
      have : 0 < (x.significand - x.lowerGap) * 2 ^ x.power := mul_pos (by linarith) unit
      linarith
    · rw [← size] at low
      exact low.trans_lt under

/-! ## The shortest decimal -/

/-- The decimal of a positive finite double is a decimal of its rounding interval without its last zeros. -/
theorem shortest_found (finite : x.isFinite = true) (positive : 0 < x.significand) : ∃ (m : ℕ) (e : ℤ), 0 < m ∧
    x.roundsTo (.scaled10 m e) = true ∧ x.shortest = ⟨trimmedDigits m, e + (Nat.toDigits 10 m).length⟩ := by
  have some : ((List.range 17).findSome? fun k => x.nearestWith (.scaled2 x.significand x.power) x.point (k + 1)).isSome = true := by
    rw [List.findSome?_isSome_iff]
    exact ⟨16, by decide, seventeen_digits finite positive⟩
  obtain ⟨⟨m, e⟩, found⟩ := Option.isSome_iff_exists.mp some
  obtain ⟨k, -, nearest⟩ := List.exists_of_findSome?_eq_some found
  obtain ⟨nonzero, rounds⟩ := nearestWith_rounds nearest
  refine ⟨m, e, nonzero, rounds, ?_⟩
  unfold shortest
  rw [point] at found
  simp only [found]

/-- Only zeros are taken off. -/
theorem trimmedDigits_append (n : ℕ) : ∃ zeros, trimmedDigits n ++ List.replicate zeros '0' = Nat.toDigits 10 n := by
  have parted := List.takeWhile_append_dropWhile (p := (· == '0')) (l := (Nat.toDigits 10 n).reverse)
  have zeros : (Nat.toDigits 10 n).reverse.takeWhile (· == '0') = List.replicate _ '0' :=
    List.eq_replicate_of_mem fun c member => by simpa using List.all_eq_true.mp List.all_takeWhile c member
  rw [zeros, ← List.reverse_inj, List.reverse_append, List.reverse_replicate, List.reverse_reverse] at parted
  exact ⟨_, parted⟩

/-- The value of a decimal. -/
def Decimal.value (d : Decimal) : ℚ := Nat.ofDigitChars 10 d.digits 0 * 10 ^ (d.point - d.digits.length)

/-- The digits of a positive finite double are digits, there are some, and with the point in its place they round to it. -/
theorem shortest_inInterval (finite : x.isFinite = true) (positive : 0 < x.significand) : x.shortest.digits ≠ [] ∧
    (∀ c ∈ x.shortest.digits, c.isDigit = true) ∧ x.InInterval x.shortest.value := by
  obtain ⟨m, e, nonzero, rounds, shortest⟩ := shortest_found finite positive
  obtain ⟨zeros, whole⟩ := trimmedDigits_append m
  have value : Nat.ofDigitChars 10 (trimmedDigits m) 0 * 10 ^ zeros = m := by
    have all := Nat.ofDigitChars_ten_toDigits (n := m)
    rwa [← whole, Nat.ofDigitChars_append, Nat.ofDigitChars_replicate_zero, Nat.mul_comm] at all
  rw [shortest]
  refine ⟨?_, fun c member => ?_, ?_⟩
  · intro empty
    have empty : trimmedDigits m = [] := empty
    rw [empty, Nat.ofDigitChars_nil, Nat.zero_mul] at value
    omega
  · exact Nat.isDigit_of_mem_toDigits (by decide) (by decide) (whole ▸ List.mem_append_left _ member)
  · have inside := (roundsTo_value positive (Ratio.scaled10_den m e)).mp rounds
    have same : Decimal.value ⟨trimmedDigits m, e + (Nat.toDigits 10 m).length⟩ = m * 10 ^ e := by
      have place : e + ((Nat.toDigits 10 m).length : ℤ) - (trimmedDigits m).length = e + zeros := by
        rw [← whole, List.length_append, List.length_replicate]
        push_cast
        ring
      have exact : (Nat.ofDigitChars 10 (trimmedDigits m) 0 * 10 ^ zeros : ℚ) = m := by exact_mod_cast value
      rw [Decimal.value, place, zpow_add₀ (by norm_num), zpow_natCast, ← exact]
      ring
    rwa [same, ← Ratio.scaled10_value]

end
end PineLang.Double
