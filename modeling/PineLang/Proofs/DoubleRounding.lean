import Mathlib.Algebra.Order.Archimedean.Basic
import Mathlib.Algebra.Order.Field.Power
import Mathlib.Data.Nat.Log
import Mathlib.Tactic.FieldSimp
import Mathlib.Tactic.GCongr
import Mathlib.Tactic.Linarith
import Mathlib.Tactic.Positivity
import Mathlib.Tactic.Ring
import PineLang.Number.Shortest

/-!
# Rounding to a double

A positive fraction that lies in the rounding interval of a finite double is rounded to that double (`ofRatio_interval`).
Fractions are taken for the rationals that they are, so that nothing depends on how they are written. Below the least
number of a binade the numbers lie twice as close, which is where the rounded significand is carried over.
-/
namespace PineLang.Double

/-! ## Fractions as rationals -/

namespace Ratio

/-- The rational that the fraction is. -/
def value (r : Ratio) : ℚ := r.num / r.den

variable {a b : Ratio}

theorem lt_iff (ha : 0 < a.den) (hb : 0 < b.den) : a.lt b = true ↔ a.value < b.value := by
  have ha' : (0 : ℚ) < a.den := by exact_mod_cast ha
  have hb' : (0 : ℚ) < b.den := by exact_mod_cast hb
  rw [lt, decide_eq_true_iff, value, value, div_lt_div_iff₀ ha' hb']
  exact_mod_cast Iff.rfl

theorem le_iff (ha : 0 < a.den) (hb : 0 < b.den) : a.le b = true ↔ a.value ≤ b.value := by
  have ha' : (0 : ℚ) < a.den := by exact_mod_cast ha
  have hb' : (0 : ℚ) < b.den := by exact_mod_cast hb
  rw [le, decide_eq_true_iff, value, value, div_le_div_iff₀ ha' hb']
  exact_mod_cast Iff.rfl

/-- A power with a whole exponent, as the numerator or the denominator that it is. -/
theorem zpow_cases (base : ℕ) (e : ℤ) :
    (base : ℚ) ^ e = if e ≥ 0 then ((base ^ e.toNat : ℕ) : ℚ) else 1 / ((base ^ (-e).toNat : ℕ) : ℚ) := by
  split
  · next h =>
    obtain ⟨n, rfl⟩ := Int.eq_ofNat_of_zero_le h
    simp
  · next h =>
    obtain ⟨n, hn⟩ := Int.eq_ofNat_of_zero_le (by omega : 0 ≤ -e)
    obtain rfl : e = -(n : ℤ) := by omega
    simp

theorem scaled2_den (n : ℕ) (e : ℤ) : 0 < (scaled2 n e).den := by
  unfold scaled2
  split
  · exact Nat.one_pos
  · exact Nat.pow_pos (by decide)

theorem scaled2_value (n : ℕ) (e : ℤ) : (scaled2 n e).value = n * 2 ^ e := by
  have power := zpow_cases 2 e
  rw [Nat.cast_ofNat] at power
  rw [power]
  unfold scaled2 value
  split <;> simp [div_eq_mul_inv]

theorem scaled10_den (n : ℕ) (e : ℤ) : 0 < (scaled10 n e).den := by
  unfold scaled10
  split
  · exact Nat.one_pos
  · exact Nat.pow_pos (by decide)

theorem scaled10_value (n : ℕ) (e : ℤ) : (scaled10 n e).value = n * 10 ^ e := by
  have power := zpow_cases 10 e
  rw [Nat.cast_ofNat] at power
  rw [power]
  unfold scaled10 value
  split <;> simp [div_eq_mul_inv]

end Ratio

/-! ## Rounding to integers and to powers of two -/

/-- What lies less than a half from an integer is rounded to it, and what lies a half from it if the integer is even. -/
theorem roundToEven_eq {n d k : ℕ} (low : 2 * k * d ≤ 2 * n + d) (high : 2 * n ≤ 2 * k * d + d)
    (tie : k % 2 = 1 → 2 * k * d < 2 * n + d ∧ 2 * n < 2 * k * d + d) (hd : 0 < d) : roundToEven n d = k := by
  have parts := Nat.div_add_mod n d
  have small := Nat.mod_lt n hd
  unfold roundToEven
  set q := n / d
  set r := n % d
  -- The integer is the quotient or the one above it.
  have above : k ≤ q + 1 := by
    by_contra far
    have : (q + 2) * d ≤ k * d := Nat.mul_le_mul_right d (by omega)
    nlinarith
  have below : q ≤ k := by
    by_contra far
    have : (k + 1) * d ≤ q * d := Nat.mul_le_mul_right d (by omega)
    nlinarith
  obtain rfl | rfl : k = q ∨ k = q + 1 := by omega
  · have half : 2 * r ≤ d := by nlinarith
    by_cases isTie : 2 * r = d
    · have even : q % 2 = 0 := by
        by_contra odd
        have := (tie (by omega)).2
        nlinarith
      simp [isTie, even]
    · simp [(by omega : 2 * r < d)]
  · have half : d ≤ 2 * r := by nlinarith
    by_cases isTie : 2 * r = d
    · have odd : q % 2 = 1 := by
        by_contra even
        have := (tie (by omega)).1
        nlinarith
      simp [isTie, odd]
    · have beyond : 2 * r > d := by omega
      rw [if_neg (by omega), if_pos beyond]

/-- The same for the rational: `k` is the integer nearest to `n / d`, or the even one of two. -/
theorem roundToEven_near {n d k : ℕ} (hd : 0 < d) (low : (k : ℚ) - 1 / 2 ≤ n / d) (high : (n : ℚ) / d ≤ k + 1 / 2)
    (tie : k % 2 = 1 → (k : ℚ) - 1 / 2 < n / d ∧ (n : ℚ) / d < k + 1 / 2) : roundToEven n d = k := by
  have hd' : (0 : ℚ) < d := by exact_mod_cast hd
  rw [le_div_iff₀ hd'] at low
  rw [div_le_iff₀ hd'] at high
  refine roundToEven_eq ?_ ?_ (fun odd => ?_) hd
  · have : (2 * k * d : ℚ) ≤ 2 * n + d := by linarith
    exact_mod_cast this
  · have : (2 * n : ℚ) ≤ 2 * k * d + d := by linarith
    exact_mod_cast this
  · obtain ⟨below, above⟩ := tie odd
    rw [lt_div_iff₀ hd'] at below
    rw [div_lt_iff₀ hd'] at above
    constructor
    · have : (2 * k * d : ℚ) < 2 * n + d := by linarith
      exact_mod_cast this
    · have : (2 * n : ℚ) < 2 * k * d + d := by linarith
      exact_mod_cast this

/-- The binary logarithm is found from the lengths of the numerator and the denominator. -/
theorem floorLog2_eq {n d : ℕ} (hn : 0 < n) (hd : 0 < d) {e : ℤ} (low : (2 : ℚ) ^ e ≤ n / d) (high : (n : ℚ) / d < 2 ^ (e + 1)) :
    floorLog2 n d = e := by
  have hn' : (0 : ℚ) < n := by exact_mod_cast hn
  have hd' : (0 : ℚ) < d := by exact_mod_cast hd
  -- The fraction lies within a factor of two of the power of the difference of the lengths.
  have numerator : (2 : ℚ) ^ n.log2 ≤ n ∧ (n : ℚ) < 2 ^ (n.log2 + 1) := by
    exact_mod_cast And.intro (Nat.log2_self_le hn.ne') (Nat.lt_log2_self (n := n))
  have denominator : (2 : ℚ) ^ d.log2 ≤ d ∧ (d : ℚ) < 2 ^ (d.log2 + 1) := by
    exact_mod_cast And.intro (Nat.log2_self_le hd.ne') (Nat.lt_log2_self (n := d))
  have guess_lt : (2 : ℚ) ^ ((n.log2 : ℤ) - d.log2 - 1) < n / d := by
    rw [lt_div_iff₀ hd']
    calc (2 : ℚ) ^ ((n.log2 : ℤ) - d.log2 - 1) * d < 2 ^ ((n.log2 : ℤ) - d.log2 - 1) * 2 ^ (d.log2 + 1) := by
          gcongr
          exact denominator.2
      _ = 2 ^ n.log2 := by
          rw [← zpow_natCast, ← zpow_natCast (2 : ℚ) n.log2, ← zpow_add₀ (by norm_num)]
          congr 1
          push_cast
          ring
      _ ≤ n := numerator.1
  have lt_guess : (n : ℚ) / d < 2 ^ ((n.log2 : ℤ) - d.log2 + 1) := by
    rw [div_lt_iff₀ hd']
    calc (n : ℚ) < 2 ^ (n.log2 + 1) := numerator.2
      _ = 2 ^ ((n.log2 : ℤ) - d.log2 + 1) * 2 ^ d.log2 := by
          rw [← zpow_natCast, ← zpow_natCast (2 : ℚ) d.log2, ← zpow_add₀ (by norm_num)]
          congr 1
          push_cast
          ring
      _ ≤ 2 ^ ((n.log2 : ℤ) - d.log2 + 1) * d := by
          gcongr
          exact denominator.1
  have least : e ≤ (n.log2 : ℤ) - d.log2 := by
    have := (zpow_lt_zpow_iff_right₀ (by norm_num : (1 : ℚ) < 2)).mp (low.trans_lt lt_guess)
    omega
  have most : (n.log2 : ℤ) - d.log2 - 1 ≤ e := by
    have := (zpow_lt_zpow_iff_right₀ (by norm_num : (1 : ℚ) < 2)).mp (guess_lt.trans high)
    omega
  unfold floorLog2
  simp only
  generalize (n.log2 : ℤ) - d.log2 = guess at least most
  have reached : (if guess ≥ 0 then n ≥ d * Nat.pow 2 guess.toNat else n * Nat.pow 2 (-guess).toNat ≥ d) ↔
      (2 : ℚ) ^ guess ≤ n / d := by
    have power := Ratio.zpow_cases 2 guess
    rw [Nat.cast_ofNat] at power
    rw [power]
    split
    · rw [le_div_iff₀ hd', ge_iff_le, mul_comm d]
      exact_mod_cast Iff.rfl
    · have positive : (0 : ℚ) < ((2 ^ (-guess).toNat : ℕ) : ℚ) := by positivity
      rw [div_le_div_iff₀ positive hd', one_mul, ge_iff_le]
      exact_mod_cast Iff.rfl
  rw [if_congr reached rfl rfl]
  split
  · next reaches =>
    have := (zpow_lt_zpow_iff_right₀ (by norm_num : (1 : ℚ) < 2)).mp (reaches.trans_lt high)
    omega
  · next short =>
    have := (zpow_lt_zpow_iff_right₀ (by norm_num : (1 : ℚ) < 2)).mp (low.trans_lt (not_le.mp short))
    omega

/-! ## Doubles -/

/-- A significand and its power of two, carried over to the next binade if it is too long, as a double. -/
def assemble? (m : ℕ) (scale : ℤ) : Option Double :=
  let (m, scale) := if m == 0x20000000000000 then (0x10000000000000, scale + 1) else (m, scale)
  if scale > 971 then none
  else if m < 0x10000000000000 then some ⟨m.toUInt64⟩
  else some ⟨((scale + 1075).toNat * 0x10000000000000 + (m - 0x10000000000000)).toUInt64⟩

/-- A fraction is rounded at the scale of its binade to the nearest significand. -/
theorem ofRatio_near {n d k : ℕ} (hn : 0 < n) (hd : 0 < d) {e : ℤ} (above : (2 : ℚ) ^ e ≤ n / d) (below : (n : ℚ) / d < 2 ^ (e + 1))
    {scale : ℤ} (isScale : max (e - 52) (-1074) = scale) (low : ((k : ℚ) - 1 / 2) * 2 ^ scale ≤ n / d)
    (high : (n : ℚ) / d ≤ (k + 1 / 2) * 2 ^ scale)
    (tie : k % 2 = 1 → ((k : ℚ) - 1 / 2) * 2 ^ scale < n / d ∧ (n : ℚ) / d < (k + 1 / 2) * 2 ^ scale) :
    ofRatio? n d = assemble? k scale := by
  have notZero : (n == 0) = false := by simpa using hn.ne'
  have rounded : (if scale ≥ 0 then roundToEven n (d * Nat.pow 2 scale.toNat)
      else roundToEven (n * Nat.pow 2 (-scale).toNat) d) = k := by
    have hd' : (0 : ℚ) < d := by exact_mod_cast hd
    have hs : (0 : ℚ) < 2 ^ scale := by positivity
    have power := Ratio.zpow_cases 2 scale
    rw [Nat.cast_ofNat] at power
    rw [← le_div_iff₀ hs] at low
    rw [← div_le_iff₀ hs] at high
    rw [← lt_div_iff₀ hs, ← div_lt_iff₀ hs] at tie
    split
    · next positive =>
      rw [if_pos positive] at power
      have same : (n : ℚ) / d / 2 ^ scale = (n : ℚ) / ((d * Nat.pow 2 scale.toNat : ℕ) : ℚ) := by
        rw [power, div_div, ← Nat.cast_mul]
        rfl
      rw [same] at low high tie
      exact roundToEven_near (Nat.mul_pos hd (Nat.pow_pos (by decide))) low high tie
    · next negative =>
      rw [if_neg negative] at power
      have same : (n : ℚ) / d / 2 ^ scale = ((n * Nat.pow 2 (-scale).toNat : ℕ) : ℚ) / d := by
        rw [power, div_div_eq_mul_div, div_one, div_mul_eq_mul_div, ← Nat.cast_mul]
        rfl
      rw [same] at low high tie
      exact roundToEven_near hd low high tie
  unfold ofRatio?
  rw [notZero, if_neg Bool.false_ne_true, floorLog2_eq hn hd above below, isScale]
  simp only [rounded]
  rfl

/-! ## The parts of a double -/

section Parts

variable {x : Double} {r : Ratio}

/-- The double without its sign. -/
def magnitude (x : Double) : Double := ⟨(x.bits.toNat % 0x8000000000000000).toUInt64⟩

theorem fraction_lt (x : Double) : x.fraction < 2 ^ 52 := Nat.mod_lt _ (by decide)

theorem exponent_lt (x : Double) : x.exponent < 2 ^ 11 := Nat.mod_lt _ (by decide)

theorem magnitude_eq (x : Double) : x.magnitude = ⟨(x.exponent * 2 ^ 52 + x.fraction).toUInt64⟩ := by
  have parts : x.bits.toNat % 0x8000000000000000 = x.exponent * 2 ^ 52 + x.fraction := by
    unfold exponent fraction
    omega
  rw [magnitude, parts]

/-- A significand is that of its binade, or of the numbers below the least binade. -/
theorem significand_cases (x : Double) : (x.exponent = 0 ∧ x.significand = x.fraction ∧ x.power = -1074) ∨
    (0 < x.exponent ∧ x.significand = x.fraction + 2 ^ 52 ∧ x.power = (x.exponent : ℤ) - 1075) := by
  unfold significand power
  by_cases least : x.exponent = 0
  · simp [least]
  · simp [least]
    omega

theorem significand_lt (x : Double) : x.significand < 2 ^ 53 := by
  have := x.fraction_lt
  obtain ⟨-, same, -⟩ | ⟨-, same, -⟩ := significand_cases x <;> omega

/-- The double is the least of its binade, and another binade lies below. -/
def isBoundary (x : Double) : Bool := x.fraction == 0 && x.exponent > 1

/-- Half the way from the double to the one below it. -/
def lowerGap (x : Double) : ℚ := if x.isBoundary then 1 / 4 else 1 / 2

/-- Where the reals that round to the double begin. -/
def lowerEnd (x : Double) : ℚ := (x.significand - x.lowerGap) * 2 ^ x.power

/-- Where the reals that round to the double end. -/
def upperEnd (x : Double) : ℚ := (x.significand + 1 / 2) * 2 ^ x.power

theorem lowerGap_le (x : Double) : x.lowerGap ≤ 1 / 2 := by
  unfold lowerGap
  split <;> norm_num

theorem lowerGap_pos (x : Double) : 0 < x.lowerGap := by
  unfold lowerGap
  split <;> norm_num

/-- The least double of a binade has a one and no other bit. -/
theorem boundary_significand {x : Double} (boundary : x.isBoundary = true) :
    x.significand = 2 ^ 52 ∧ 1 < x.exponent ∧ x.power = (x.exponent : ℤ) - 1075 := by
  obtain ⟨first, deep⟩ : x.fraction = 0 ∧ 1 < x.exponent := by simpa [isBoundary] using boundary
  obtain ⟨zero, -⟩ | ⟨-, same, scale⟩ := significand_cases x
  · omega
  · exact ⟨by omega, deep, scale⟩

theorem roundsTo_iff (positive : 0 < x.significand) (hr : 0 < r.den) : x.roundsTo r = true ↔
    if x.significand % 2 = 0 then x.lowerEnd ≤ r.value ∧ r.value ≤ x.upperEnd
    else x.lowerEnd < r.value ∧ r.value < x.upperEnd := by
  have step (k : ℤ) : (2 : ℚ) ^ (x.power - k) = 2 ^ x.power / 2 ^ k := zpow_sub₀ (by norm_num) _ _
  have high : (Ratio.scaled2 (2 * x.significand + 1) (x.power - 1)).value = x.upperEnd := by
    rw [Ratio.scaled2_value, step, upperEnd]
    push_cast
    ring
  have low : (if x.isBoundary then Ratio.scaled2 (4 * x.significand - 1) (x.power - 2)
      else Ratio.scaled2 (2 * x.significand - 1) (x.power - 1)).value = x.lowerEnd := by
    rw [lowerEnd, lowerGap]
    split
    · rw [Ratio.scaled2_value, step, Nat.cast_sub (by omega)]
      push_cast
      ring
    · rw [Ratio.scaled2_value, step, Nat.cast_sub (by omega)]
      push_cast
      ring
  have lowDen : 0 < (if x.isBoundary then Ratio.scaled2 (4 * x.significand - 1) (x.power - 2)
      else Ratio.scaled2 (2 * x.significand - 1) (x.power - 1)).den := by
    split <;> exact Ratio.scaled2_den _ _
  have highDen := Ratio.scaled2_den (2 * x.significand + 1) (x.power - 1)
  unfold roundsTo roundingInterval
  rw [← isBoundary]
  simp only
  by_cases even : x.significand % 2 = 0
  · rw [if_pos even, if_pos (by simpa using even), Bool.and_eq_true, Ratio.le_iff lowDen hr, Ratio.le_iff hr highDen, low, high]
  · rw [if_neg even, if_neg (by simpa using even), Bool.and_eq_true, Ratio.lt_iff lowDen hr, Ratio.lt_iff hr highDen, low, high]

end Parts

/-! ## Rounding within the interval -/

/-- The significand of a double at its scale is put together as the double without its sign. -/
theorem assemble_magnitude {x : Double} (finite : x.isFinite = true) : assemble? x.significand x.power = some x.magnitude := by
  have small := x.significand_lt
  have fits := x.fraction_lt
  have most : x.exponent ≤ 2046 := by
    have := x.exponent_lt
    have : x.exponent ≠ 2047 := by simpa [isFinite] using finite
    omega
  have notLong : (x.significand == 0x20000000000000) = false := by
    rw [beq_eq_false_iff_ne]
    omega
  rw [magnitude_eq, assemble?, notLong, if_neg Bool.false_ne_true]
  simp only
  obtain ⟨least, same, scale⟩ | ⟨normal, same, scale⟩ := significand_cases x
  · rw [scale, if_neg (by decide), if_pos (by omega), same, least, Nat.zero_mul, Nat.zero_add]
  · have together : ((x.exponent : ℤ) - 1075 + 1075).toNat * 0x10000000000000 + (x.fraction + 2 ^ 52 - 0x10000000000000) =
        x.exponent * 2 ^ 52 + x.fraction := by omega
    rw [scale, if_neg (by omega), if_neg (by omega), same, together]

/-- A significand that is too long is carried over. -/
theorem assemble_carry (scale : ℤ) : assemble? (2 ^ 53) scale = assemble? (2 ^ 52) (scale + 1) := rfl

/-- A rational of the rounding interval: the ends belong to it if the significand is even. -/
structure InInterval (x : Double) (q : ℚ) : Prop where
  low : x.lowerEnd ≤ q
  high : q ≤ x.upperEnd
  odd : x.significand % 2 = 1 → x.lowerEnd < q ∧ q < x.upperEnd

section Interval
variable {x : Double} {q : ℚ} {e : ℤ}

theorem power_add (x : Double) (k : ℤ) : (2 : ℚ) ^ (x.power + k) = 2 ^ k * 2 ^ x.power := by
  rw [add_comm, zpow_add₀ (by norm_num)]

theorem lt_of_powers {k : ℤ} (begins : (2 : ℚ) ^ e ≤ q) (below : q < 2 ^ k) : e < k :=
  (zpow_lt_zpow_iff_right₀ (by norm_num : (1 : ℚ) < 2)).mp (begins.trans_lt below)

theorem roundsTo_value {r : Ratio} (positive : 0 < x.significand) (hr : 0 < r.den) :
    x.roundsTo r = true ↔ x.InInterval r.value := by
  rw [roundsTo_iff positive hr]
  constructor
  · intro inside
    split at inside
    · next even => exact ⟨inside.1, inside.2, fun odd => by omega⟩
    · exact ⟨inside.1.le, inside.2.le, fun _ => inside⟩
  · intro inside
    split
    · exact ⟨inside.low, inside.high⟩
    · exact inside.odd (by omega)

namespace InInterval

theorem positive (inside : x.InInterval q) (some : 0 < x.significand) : 0 < q := by
  have least : (1 : ℚ) ≤ x.significand := by exact_mod_cast some
  have gap := x.lowerGap_le
  refine lt_of_lt_of_le ?_ inside.low
  rw [lowerEnd]
  exact mul_pos (by linarith) (by positivity)

/-- What rounds to the double lies below the power of two that its significand lies below. -/
theorem lt_power (inside : x.InInterval q) {k : ℕ} (short : x.significand < 2 ^ k) : q < 2 ^ (x.power + k) := by
  have : (x.significand + 1 : ℚ) ≤ 2 ^ k := by exact_mod_cast short
  refine inside.high.trans_lt ?_
  rw [upperEnd, power_add, zpow_natCast]
  gcongr
  linarith

/-- What rounds to the double lies less than a half below it, or a half below an even one. -/
theorem halfway (inside : x.InInterval q) : (x.significand - 1 / 2 : ℚ) * 2 ^ x.power ≤ q ∧
    (x.significand % 2 = 1 → (x.significand - 1 / 2 : ℚ) * 2 ^ x.power < q) := by
  have below : (x.significand - 1 / 2 : ℚ) * 2 ^ x.power ≤ x.lowerEnd := by
    have := x.lowerGap_le
    rw [lowerEnd]
    gcongr
  exact ⟨below.trans inside.low, fun odd => below.trans_lt (inside.odd odd).1⟩

variable {n d : ℕ}

/-- Below the least double of a binade the significand is found at the scale of the binade below, and carried over. -/
theorem ofRatio_below (inside : x.InInterval ((n : ℚ) / d)) (hn : 0 < n) (hd : 0 < d) (boundary : x.isBoundary = true)
    (begins : (2 : ℚ) ^ e ≤ n / d) (ends : (n : ℚ) / d < 2 ^ (e + 1)) (below : (n : ℚ) / d < 2 ^ (x.power + 52)) :
    ofRatio? n d = assemble? x.significand x.power := by
  obtain ⟨least, deep, scale⟩ := boundary_significand boundary
  have lowEnd : x.lowerEnd = (2 ^ 52 - 1 / 4 : ℚ) * 2 ^ x.power := by
    rw [lowerEnd, lowerGap, if_pos boundary, least]
    norm_num
  have double : (2 : ℚ) ^ x.power = 2 * 2 ^ (x.power - 1) := by
    rw [zpow_sub_one₀ (by norm_num)]
    ring
  have reaches : (2 : ℚ) ^ (x.power + 51) ≤ n / d := by
    refine le_trans ?_ inside.low
    rw [lowEnd, power_add]
    gcongr
    norm_num
  have finer : max (e - 52) (-1074) = x.power - 1 := by
    have := lt_of_powers begins below
    have := lt_of_powers reaches ends
    omega
  rw [least, ← sub_add_cancel x.power 1, ← assemble_carry]
  refine ofRatio_near hn hd begins ends finer ?_ ?_ (fun odd => absurd odd (by norm_num))
  · calc ((2 ^ 53 : ℕ) - 1 / 2 : ℚ) * 2 ^ (x.power - 1) = (2 ^ 52 - 1 / 4) * 2 ^ x.power := by
          rw [double]
          push_cast
          ring
      _ ≤ n / d := lowEnd ▸ inside.low
  · calc (n : ℚ) / d ≤ 2 ^ 52 * 2 ^ x.power := (power_add x 52 ▸ below).le
      _ = 2 ^ 53 * 2 ^ (x.power - 1) := by
          rw [double]
          ring
      _ ≤ ((2 ^ 53 : ℕ) + 1 / 2 : ℚ) * 2 ^ (x.power - 1) := by
          push_cast
          gcongr
          norm_num

/-- Elsewhere the scale of the double is that of what rounds to it. -/
theorem scale_eq (inside : x.InInterval q) (begins : (2 : ℚ) ^ e ≤ q) (ends : q < 2 ^ (e + 1))
    (binade : x.isBoundary = true → (2 : ℚ) ^ (x.power + 52) ≤ q) : max (e - 52) (-1074) = x.power := by
  obtain ⟨-, same, scale⟩ | ⟨normal, same, scale⟩ := significand_cases x
  · have := lt_of_powers begins (inside.lt_power (k := 52) (same ▸ x.fraction_lt))
    omega
  · have most := lt_of_powers begins (inside.lt_power x.significand_lt)
    by_cases reaches : (2 : ℚ) ^ (x.power + 52) ≤ q
    · have := lt_of_powers reaches ends
      omega
    · -- Only the least double of a binade reaches below it, and here no binade lies below.
      have below := not_le.mp reaches
      have first : x.fraction = 0 := by
        have close := lt_of_mul_lt_mul_right (inside.halfway.1.trans_lt (power_add x 52 ▸ below)) (by positivity)
        have : (x.significand : ℚ) < 2 ^ 52 + 1 := by
          have : (2 : ℚ) ^ (52 : ℤ) = 2 ^ 52 := by norm_num
          linarith
        have : x.significand < 2 ^ 52 + 1 := by exact_mod_cast this
        omega
      have lowest : x.exponent ≤ 1 := by
        by_contra deep
        exact reaches (binade (by simp [isBoundary, first]; omega))
      have := lt_of_powers begins below
      omega

end InInterval

/-- What lies in the rounding interval of a finite double is rounded to it. -/
theorem ofRatio_interval {n d : ℕ} (finite : x.isFinite = true) (positive : 0 < x.significand) (hd : 0 < d)
    (rounds : x.roundsTo ⟨n, d⟩ = true) : ofRatio? n d = some x.magnitude := by
  have inside : x.InInterval ((n : ℚ) / d) := (roundsTo_value (r := ⟨n, d⟩) positive hd).mp rounds
  have above := inside.positive positive
  have hn : 0 < n := by
    rcases Nat.eq_zero_or_pos n with rfl | some
    · simp at above
    · exact some
  obtain ⟨e, begins, ends⟩ := exists_mem_Ico_zpow above (by norm_num : (1 : ℚ) < 2)
  rw [← assemble_magnitude finite]
  by_cases binade : x.isBoundary = true ∧ (n : ℚ) / d < 2 ^ (x.power + 52)
  · exact inside.ofRatio_below hn hd binade.1 begins ends binade.2
  · have reaches (boundary : x.isBoundary = true) : (2 : ℚ) ^ (x.power + 52) ≤ n / d :=
      not_lt.mp fun below => binade ⟨boundary, below⟩
    exact ofRatio_near hn hd begins ends (inside.scale_eq begins ends reaches) inside.halfway.1 inside.high fun odd =>
      ⟨inside.halfway.2 odd, (inside.odd odd).2⟩

end Interval

end PineLang.Double
