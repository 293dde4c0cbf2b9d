/-!
# Double-precision numbers

A double is its sixty-four bits. A decimal fraction is read as the nearest double, a tie going to
the even significand, by exact arithmetic on the numerator and the denominator.
-/
namespace PineLang

/-- A number in IEEE 754 binary64, known by its bits. -/
structure Double where
  bits : UInt64
  deriving DecidableEq, Repr, Inhabited

namespace Double

/-- The bits below the sign and the exponent. -/
def fraction (x : Double) : Nat := x.bits.toNat % 0x10000000000000

/-- The exponent field. -/
def exponent (x : Double) : Nat := x.bits.toNat / 0x10000000000000 % 0x800

/-- The sign bit is set. -/
def isNegative (x : Double) : Bool := x.bits.toNat ≥ 0x8000000000000000

/-- Neither infinite nor a NaN. -/
def isFinite (x : Double) : Bool := x.exponent != 2047

/-- A finite double is `significand * 2 ^ power`, up to its sign. -/
def significand (x : Double) : Nat :=
  if x.exponent == 0 then x.fraction else x.fraction + 0x10000000000000

/-- The power of two that scales the significand. -/
def power (x : Double) : Int :=
  if x.exponent == 0 then -1074 else (x.exponent : Int) - 1075

/-- `n / d` rounded to the nearest integer, a tie going to the even one. -/
def roundToEven (n d : Nat) : Nat :=
  let q := n / d
  let r := n % d
  if 2 * r < d then q
  else if 2 * r > d then q + 1
  else if q % 2 == 0 then q else q + 1

/-- The greatest `e` with `2 ^ e ≤ n / d`, for positive `n` and `d`. -/
def floorLog2 (n d : Nat) : Int :=
  let guess : Int := (n.log2 : Int) - d.log2
  let reached := if guess ≥ 0 then n ≥ d * Nat.pow 2 guess.toNat else n * Nat.pow 2 (-guess).toNat ≥ d
  if reached then guess else guess - 1

/-- The double nearest to `n / d`; none if that lies beyond the greatest finite double. -/
def ofRatio? (n d : Nat) : Option Double :=
  if n == 0 then some ⟨0⟩
  else
    let scale : Int := max (floorLog2 n d - 52) (-1074)
    let m := if scale ≥ 0 then roundToEven n (d * Nat.pow 2 scale.toNat)
      else roundToEven (n * Nat.pow 2 (-scale).toNat) d
    let (m, scale) := if m == 0x20000000000000 then (0x10000000000000, scale + 1) else (m, scale)
    if scale > 971 then none
    else if m < 0x10000000000000 then some ⟨m.toUInt64⟩
    else some ⟨((scale + 1075).toNat * 0x10000000000000 + (m - 0x10000000000000)).toUInt64⟩

/-- The value of a string of decimal digits. -/
def digitsValue (ds : List Char) : Nat :=
  ds.foldl (fun n c => n * 10 + (c.toNat - '0'.toNat)) 0

/-- The double nearest to the decimal fraction with these digits before and after the point. -/
def ofDecimal? (whole fraction : List Char) : Option Double :=
  ofRatio? (digitsValue (whole ++ fraction)) (Nat.pow 10 fraction.length)

/-- A finite double that is not negative, with a fixed number of decimals; a tie goes to the even
    digit. -/
def fixed (places : Nat) (x : Double) : String :=
  let n := if x.power ≥ 0 then x.significand * Nat.pow 2 x.power.toNat * Nat.pow 10 places
    else roundToEven (x.significand * Nat.pow 10 places) (Nat.pow 2 (-x.power).toNat)
  let fraction := toString (n % Nat.pow 10 places)
  toString (n / Nat.pow 10 places) ++
    if places = 0 then "" else "." ++ "".pushn '0' (places - fraction.length) ++ fraction

/-- The quotient of two numbers as a double, with a fixed number of decimals. -/
def fixedRatio (places n d : Nat) : String := ((ofRatio? n d).map (fixed places)).getD ""

end Double
end PineLang
