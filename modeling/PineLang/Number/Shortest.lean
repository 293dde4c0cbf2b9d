import PineLang.Number.Double

/-!
# The shortest decimal of a double

The fewest decimal digits that read back as the same double, and of those the nearest to it; of two
that are as near, the even one.
-/
namespace PineLang.Double

/-- A positive decimal: `0.d₁d₂… * 10 ^ point`. -/
structure Decimal where
  digits : List Char
  point : Int
  deriving DecidableEq, Repr

/-- Positive fractions compared by cross-multiplication. -/
structure Ratio where
  num : Nat
  den : Nat

namespace Ratio

/-- `n * 2 ^ e`. -/
def scaled2 (n : Nat) (e : Int) : Ratio :=
  if e ≥ 0 then ⟨n * Nat.pow 2 e.toNat, 1⟩ else ⟨n, Nat.pow 2 (-e).toNat⟩

/-- `n * 10 ^ e`. -/
def scaled10 (n : Nat) (e : Int) : Ratio :=
  if e ≥ 0 then ⟨n * Nat.pow 10 e.toNat, 1⟩ else ⟨n, Nat.pow 10 (-e).toNat⟩

/-- `a < b`. -/
def lt (a b : Ratio) : Bool := a.num * b.den < b.num * a.den

/-- `a ≤ b`. -/
def le (a b : Ratio) : Bool := a.num * b.den ≤ b.num * a.den

/-- The distance between two fractions. -/
def dist (a b : Ratio) : Ratio :=
  let x := a.num * b.den
  let y := b.num * a.den
  ⟨(x - y) + (y - x), a.den * b.den⟩

/-- The greatest integer not above `a / 10 ^ e`. -/
def floorAt (a : Ratio) (e : Int) : Nat :=
  if e ≥ 0 then a.num / (a.den * Nat.pow 10 e.toNat) else a.num * Nat.pow 10 (-e).toNat / a.den

end Ratio

/-- The positive reals that round to `x`: the ends, and whether the ends belong. -/
def roundingInterval (x : Double) : Ratio × Ratio × Bool :=
  let m := x.significand
  let e := x.power
  let low :=
    if x.fraction == 0 && x.exponent > 1 then Ratio.scaled2 (4 * m - 1) (e - 2)
    else Ratio.scaled2 (2 * m - 1) (e - 1)
  (low, Ratio.scaled2 (2 * m + 1) (e - 1), m % 2 == 0)

/-- `r` rounds to `x`. -/
def roundsTo (x : Double) (r : Ratio) : Bool :=
  let (low, high, closed) := x.roundingInterval
  if closed then low.le r && r.le high else low.lt r && r.lt high

/-- The least `p` with `x < 10 ^ p`, found upwards from `p`. -/
def decimalPoint (x : Ratio) : Nat → Int → Int
  | 0, p => p
  | fuel + 1, p => if x.lt (.scaled10 1 p) then p else decimalPoint x fuel (p + 1)

/-- The decimal with `n` digits nearest to the value that rounds to `x`, if there is one. A tie goes
    to the even neighbour. -/
def nearestWith (x : Double) (value : Ratio) (point : Int) (n : Nat) : Option (Nat × Int) :=
  let e := point - n
  let below := value.floorAt e
  let lo := Ratio.scaled10 below e
  let hi := Ratio.scaled10 (below + 1) e
  match below != 0 && x.roundsTo lo, x.roundsTo hi with
  | true, true =>
    let takesUpper := if below % 2 == 0 then (value.dist hi).lt (value.dist lo)
      else (value.dist hi).le (value.dist lo)
    if takesUpper then some (below + 1, e) else some (below, e)
  | true, false => some (below, e)
  | false, true => some (below + 1, e)
  | false, false => none

/-- The digits of `n` without trailing zeros. -/
def trimmedDigits (n : Nat) : List Char :=
  ((Nat.toDigits 10 n).reverse.dropWhile (· == '0')).reverse

/-- The shortest decimal of a positive finite double. Seventeen digits always suffice. -/
def shortest (x : Double) : Decimal :=
  let value := Ratio.scaled2 x.significand x.power
  let start : Int := (x.power + x.significand.log2) * 3 / 10 - 2
  let point := decimalPoint value 700 start
  match (List.range 17).findSome? fun k => x.nearestWith value point (k + 1) with
  | some (n, e) =>
    let all := Nat.toDigits 10 n
    ⟨trimmedDigits n, e + all.length⟩
  | none => ⟨[], 0⟩

/-! ## General notation -/

/-- An exponent with a sign and at least two digits. -/
def exponentText (e : Int) : String :=
  let digits := toString e.natAbs
  (if e < 0 then "e-" else "e+") ++ (if digits.length < 2 then "0" ++ digits else digits)

/-- One digit, the others after a point, and the exponent. -/
def scientific (d : Decimal) : String :=
  let head := String.ofList (d.digits.take 1)
  let tail := String.ofList (d.digits.drop 1)
  (if tail.isEmpty then head else head ++ "." ++ tail) ++ exponentText (d.point - 1)

/-- All digits in their places. -/
def positional (d : Decimal) : String :=
  if d.point ≤ 0 then
    "0." ++ String.ofList (List.replicate (-d.point).toNat '0' ++ d.digits)
  else
    let p := d.point.toNat
    let whole := d.digits.take p ++ List.replicate (p - d.digits.length) '0'
    let rest := d.digits.drop p
    String.ofList whole ++ (if rest.isEmpty then "" else "." ++ String.ofList rest)

/-- General notation writes exponents from this one on with an exponent mark. -/
def positionalLimit : Int := 6

/-- General notation: the shortest digits, positional for exponents from -4 up to the limit. -/
def general (x : Double) : String :=
  if !x.isFinite then
    if x.fraction != 0 then "NaN" else if x.isNegative then "-Inf" else "+Inf"
  else
    let sign := if x.isNegative then "-" else ""
    if x.significand == 0 then sign ++ "0"
    else
      let d := x.shortest
      let e := d.point - 1
      sign ++ (if e < -4 || e ≥ positionalLimit then scientific d else positional d)

end PineLang.Double
