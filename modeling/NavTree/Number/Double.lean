/-! # Binary64 numbers as exact integers

A finite double is a sign and a product `mantissa * 2 ^ exponent`. Rounding goes to the nearest such
product, with ties to the even mantissa, so no machine arithmetic is involved. A decimal is rounded
once; the parts of a JSON number are rounded as they are put together, which may end beside the
nearest double.
-/
namespace NavTree

/-- A nonnegative decimal `digits * 10 ^ exponent`. -/
structure Decimal where
  digits : Nat
  exponent : Int
deriving DecidableEq, Repr

/-- A double. Rounded ones have a mantissa below `2 ^ 53`, and one of at least `2 ^ 52` unless the
exponent is the least one, `-1074`. They are finite if the exponent is at most `971`. -/
structure Double where
  negative : Bool
  mantissa : Nat
  exponent : Int
deriving DecidableEq, Repr

namespace Double

/-- The integer nearest to `num / den`, a tie going to the even one. -/
def roundDiv (num den : Nat) : Nat :=
  let q := num / den
  match compare (2 * (num % den)) den with
  | .lt => q
  | .gt => q + 1
  | .eq => if q % 2 == 0 then q else q + 1

/-- The greatest `k` with `2 ^ k ≤ num / den`. -/
def binaryLog (num den : Nat) : Int :=
  let k : Int := (num.log2 : Int) - (den.log2 : Int)
  if num * Nat.pow 2 (-k).toNat < den * Nat.pow 2 k.toNat then k - 1 else k

def zero (negative : Bool) : Double := ⟨negative, 0, -1074⟩

/-- The double nearest to `num / den`, with no bound on its exponent. -/
def nearest (num den : Nat) : Double :=
  if num = 0 then zero false
  else
    let q := max (binaryLog num den - 52) (-1074)
    let m := roundDiv (num * Nat.pow 2 (-q).toNat) (den * Nat.pow 2 q.toNat)
    if m = Nat.pow 2 53 then ⟨false, Nat.pow 2 52, q + 1⟩ else ⟨false, m, q⟩

/-- The double under a sign, unless it is infinite. -/
def finite? (negative : Bool) (x : Double) : Option Double :=
  if x.exponent > 971 then none else some { x with negative := negative }

/-- The nearest double, or `none` when the decimal rounds to infinity. Decimals far outside the
range are answered before any power of ten is computed. -/
def ofDecimal? (negative : Bool) (d : Decimal) : Option Double :=
  if d.digits = 0 ∨ d.exponent < -(400 + (d.digits.log2 : Int)) then some (zero negative)
  else if d.exponent > 400 then none
  else finite? negative
    (nearest (d.digits * Nat.pow 10 d.exponent.toNat) (Nat.pow 10 (-d.exponent).toNat))

def powerOfTen (k : Nat) : Double := nearest (Nat.pow 10 k) 1

/-- The rounded product of the absolute values. -/
def product (x y : Double) : Double :=
  let e := x.exponent + y.exponent
  nearest (x.mantissa * y.mantissa * Nat.pow 2 e.toNat) (Nat.pow 2 (-e).toNat)

/-- The rounded quotient of the absolute values. -/
def quotient (x y : Double) : Double :=
  let e := x.exponent - y.exponent
  nearest (x.mantissa * Nat.pow 2 e.toNat) (y.mantissa * Nat.pow 2 (-e).toNat)

/-- Division by `10 ^ k`, with a rounding for every power of ten that is a double. -/
def scaleDown (x : Double) (k : Nat) : Double :=
  if k ≤ 308 then x.quotient (powerOfTen k)
  else if x.mantissa = 0 then x
  else scaleDown (x.quotient (powerOfTen 308)) (k - 308)
termination_by k

/-- The digits are rounded first, then their product with the power of ten or their quotient. Above
the powers of ten that are doubles only zero is not out of range. -/
def ofParts? (negative : Bool) (d : Decimal) : Option Double :=
  let x := nearest d.digits 1
  if d.exponent < 0 then finite? negative (x.scaleDown (-d.exponent).toNat)
  else if d.exponent ≤ 308 then finite? negative (x.product (powerOfTen d.exponent.toNat))
  else if d.digits = 0 then some (zero negative)
  else none

/-- Exact comparison of `a * 10 ^ i` with `n * 2 ^ j`. -/
def compareScaled (a : Nat) (i : Int) (n : Nat) (j : Int) : Ordering :=
  compare (a * Nat.pow 10 i.toNat * Nat.pow 2 (-j).toNat)
    (n * Nat.pow 2 j.toNat * Nat.pow 10 (-i).toNat)

/-- A decimal reads back to the double when it lies between the halfway points to its neighbours,
these points included exactly when the mantissa is even. -/
def readsBack (x : Double) (d : Decimal) : Bool :=
  let narrow := x.mantissa == Nat.pow 2 52 && decide (x.exponent > -1074)
  let below := if narrow then 1 else 2
  let low := compareScaled d.digits d.exponent (4 * x.mantissa - below) (x.exponent - 2)
  let high := compareScaled d.digits d.exponent (4 * x.mantissa + 2) (x.exponent - 2)
  let even := x.mantissa % 2 == 0
  (low == .gt || (even && low == .eq)) && (high == .lt || (even && high == .eq))

/-- The least `k` for which the absolute value is below `10 ^ k`. Every positive double is at least
`10 ^ -324`, so its integer part after scaling by `10 ^ 350` is exact enough to count digits. -/
def decimalScale (x : Double) : Int :=
  let scaled :=
    x.mantissa * Nat.pow 2 x.exponent.toNat * Nat.pow 10 350 / Nat.pow 2 (-x.exponent).toNat
  ((Nat.toDigits 10 scaled).length : Int) - 350

/-- The better of the two grid points `n * 10 ^ i` and `(n + 1) * 10 ^ i` around the value, among
those that read back: the nearer one, and the even one on a tie. -/
def onGrid? (x : Double) (i : Int) : Option Decimal :=
  let n := x.mantissa * Nat.pow 2 x.exponent.toNat * Nat.pow 10 (-i).toNat
    / (Nat.pow 2 (-x.exponent).toNat * Nat.pow 10 i.toNat)
  match x.readsBack ⟨n, i⟩, x.readsBack ⟨n + 1, i⟩ with
  | true, false => some ⟨n, i⟩
  | false, true => some ⟨n + 1, i⟩
  | false, false => none
  | true, true =>
    match compareScaled (2 * n + 1) i (2 * x.mantissa) x.exponent with
    | .gt => some ⟨n, i⟩
    | .lt => some ⟨n + 1, i⟩
    | .eq => some (if n % 2 == 0 then ⟨n, i⟩ else ⟨n + 1, i⟩)

/-- Moves trailing zeros of the digits into the exponent. -/
def stripZeros : Nat → Decimal → Decimal
  | 0, d => d
  | fuel + 1, d =>
    if d.digits ≠ 0 ∧ d.digits % 10 = 0 then stripZeros fuel ⟨d.digits / 10, d.exponent + 1⟩ else d

/-- The decimal with the fewest digits that reads back to the absolute value of a nonzero double.
Seventeen digits always suffice; the exact value stands behind them. -/
def shortest (x : Double) : Decimal :=
  let k := x.decimalScale
  let exact : Decimal := 
    ⟨x.mantissa * Nat.pow 2 x.exponent.toNat * Nat.pow 5 (-x.exponent).toNat, min x.exponent 0⟩
  let d := ((List.range 17).findSome? fun n : Nat => x.onGrid? (k - ((n : Int) + 1))).getD exact
  stripZeros 400 d

end Double

end NavTree
