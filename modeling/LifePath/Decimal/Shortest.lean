import LifePath.Decimal.Binary

/-!
# The fewest digits that name a binary64 number

The reals that round to a binary64 number form an interval around it. `Dyadic.shortest` finds the
shortest decimal in that interval: for one digit, two digits, and so on it asks the two decimals
nearest to the number, one from below and one from above, and takes the first that lies inside. Of
two it takes the closer one, and the upper one if they are equally close.

`floatText` writes that decimal positionally, without an exponent and without a point behind a
whole number.
-/

namespace LifePath.Decimal

/-- The number `digits · 10 ^ exponent`. -/
structure Scaled where
  digits : Nat
  exponent : Int
deriving Repr, DecidableEq

/-- Compares `a · 10 ^ i` with `n · 2 ^ j` in whole numbers. -/
def compareScaled (a : Nat) (i : Int) (n : Nat) (j : Int) : Ordering :=
  compare (a * tenTo i.toNat * twoTo (-j).toNat) (n * twoTo j.toNat * tenTo (-i).toNat)

namespace Dyadic

/-- Whether a decimal is among the reals that round to the number: those up to halfway to either
neighbour, and the halfway points themselves if the mantissa is even. -/
def readsBack (x : Dyadic) (d : Scaled) : Bool :=
  let low := if x.narrowBelow then 4 * x.mantissa - 1 else 4 * x.mantissa - 2
  let high := 4 * x.mantissa + 2
  let closed := x.mantissa % 2 == 0
  let fromLow := compareScaled d.digits d.exponent low (x.exponent - 2)
  let toHigh := compareScaled d.digits d.exponent high (x.exponent - 2)
  (fromLow == .gt || closed && fromLow == .eq) && (toHigh == .lt || closed && toHigh == .eq)

/-- The greatest multiple of `10 ^ e` that is not above the number, in units of `10 ^ e`. -/
def floorAt (x : Dyadic) (e : Int) : Nat :=
  (x.mantissa * twoTo x.exponent.toNat * tenTo (-e).toNat)
    / (twoTo (-x.exponent).toNat * tenTo e.toNat)

/-- The least power of ten above the number. Three hundredths and a little more of the binary
order is the decimal order up to one. -/
def decimalOrder (x : Dyadic) : Int :=
  let guess := ((x.mantissa.log2 : Int) + x.exponent) * 30103 / 100000
  let above k := compareScaled 1 k x.mantissa x.exponent == .gt
  if above guess then guess else if above (guess + 1) then guess + 1 else guess + 2

/-- The decimal with the given last place that names the number, if there is one. -/
def nearestAt? (x : Dyadic) (e : Int) : Option Scaled :=
  let below := x.floorAt e
  match x.readsBack ⟨below, e⟩, x.readsBack ⟨below + 1, e⟩ with
  | true, true =>
    if compareScaled (2 * below + 1) e (2 * x.mantissa) x.exponent == .gt
    then some ⟨below, e⟩ else some ⟨below + 1, e⟩
  | true, false => some ⟨below, e⟩
  | false, true => some ⟨below + 1, e⟩
  | false, false => none

/-- The number itself as a decimal. -/
def exactly (x : Dyadic) : Scaled :=
  if 0 ≤ x.exponent then ⟨x.mantissa * twoTo x.exponent.toNat, 0⟩
  else ⟨x.mantissa * Nat.pow 5 (-x.exponent).toNat, x.exponent⟩

/-- The shortest decimal that names a number other than zero. -/
def shortest (x : Dyadic) : Scaled :=
  let order := x.decimalOrder
  ((List.range 17).findSome? fun n => x.nearestAt? (order - (n + 1 : Nat))).getD x.exactly

end Dyadic

/-- A decimal without exponent. Zeros at the end of the fraction are dropped, and so is a point
with nothing behind it. -/
def Scaled.positional (d : Scaled) : List Char :=
  let digits := Nat.toDigits 10 d.digits
  if 0 ≤ d.exponent then digits ++ List.replicate d.exponent.toNat '0'
  else
    let places := (-d.exponent).toNat
    let padded := List.replicate (places + 1 - digits.length) '0' ++ digits
    let whole := padded.take (padded.length - places)
    let fraction := ((padded.drop (padded.length - places)).reverse.dropWhile (· = '0')).reverse
    if fraction.isEmpty then whole else whole ++ '.' :: fraction

/-- A number as a text: the fewest digits that read back to it, in positional notation. -/
def floatText (f : Float) : String :=
  match Parts.of f with
  | .notANumber => "NaN"
  | .infinite negative => if negative then "-inf" else "inf"
  | .finite negative x =>
    let body := if x.mantissa = 0 then ['0'] else x.shortest.positional
    String.ofList (if negative then '-' :: body else body)

end LifePath.Decimal
