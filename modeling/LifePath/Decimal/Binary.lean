import LifePath.Decimal.Integer

/-!
# The exact value of a binary64 number

`Parts.of` decodes a `Float` into its sign and an exact natural number times a power of two, so
that questions about its value can be answered in whole numbers.
-/

namespace LifePath.Decimal

/-- The number `mantissa · 2 ^ exponent`. -/
structure Dyadic where
  mantissa : Nat
  exponent : Int
  /-- the gap to the value below is half the gap to the value above -/
  narrowBelow : Bool
deriving Repr, DecidableEq

/-- What a binary64 number is. -/
inductive Parts where
  | notANumber
  | infinite (negative : Bool)
  | finite (negative : Bool) (value : Dyadic)
deriving Repr, DecidableEq

/-- Decodes the bits: one of sign, eleven of exponent, fifty-two of fraction. -/
def Parts.of (f : Float) : Parts :=
  let bits : Nat := f.toBits.toNat
  let negative := bits / twoTo 63 == 1
  let exponent : Nat := bits / twoTo 52 % twoTo 11
  let fraction : Nat := bits % twoTo 52
  if exponent = 2047 then
    if fraction = 0 then .infinite negative else .notANumber
  else if exponent = 0 then .finite negative ⟨fraction, -1074, false⟩
  else .finite negative ⟨twoTo 52 + fraction, (exponent : Int) - 1075, fraction == 0 && exponent > 1⟩

/-- The value as a natural number, when it has no fraction. -/
def Dyadic.toNat? (x : Dyadic) : Option Nat :=
  if 0 ≤ x.exponent then some (x.mantissa * twoTo x.exponent.toNat)
  else if x.mantissa % twoTo (-x.exponent).toNat = 0 then
    some (x.mantissa / twoTo (-x.exponent).toNat)
  else none

/-- The value of a finite number without a fraction. Both zeros are zero. -/
def wholeValue? (f : Float) : Option Int :=
  match Parts.of f with
  | .finite negative x => x.toNat?.map fun n => if negative then -(n : Int) else n
  | _ => none

/-- Whether a number is neither infinite nor not a number. -/
def isFinite (f : Float) : Bool :=
  match Parts.of f with
  | .finite _ _ => true
  | _ => false

end LifePath.Decimal
