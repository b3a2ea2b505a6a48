import LifePath.Decimal.Integer

/-!
# Numerals with a point and an exponent

A `Numeral` keeps the parts of a number as they were spelled, so that a reader can still tell `1`
from `1.0`. `Numeral.toFloat` is the binary64 value nearest to it; a numeral beyond the finite
values gives an infinity, one too close to zero gives zero, each with the numeral's sign.
-/

namespace LifePath.Decimal

/-- A decimal number as it is spelled. -/
structure Numeral where
  negative : Bool
  /-- digits before the point -/
  whole : List Char
  /-- digits behind the point, if a point was written -/
  fraction : Option (List Char)
  /-- the power of ten behind the exponent mark, if one was written -/
  exponent : Option Int
deriving Repr, DecidableEq, Inhabited

namespace Numeral

/-- Whether neither a point nor an exponent was written. -/
def isPlain (n : Numeral) : Bool := n.fraction.isNone && n.exponent.isNone

/-- The digits of both sides of the point as one number. -/
def significand (n : Numeral) : Nat := digitsValue (n.whole ++ n.fraction.getD [])

/-- The power of ten that `significand` is to be multiplied by. -/
def scale (n : Numeral) : Int := n.exponent.getD 0 - ((n.fraction.getD []).length : Int)

/-- The numeral as an integer, when it is spelled as one. -/
def toInt? (n : Numeral) : Option Int :=
  if n.isPlain then some (if n.negative then -(n.significand : Int) else n.significand) else none

/-- The magnitude of `significand · 10 ^ scale` as the nearest binary64 value. Powers of ten far
beyond the format are decided by the place of the leading digit alone. -/
def magnitude (significand : Nat) (scale : Int) : Float :=
  let leading := ((Nat.toDigits 10 significand).length : Int) + scale
  if significand = 0 || leading < -400 then 0.0
  else if leading > 400 then 1.0 / 0.0
  else Float.ofScientific significand (scale < 0) scale.natAbs

/-- The nearest binary64 value. -/
def toFloat (n : Numeral) : Float :=
  let size := magnitude n.significand n.scale
  if n.negative then -size else size

/-- An exponent mark with its power of ten: a sign is optional, a digit is not. -/
def readExponent : List Char → Option Int
  | '+' :: digits => (readNat digits).map fun n => (n : Int)
  | '-' :: digits => (readNat digits).map fun n => -(n : Int)
  | digits => (readNat digits).map fun n => (n : Int)

/-- Digits, an optional point with digits, and an optional exponent. A digit must stand on at
least one side of the point. -/
def readUnsigned (negative : Bool) (s : List Char) : Option Numeral :=
  let whole := s.takeWhile Char.isDigit
  let rest := s.dropWhile Char.isDigit
  let (fraction, rest) := match rest with
    | '.' :: r => (some (r.takeWhile Char.isDigit), r.dropWhile Char.isDigit)
    | r => (none, r)
  if whole.isEmpty && (fraction.getD []).isEmpty then none
  else match rest with
    | [] => some ⟨negative, whole, fraction, none⟩
    | mark :: r =>
      if mark = 'e' || mark = 'E' then
        (readExponent r).map fun e => ⟨negative, whole, fraction, some e⟩
      else none

/-- A numeral behind an optional sign. -/
def read : List Char → Option Numeral
  | '-' :: s => readUnsigned true s
  | '+' :: s => readUnsigned false s
  | s => readUnsigned false s

end Numeral

/-- A binary64 value written as a numeral, as an infinity or as not a number. The words are read in
either case. -/
def readFloat (s : List Char) : Option Float :=
  let (negative, word) := match s with
    | '-' :: r => (true, r)
    | '+' :: r => (false, r)
    | r => (false, r)
  let lower := word.map Char.toLower
  if lower = ['i', 'n', 'f'] || lower = "infinity".toList then
    some (if negative then -(1.0 / 0.0) else 1.0 / 0.0)
  else if lower = ['n', 'a', 'n'] then some (0.0 / 0.0)
  else (Numeral.read s).map Numeral.toFloat

end LifePath.Decimal
