import LifePath.Decimal.Binary
import LifePath.Decimal.Integer
import LifePath.Text.Class
import LifePath.Text.Cut

/-!
# Event ids

An id is a text. Tables that were kept in a spreadsheet write a whole number as `10001.0`, so a
whole number followed by a point and zeros means the number alone; any other text is only trimmed.
A number that is used as an id means its decimal digits.
-/

namespace LifePath.EventId

open LifePath.Text LifePath.Decimal

/-- Digits, with a minus in front or without one. -/
def isWhole : List Char → Bool
  | '-' :: digits => !digits.isEmpty && digits.all Char.isDigit
  | digits => !digits.isEmpty && digits.all Char.isDigit

/-- The id in a text without blanks at its ends. -/
def dropZeroFraction (s : List Char) : List Char :=
  match cutFirst '.' s with
  | some (whole, fraction) =>
    if isWhole whole && !fraction.isEmpty && fraction.all (· = '0') then whole else s
  | none => s

/-- The id that a text means. -/
def normalize (raw : List Char) : List Char := dropZeroFraction (trim raw)

/-- The id that a text means. -/
def ofText (raw : String) : String := String.ofList (normalize raw.toList)

/-- The id that an integer means. -/
def ofInt (n : Int) : String := intText n

/-- The id that a number with a binary fraction means: none unless it is whole and its magnitude is
below `2 ^ 63`. -/
def ofFloat? (f : Float) : Option String :=
  ((wholeValue? f).filter fun n => n.natAbs < twoTo 63).map ofInt

end LifePath.EventId
