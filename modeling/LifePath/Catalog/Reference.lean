import LifePath.Catalog.EventId
import LifePath.Catalog.Fault
import LifePath.Decimal.Numeral

/-!
# Weighted references

The pool of an age refers to events as `id` or `id*weight`. The id is a run of characters other
than blanks and the star; the weight is a plain decimal without sign and exponent; blanks may stand
around both. Without a weight the reference weighs one.
-/

namespace LifePath

open LifePath.Text LifePath.Decimal

/-- An event with the weight it has in a draw. -/
structure Reference where
  event : String
  weight : Float
deriving Repr, DecidableEq

namespace Reference

/-- The weight of a reference that gives none. -/
def plainWeight : Float := 1.0

/-- Whether a character can stand in the id of a reference. -/
def isIdChar (c : Char) : Bool := c != '*' && !isBlank c

/-- One or more digits, and a point with one or more digits if a point follows; then nothing but
blanks. -/
def readWeight (s : List Char) : Option Float :=
  let whole := s.takeWhile Char.isDigit
  let rest := s.dropWhile Char.isDigit
  if whole.isEmpty then none
  else
    let numeral (fraction : Option (List Char)) (rest : List Char) : Option Float :=
      if allBlank rest then some (Numeral.toFloat ⟨false, whole, fraction, none⟩) else none
    match rest with
    | '.' :: r =>
      let fraction := r.takeWhile Char.isDigit
      if fraction.isEmpty then none else numeral (some fraction) (r.dropWhile Char.isDigit)
    | r => numeral none r

/-- The id as it stands and the weight, if the text is a reference. -/
def parts? (s : List Char) : Option (List Char × Float) :=
  let s := trimLeft s
  let id := s.takeWhile isIdChar
  if id.isEmpty then none
  else match trimLeft (s.dropWhile isIdChar) with
    | [] => some (id, plainWeight)
    | '*' :: rest => (readWeight (trimLeft rest)).map fun weight => (id, weight)
    | _ => none

/-- The reference that a text means. -/
def read (text : String) : Except CatalogFault Reference :=
  match parts? text.toList with
  | some (id, weight) => .ok ⟨String.ofList (EventId.normalize id), weight⟩
  | none => .error (.badReference text)

/-- Whether the weight can take part in a draw. -/
def hasGoodWeight (r : Reference) : Bool := isFinite r.weight && !(r.weight < 0.0)

end Reference

end LifePath
