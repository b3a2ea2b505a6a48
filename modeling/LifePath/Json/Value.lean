import LifePath.Decimal.Binary
import LifePath.Decimal.Numeral

/-!
# JSON values

A value keeps its numbers as they are spelled, because the tables tell `1` from `1.0`, and its
members in the order in which they stand, repeated names included. `cut` stands where the text
stops being JSON: what was read before it is kept, so that a reader who goes through a value in
order meets the faults of a text in the order in which they stand in it.
-/

namespace LifePath

open LifePath.Decimal

/-- A value, or as much of it as could be read. -/
inductive Json where
  | null
  | bool (b : Bool)
  | number (n : Numeral)
  | text (s : String)
  /-- a string with half of a surrogate pair in it, which no text can hold -/
  | unpaired
  | array (items : List Json)
  /-- members in order; the name of a member is missing if it is such a string -/
  | object (members : List (Option String × Json))
  /-- the text is not JSON from here on -/
  | cut

namespace Json

mutual

/-- Whether nothing of the value is cut off. Names have to be texts only where they are used. -/
def isWhole : Json → Bool
  | .cut => false
  | .array items => allWhole items
  | .object members => membersWhole members
  | _ => true

/-- Whether nothing of the items is cut off. -/
def allWhole : List Json → Bool
  | [] => true
  | v :: rest => v.isWhole && allWhole rest

/-- Whether nothing of the members is cut off. -/
def membersWhole : List (Option String × Json) → Bool
  | [] => true
  | (_, v) :: rest => v.isWhole && membersWhole rest

end

/-! ## Numbers

A number spelled as an integer is one if it fits 64 bits, signed or unsigned; the negative zero is
not. Every other number has a binary fraction. It is read with as many leading digits as fit 64
bits, and scaled by powers of ten of which `10 ^ 308` is the greatest. -/

/-- The integer that a numeral is spelled as, if it fits 64 bits. -/
def integer? (n : Numeral) : Option Int :=
  n.toInt?.filter fun i => !(n.negative && i == 0) && (fitsInt64 i || fitsUInt64 i)

/-- Leading digits that fit 64 bits. -/
structure Leading where
  value : Nat
  /-- how many places the digits that were not taken in fill -/
  scale : Int

/-- Takes in the digits before the point; from the first that does not fit, they only count. -/
def takeWhole (l : Leading) : List Char → Leading
  | [] => l
  | c :: rest =>
    let value := l.value * 10 + (c.toNat - '0'.toNat)
    if value < twoTo 64 && l.scale = 0 then takeWhole ⟨value, 0⟩ rest
    else takeWhole ⟨l.value, l.scale + 1⟩ rest

/-- Takes in the digits behind the point, up to the first that does not fit. -/
def takeFraction (l : Leading) : List Char → Leading
  | [] => l
  | c :: rest =>
    let value := l.value * 10 + (c.toNat - '0'.toNat)
    if value < twoTo 64 then takeFraction ⟨value, l.scale - 1⟩ rest else l

/-- A power of ten that binary64 can hold. -/
def powerOfTen (n : Nat) : Float := Float.ofScientific 1 false n

/-- Scales down by at most `10 ^ 308` at a time, until the rest of the scale is within reach or
nothing is left. -/
def scaleDown : Nat → Float → Nat → Float
  | 0, f, _ => f
  | steps + 1, f, places =>
    if places ≤ 308 then f / powerOfTen places
    else if f == 0.0 then f
    else scaleDown steps (f / powerOfTen 308) (places - 308)

/-- The value of a number with a binary fraction; none if it is beyond the finite values. -/
def float? (n : Numeral) : Option Float :=
  let leading := takeFraction (takeWhole ⟨0, 0⟩ n.whole) (n.fraction.getD [])
  let scale := leading.scale + n.exponent.getD 0
  let significand := (UInt64.ofNat leading.value).toFloat
  let size :=
    if scale < 0 then some (scaleDown 4 significand (-scale).toNat)
    else if scale ≤ 308 then
      some (significand * powerOfTen scale.toNat) |>.filter isFinite
    else if leading.value = 0 then some 0.0 else none
  size.map fun f => if n.negative then -f else f

end Json

end LifePath
