import LifePath.Chance.Stream
import LifePath.Decimal.Integer

/-!
# Uniform draws

A fraction takes one word. An integer below a bound takes the upper half of one word, scaled by
the bound: the product's upper half is the result, and its lower half tells whether the word falls
into the part of the range that would make some results more likely than others. Such a word is
refused and the next one is tried.

The retries end. Once the laid-out words are used up, the next `2 ^ 64` words of the stream take
every value, and the word zero is never refused; so the bound on the number of tries in `below` is
no restriction.
-/

namespace LifePath.Chance

open LifePath.Decimal

/-- The upper half of a word. -/
def half (word : UInt64) : Nat := word.toNat / twoTo 32

/-- A fraction from zero up to, but not including, one: the upper 53 bits of a word. -/
def fraction (c : Chance) : Float × Chance :=
  let (word, rest) := c.next
  ((word >>> 11).toFloat / 9007199254740992.0, rest)

/-- The greatest lower half that a product may have for a bound: the bound is moved up to the
highest bit of 32, and one is taken away. -/
def zone (bound : Nat) : Nat := bound * twoTo (31 - bound.log2) - 1

/-- What the upper half of a word gives for a bound, unless it is refused. -/
def scaled? (bound half : Nat) : Option Nat :=
  if half * bound % twoTo 32 ≤ zone bound then some (half * bound / twoTo 32) else none

/-- Draws until a word is not refused, at most so many times. -/
def belowWithin : Nat → Nat → Chance → Nat × Chance
  | 0, _, c => (0, c)
  | tries + 1, bound, c =>
    let (word, rest) := c.next
    match scaled? bound (half word) with
    | some n => (n, rest)
    | none => belowWithin tries bound rest

/-- A number below a bound, which is positive and below `2 ^ 32`. -/
def below (c : Chance) (bound : Nat) : Nat × Chance :=
  belowWithin (c.words.length + twoTo 64) bound c

/-- A number from `low` to `high`, both included. The two are 32-bit integers, and `high` is not
below `low`; if the range has all `2 ^ 32` integers, the upper half of one word is the result. -/
def between (c : Chance) (low high : Int) : Int × Chance :=
  let bound := (high - low + 1).toNat
  if bound < twoTo 32 then
    let (n, rest) := c.below bound
    (low + n, rest)
  else
    let (word, rest) := c.next
    (Int.bmod (half word) (twoTo 32), rest)

/-- Exchanges the elements at positions up to `last` with the element at a drawn position at or
before each, from the last position down to the second. `draw` draws a number below a bound. -/
def shuffleFrom {α : Type} (draw : Chance → Nat → Nat × Chance) (items : Array α) :
    Nat → Chance → Array α × Chance
  | 0, c => (items, c)
  | last + 1, c =>
    let (other, rest) := draw c (last + 2)
    shuffleFrom draw (items.swapIfInBounds (last + 1) other) last rest

/-- A list in random order. -/
def shuffle {α : Type} (items : List α) (c : Chance) : List α × Chance :=
  let (shuffled, rest) := shuffleFrom below items.toArray (items.length - 1) c
  (shuffled.toList, rest)

end LifePath.Chance
