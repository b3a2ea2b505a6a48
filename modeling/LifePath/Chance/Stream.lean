/-!
# A stream of random words

Chance is data: the 64-bit words that were laid out beforehand, and after those the words that a
seed gives. Every draw takes one word and leaves the rest of the stream, so whoever holds the
stream knows how many words were taken.

The words of a seed come from a counter that advances by an odd constant; each value of the
counter is mixed by two rounds of shift, exclusive or and multiplication, which lose nothing. All
`2 ^ 64` words therefore occur before the first comes back.
-/

namespace LifePath

/-- The words still to be drawn. -/
structure Chance where
  /-- words that come first -/
  words : List UInt64
  /-- the counter behind the words after them -/
  seed : UInt64
deriving Repr, DecidableEq

namespace Chance

/-- The step of the counter. -/
def counterStep : UInt64 := 0x9E3779B97F4A7C15

/-- Mixes a value of the counter into a word. -/
def mix (counter : UInt64) : UInt64 :=
  let z := (counter ^^^ (counter >>> 30)) * 0xBF58476D1CE4E5B9
  let z := (z ^^^ (z >>> 27)) * 0x94D049BB133111EB
  z ^^^ (z >>> 31)

/-- The next word and the stream after it. -/
def next (c : Chance) : UInt64 × Chance :=
  match c.words with
  | word :: rest => (word, { c with words := rest })
  | [] =>
    let counter := c.seed + counterStep
    (mix counter, { c with seed := counter })

/-- The stream after a number of draws. -/
def skip (c : Chance) : Nat → Chance
  | 0 => c
  | n + 1 => skip c.next.2 n

end Chance

end LifePath
