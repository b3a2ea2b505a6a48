import LifePath.Chance.Uniform

/-!
# Weighted draws

`pickAt?` finds the item at a point on the line on which the items lie one after the other, each
over a stretch as long as its weight: it takes away the weights in order until the point is left
of the next item's end. It needs nothing of the numbers but zero, subtraction and an order, and so
it can be followed over the rationals, where the stretches are exact. If rounding carries the point
past all the items, the last one is taken.
-/

namespace LifePath.Chance

section

variable {α β : Type} [OfNat α 0] [Add α] [Sub α] [Mul α] [LT α] [DecidableLT α]

/-- The sum of the weights, from the first to the last. -/
def totalWeight (items : List (β × α)) : α := items.foldl (fun sum item => sum + item.2) 0

/-- The first item whose end lies beyond the point, measured from the beginning of the items. -/
def pickAt? : List (β × α) → α → Option β
  | [], _ => none
  | (item, weight) :: rest, point =>
    let point := point - weight
    if point < 0 then some item else pickAt? rest point

/-- The item at a fraction of the whole length. -/
def pickWeighted? (items : List (β × α)) (fraction : α) : Option β :=
  (pickAt? items (fraction * totalWeight items)).or (items.getLast?.map (·.1))

end

/-- Draws an item by weight. No word is drawn if there is nothing to draw from. -/
def weighted? {β : Type} (items : List (β × Float)) (c : Chance) : Option β × Chance :=
  if items.isEmpty then (none, c)
  else
    let (fraction, rest) := c.fraction
    (pickWeighted? items fraction, rest)

end LifePath.Chance
