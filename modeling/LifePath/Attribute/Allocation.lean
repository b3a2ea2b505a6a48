import LifePath.Attribute.Basic
import LifePath.Chance.Uniform
import LifePath.Settings
import LifePath.Text.Class

/-!
# Handing out attributes

A game begins with a budget of points for five attributes. At random, the five are put in random
order and each takes a random share of what is left, never more than the cap and never so little
that the ones after it could not take in the rest; the last takes what remains, so the whole budget
is spent. By hand, a player writes five numbers, which may spend less.
-/

namespace LifePath

open LifePath.Text LifePath.Decimal

/-- Why numbers given by a player are refused. -/
inductive AllocationFault where
  /-- not five runs of digits with blanks between them -/
  | wrongShape (raw : String)
  /-- a run of digits that is no 32-bit number -/
  | outOfRange (digits : String)
  | overBudget (total budget : Int)
  | overCap (code : Code) (value cap : Int)
deriving Repr, DecidableEq

/-- The words for a fault. -/
def AllocationFault.message : AllocationFault → String
  | .wrongShape raw =>
    "Invalid allocation: expected five non-negative integers, got '" ++ raw ++ "'"
  | .outOfRange digits => "Invalid allocation: '" ++ digits ++ "' is out of range"
  | .overBudget total budget =>
    "Allocated " ++ intText total ++ " points, but the budget is " ++ intText budget
  | .overCap code value cap =>
    code.text ++ " was given " ++ intText value ++ ", but the cap is " ++ intText cap

namespace Attributes

/-! ## By chance -/

/-- The least share that leaves no more than the cap for each of the ones still to come. -/
def leastShare (cap remaining : Int) (stillToCome : Nat) : Int :=
  max (remaining - cap * stillToCome) 0

/-- The greatest share. -/
def greatestShare (cap remaining : Int) : Int := min remaining cap

/-- Draws a share, unless there is no choice. -/
def drawShare (cap remaining : Int) (stillToCome : Nat) (c : Chance) : Int × Chance :=
  let least := leastShare cap remaining stillToCome
  let greatest := greatestShare cap remaining
  if least ≥ greatest then (greatest, c) else c.between least greatest

/-- Deals what remains to attributes in the given order; the last one takes the rest. -/
def deal (cap : Int) : Int → List Code → Attributes → Chance → Attributes × Chance
  | _, [], a, c => (a, c)
  | remaining, [last], a, c => (a.set last remaining, c)
  | remaining, code :: next :: rest, a, c =>
    let (share, c) := drawShare cap remaining (rest.length + 1) c
    deal cap (remaining - share) (next :: rest) (a.set code share) c

/-- Attributes that spend the whole budget at random. -/
def random (s : Settings) (c : Chance) : Attributes × Chance :=
  let shuffled := c.shuffle Code.allocatable
  deal s.cap s.budget shuffled.1 (.ofLife s.initialLife) shuffled.2

/-! ## By hand -/

/-- The runs of characters other than blanks, in order. -/
def words (s : List Char) : List (List Char) :=
  (s.splitOnP isBlank).filter fun word => !word.isEmpty

/-- The five runs of digits in a text that holds nothing else but blanks. Digits of every script
count. -/
def digitRuns? (raw : List Char) : Option (List (List Char)) :=
  let runs := words raw
  if runs.length = 5 && runs.all fun run => run.all isDecimalDigit then some runs else none

/-- The numbers of runs of digits; only ASCII digits make a number. -/
def readRuns : List (List Char) → Except AllocationFault (List Int)
  | [] => .ok []
  | run :: rest =>
    match readInt32 run with
    | none => .error (.outOfRange (String.ofList run))
    | some n => (readRuns rest).map (n :: ·)

/-- Sets attributes to values, up to the first value above the cap. -/
def setEach (cap : Int) (a : Attributes) : List (Code × Int) → Except AllocationFault Attributes
  | [] => .ok a
  | (code, value) :: rest =>
    if value > cap then .error (.overCap code value cap)
    else setEach cap (a.set code value) rest

/-- Attributes with the values given by a player. The sum is looked at before the single values,
and a sum beyond the 32-bit integers is reported as the greatest of them. -/
def manual (s : Settings) (raw : String) : Except AllocationFault Attributes :=
  match digitRuns? raw.toList with
  | none => .error (.wrongShape raw)
  | some runs =>
    match readRuns runs with
    | .error fault => .error fault
    | .ok values =>
      let total := values.foldl (· + ·) 0
      if total > s.budget then .error (.overBudget (min total maxInt32) s.budget)
      else setEach s.cap (.ofLife s.initialLife) (Code.allocatable.zip values)

end Attributes

end LifePath
