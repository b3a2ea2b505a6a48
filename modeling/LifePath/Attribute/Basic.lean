import LifePath.Condition.Evaluation
import LifePath.Decimal.Integer

/-!
# Attributes

A life has six numbers and a history. The five numbers that are handed out at the beginning are
looks, wits, strength, means and spirits; the sixth is life itself. The history lists the events
that have happened, in order. Conditions know all of them by three-letter codes; the age belongs
to the game and is known only where a game supplies it.
-/

namespace LifePath

open LifePath.Decimal

/-- The codes by which conditions and effects name attributes. -/
inductive Code where
  | chr
  | int
  | str
  | mny
  | spr
  | lif
  /-- the history of events -/
  | evt
  /-- the age, which a game supplies -/
  | age
deriving Repr, DecidableEq

namespace Code

/-- The code as it is written. -/
def text : Code → String
  | .chr => "CHR"
  | .int => "INT"
  | .str => "STR"
  | .mny => "MNY"
  | .spr => "SPR"
  | .lif => "LIF"
  | .evt => "EVT"
  | .age => "AGE"

/-- All codes. -/
def all : List Code := [.chr, .int, .str, .mny, .spr, .lif, .evt, .age]

/-- The code written as the given text. -/
def ofText? (text : String) : Option Code := all.find? fun code => code.text == text

/-- The five attributes that are handed out, in the order in which a player names their values. -/
def allocatable : List Code := [.chr, .int, .str, .mny, .spr]

theorem ofText?_text (code : Code) : ofText? code.text = some code := by
  cases code <;> decide +kernel

end Code

/-- What an event changes. -/
structure Effect where
  chr : Int
  int : Int
  str : Int
  mny : Int
  spr : Int
  lif : Int
  /-- the years that pass, if the event says so -/
  age : Option Int
deriving Repr, DecidableEq

/-- The effect that changes nothing. -/
def Effect.none : Effect := ⟨0, 0, 0, 0, 0, 0, Option.none⟩

/-- The attributes of a life. -/
structure Attributes where
  chr : Int
  int : Int
  str : Int
  mny : Int
  spr : Int
  lif : Int
  /-- the events that have happened, first to last -/
  history : List String
deriving Repr, DecidableEq

namespace Attributes

/-- Nothing but the given life. -/
def ofLife (life : Int) : Attributes := ⟨0, 0, 0, 0, 0, life, []⟩

/-- The number under a code. The history and the age are none. -/
def number? (a : Attributes) : Code → Option Int
  | .chr => some a.chr
  | .int => some a.int
  | .str => some a.str
  | .mny => some a.mny
  | .spr => some a.spr
  | .lif => some a.lif
  | .evt => none
  | .age => none

/-- Sets the number under a code; nothing is set under the codes that have none. -/
def set (a : Attributes) (code : Code) (n : Int) : Attributes :=
  match code with
  | .chr => { a with chr := n }
  | .int => { a with int := n }
  | .str => { a with str := n }
  | .mny => { a with mny := n }
  | .spr => { a with spr := n }
  | .lif => { a with lif := n }
  | .evt => a
  | .age => a

/-- The sum of the five numbers that are handed out. -/
def allocatedTotal (a : Attributes) : Int := a.chr + a.int + a.str + a.mny + a.spr

/-- Adds an effect's changes. The game sets them no bounds; a sum beyond the 32-bit integers wraps
around. -/
def apply (a : Attributes) (e : Effect) : Attributes :=
  { a with
    chr := wrapInt32 (a.chr + e.chr)
    int := wrapInt32 (a.int + e.int)
    str := wrapInt32 (a.str + e.str)
    mny := wrapInt32 (a.mny + e.mny)
    spr := wrapInt32 (a.spr + e.spr)
    lif := wrapInt32 (a.lif + e.lif) }

/-- Adds an event to the end of the history. -/
def record (a : Attributes) (event : String) : Attributes :=
  { a with history := a.history ++ [event] }

/-- The six numbers in the order of their codes. -/
def numbers (a : Attributes) : List Int := [a.chr, a.int, a.str, a.mny, a.spr, a.lif]

/-- What conditions see of attributes outside a game. -/
def source (a : Attributes) : Source := fun text =>
  match Code.ofText? text with
  | some .evt => some (.list a.history)
  | some code => (a.number? code).map .number
  | none => none

/-- What conditions see of attributes at an age. -/
def sourceAt (a : Attributes) (age : Int) : Source := fun text =>
  if text = Code.age.text then some (.number age) else a.source text

end Attributes

end LifePath
