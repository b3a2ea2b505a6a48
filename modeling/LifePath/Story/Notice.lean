import LifePath.Chance.Stream
import LifePath.Condition.Fault
import LifePath.Decimal.Integer

/-!
# Notices

What the game tells whoever keeps its log. A notice has a level, a message and named texts. A
`Scene` is what a year is played with: the stream of chance and the notices given so far. Notices
stay even if the move that gave them fails afterwards, and so do the words it drew.
-/

namespace LifePath

open LifePath.Decimal

/-- How important a notice is. -/
inductive Level where
  | debug
  | info
  | warn
deriving Repr, DecidableEq

/-- The name of a level. -/
def Level.name : Level → String
  | .debug => "DEBUG"
  | .info => "INFO"
  | .warn => "WARN"

/-- Something that the log should know. -/
inductive Notice where
  | runnerReady (events ages : Nat)
  | gameStarted (identity : String) (startAge : Int) (replaced : Bool)
  | gameRemoved (identity : String)
  | idleEvicted (evicted remaining : Nat)
  | allocated (identity : String) (numbers : List Int)
  | gameEnded (identity : String) (age : Int)
  | yearPasses (age : Int)
  | conditionFailed (event : String) (fault : ConditionFault)
  | eventSelected (age : Int) (event : String) (candidates : Nat)
  | followUpResolved (event next : String)
deriving Repr, DecidableEq

namespace Notice

/-- How important the notice is. -/
def level : Notice → Level
  | .runnerReady .. | .gameStarted .. | .gameRemoved .. | .idleEvicted .. => .info
  | .allocated .. | .gameEnded .. => .info
  | .yearPasses .. | .conditionFailed .. => .warn
  | .eventSelected .. | .followUpResolved .. => .debug

/-- What has happened, in general words. -/
def message : Notice → String
  | .runnerReady .. => "trajectory runner ready"
  | .gameStarted .. => "game started"
  | .gameRemoved .. => "game removed"
  | .idleEvicted .. => "idle sessions evicted"
  | .allocated .. => "attributes allocated"
  | .gameEnded .. => "game ended"
  | .yearPasses .. => "no eligible event; year passes"
  | .conditionFailed .. => "event condition failed to evaluate"
  | .eventSelected .. => "event selected"
  | .followUpResolved .. => "follow-up resolved"

/-- Numbers between brackets. -/
def numbersText (numbers : List Int) : String :=
  "[" ++ String.intercalate ", " (numbers.map intText) ++ "]"

/-- What has happened, in particular. -/
def details : Notice → List (String × String)
  | .runnerReady events ages => [("events", intText events), ("ages", intText ages)]
  | .gameStarted identity startAge replaced =>
    [("identity", identity), ("start_age", intText startAge),
     ("replaced", if replaced then "true" else "false")]
  | .gameRemoved identity => [("identity", identity)]
  | .idleEvicted evicted remaining =>
    [("evicted", intText evicted), ("remaining", intText remaining)]
  | .allocated identity numbers => [("identity", identity), ("attributes", numbersText numbers)]
  | .gameEnded identity age => [("identity", identity), ("age", intText age)]
  | .yearPasses age => [("age", intText age)]
  | .conditionFailed event fault => [("event_id", event), ("error", fault.message)]
  | .eventSelected age event candidates =>
    [("age", intText age), ("event_id", event), ("candidates", intText candidates)]
  | .followUpResolved event next => [("event_id", event), ("next", next)]

end Notice

/-- What a year is played with. -/
structure Scene where
  chance : Chance
  /-- notices so far, first to last -/
  notices : Array Notice
deriving Repr, DecidableEq

namespace Scene

/-- Gives a notice. -/
def tell (scene : Scene) (notice : Notice) : Scene :=
  { scene with notices := scene.notices.push notice }

end Scene

end LifePath
