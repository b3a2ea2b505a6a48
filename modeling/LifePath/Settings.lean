import LifePath.Decimal.Integer

/-!
# The settings of a game

`Settings.fault?` finds what makes settings unfit for use: a budget or cap below zero, a budget
that five attributes cannot take in under the cap, or a game that is over before it starts.
-/

namespace LifePath

open LifePath.Decimal

/-- What happens at an age at which no event can be drawn. -/
inductive EmptyPool where
  /-- the year cannot be lived -/
  | fail
  /-- the year passes without an event -/
  | advanceAge
deriving Repr, DecidableEq

/-- The numbers that a game is played by. -/
structure Settings where
  startAge : Int
  /-- points that are handed out to the five attributes -/
  budget : Int
  /-- the most that one attribute may get -/
  cap : Int
  initialLife : Int
  /-- a game ends when life is below this -/
  minLife : Int
  /-- a game ends when the age is beyond this -/
  maxAge : Int
  /-- the most events that may follow on the one that is drawn -/
  maxChain : Nat
  emptyPool : EmptyPool
  /-- seconds after which an idle game may be dropped -/
  idleTimeout : Nat
deriving Repr, DecidableEq

/-- Why settings are unfit for use. -/
inductive SettingsFault where
  | negativeBudget
  | negativeCap
  | budgetAboveCap (budget cap : Int)
  | endBeforeStart
deriving Repr, DecidableEq

/-- The words for a fault. -/
def SettingsFault.message (fault : SettingsFault) : String :=
  "Invalid config: " ++ match fault with
    | .negativeBudget => "allocation_budget must not be negative"
    | .negativeCap => "attribute_cap must not be negative"
    | .budgetAboveCap budget cap =>
      "allocation_budget " ++ intText budget ++ " cannot fit under attribute_cap " ++ intText cap
    | .endBeforeStart => "max_age is below start_age"

namespace Settings

/-- The settings of a game that is not given any. -/
def standard : Settings :=
  { startAge := 0
    budget := 10
    cap := 10
    initialLife := 1
    minLife := 1
    maxAge := 500
    maxChain := 8
    emptyPool := .fail
    idleTimeout := 300 }

/-- The first reason why the settings are unfit for use. Five times the cap is worked out in 32
bits. -/
def fault? (s : Settings) : Option SettingsFault :=
  if s.budget < 0 then some .negativeBudget
  else if s.cap < 0 then some .negativeCap
  else if s.budget > wrapInt32 (s.cap * 5) then some (.budgetAboveCap s.budget s.cap)
  else if s.maxAge < s.startAge then some .endBeforeStart
  else none

/-- Whether a game at an age is over. -/
def isOver (s : Settings) (age life : Int) : Bool := life < s.minLife || age > s.maxAge

end Settings

end LifePath
