import LifePath.Attribute.Basic

/-!
# Sessions

A session is the game of one player: the age, the attributes once they have been handed out, and
how far the game has come. It remembers when it was last touched. The clock counts nanoseconds.
-/

namespace LifePath

/-- How far a game has come. -/
inductive Status where
  | created
  /-- waiting for attributes -/
  | pending
  | active
  | ended
deriving Repr, DecidableEq

/-- The game of one player. -/
structure Session where
  identity : String
  /-- none until they are handed out -/
  attributes : Option Attributes
  age : Int
  status : Status
  /-- the time of the last activity -/
  lastActive : Int
deriving Repr, DecidableEq

namespace Session

/-- A game that has not begun. -/
def create (identity : String) (now : Int) : Session := ⟨identity, none, 0, .created, now⟩

/-- Notes activity. -/
def touch (s : Session) (now : Int) : Session := { s with lastActive := now }

/-- Begins the game anew at an age, ready for attributes to be handed out. -/
def beginAt (s : Session) (startAge now : Int) : Session :=
  { s with attributes := none, age := startAge, status := .pending, lastActive := now }

/-- Whether the game is over. -/
def isEnded (s : Session) : Bool := s.status = .ended

/-- How long the session has been idle. -/
def idleFor (s : Session) (now : Int) : Int := now - s.lastActive

end Session

/-- One second on the clock. -/
def second : Int := 1000000000

end LifePath
