import LifePath.Attribute.Allocation
import LifePath.Catalog.Fault
import LifePath.Condition.Fault
import LifePath.Tables.Json
import LifePath.Settings

/-!
# Faults

Everything that can go wrong, from the text of a condition to the order of a player's moves.
-/

namespace LifePath

open LifePath.Decimal

/-- Why something cannot be done. -/
inductive Fault where
  | condition (fault : ConditionFault)
  | ageNotFound (age : Int)
  | eventNotFound (id : String)
  /-- no event can be drawn -/
  | noCandidates (age : Int)
  | allocation (fault : AllocationFault)
  | alreadyAllocated
  | notAllocated
  | alreadyEnded
  | sessionNotFound (identity : String)
  /-- an event follows where no more may follow -/
  | chainTooDeep (event : String)
  | catalog (fault : CatalogFault)
  | settings (fault : SettingsFault)
  | json (fault : JsonFault)
deriving Repr, DecidableEq

namespace Fault

/-- The words for a fault. -/
def message : Fault → String
  | .condition fault => fault.message
  | .ageNotFound age => "Age config not found: " ++ intText age
  | .eventNotFound id => "Event not found: " ++ id
  | .noCandidates age => "No eligible events at age " ++ intText age
  | .allocation fault => fault.message
  | .alreadyAllocated => "Attributes have already been allocated"
  | .notAllocated => "Attributes have not been allocated yet"
  | .alreadyEnded => "The game has already ended"
  | .sessionNotFound identity => "Session not found: " ++ identity
  | .chainTooDeep event => "Follow-up chain exceeds the maximum depth at event " ++ event
  | .catalog fault => fault.message
  | .settings fault => fault.message
  | .json fault => fault.message

/-- Whether a condition is to blame, and not the state of the game. -/
def isAboutCondition : Fault → Bool
  | .condition _ => true
  | _ => false

end Fault

/-- Settings that are fit for use. -/
def Settings.load (text : String) : Except Fault Settings :=
  match Settings.ofJson text with
  | .error fault => .error (.json fault)
  | .ok s =>
    match s.fault? with
    | some fault => .error (.settings fault)
    | none => .ok s

/-- A catalog of the events in a table. -/
def EventCatalog.load (text : String) : Except Fault EventCatalog :=
  match Event.listOfJson text with
  | .error fault => .error (.json fault)
  | .ok events => (EventCatalog.ofList events).mapError .catalog

/-- A catalog of the ages in a table. -/
def AgeCatalog.load (text : String) : Except Fault AgeCatalog :=
  match AgePool.listOfJson text with
  | .error fault => .error (.json fault)
  | .ok pools => (AgeCatalog.ofList pools).mapError .catalog

end LifePath
