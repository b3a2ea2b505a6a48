import LifePath.Decimal.Integer
import LifePath.Decimal.Shortest

/-!
# What can be wrong with the tables

Faults of single cells (`badReference`, `branchWithoutEvent`), of one table (a key given twice, a
weight that is no weight) and of the tables together (a reference to an event that is in none).
-/

namespace LifePath

open LifePath.Decimal

/-- Why event and age tables are refused. -/
inductive CatalogFault where
  /-- not an event with an optional weight -/
  | badReference (text : String)
  /-- nothing stands where a branch names its event -/
  | branchWithoutEvent (text : String)
  | duplicateEvent (id : String)
  | duplicateAge (age : Int)
  /-- a weight that is negative or not finite -/
  | badWeight (age : Int) (event : String) (weight : Float)
  /-- the pool of an age names an event that is not in the table -/
  | unknownInPool (age : Int) (event : String)
  /-- an event leads to one that is not in the table -/
  | unknownFollowUp (event next : String)
deriving Repr, DecidableEq

/-- The words for a fault. -/
def CatalogFault.message (fault : CatalogFault) : String :=
  "Invalid catalog: " ++ match fault with
    | .badReference text => "bad event reference '" ++ text ++ "'"
    | .branchWithoutEvent text => "branch '" ++ text ++ "' has no event id"
    | .duplicateEvent id => "duplicate event id " ++ id
    | .duplicateAge age => "duplicate age " ++ intText age
    | .badWeight age event weight =>
      "age " ++ intText age ++ " gives event " ++ event ++ " weight " ++ floatText weight
    | .unknownInPool age event =>
      "age " ++ intText age ++ " references unknown event " ++ event
    | .unknownFollowUp event next =>
      "event " ++ event ++ " chains to unknown event " ++ next

end LifePath
