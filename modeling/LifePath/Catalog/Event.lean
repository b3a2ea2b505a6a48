import LifePath.Attribute.Basic
import LifePath.Catalog.EventId
import LifePath.Catalog.Fault

/-!
# Events

An event tells what happens, what it changes, when it can be drawn and where it leads. Where it
leads is a list of branches, of which the first that is open is taken, and an event that follows
when no branch is open.

A branch is written `condition:event`, divided at the last colon, or as the event alone. A blank
condition is none.
-/

namespace LifePath

open LifePath.Text

/-- A way on from an event, open if its condition holds or if it has none. -/
structure Branch where
  condition : Option String
  event : String
deriving Repr, DecidableEq

/-- The branch that a text means. -/
def Branch.read (text : String) : Except CatalogFault Branch :=
  let (condition, event) := match cutLast ':' text.toList with
    | some (condition, event) => (trim condition, trim event)
    | none => ([], trim text.toList)
  if event.isEmpty then .error (.branchWithoutEvent text)
  else .ok
    ⟨if condition.isEmpty then none else some (String.ofList condition),
     String.ofList (EventId.normalize event)⟩

/-- Something that can happen in a life. -/
structure Event where
  id : String
  /-- what is told when it happens -/
  text : String
  grade : Int
  /-- never drawn, only reached from other events -/
  onlyFollows : Bool
  /-- holds where the event can be drawn -/
  includeIf : Option String
  /-- holds where the event cannot be drawn -/
  excludeIf : Option String
  effect : Effect
  branches : List Branch
  /-- what follows if no branch is open -/
  next : Option String
deriving Repr, DecidableEq

namespace Event

/-- An event that changes nothing and leads nowhere. -/
def plain (id text : String) : Event := ⟨id, text, 0, false, none, none, .none, [], none⟩

/-- The events that an event can lead to, in the order in which they are tried. -/
def successors (e : Event) : List String := e.branches.map (·.event) ++ e.next.toList

end Event

end LifePath
