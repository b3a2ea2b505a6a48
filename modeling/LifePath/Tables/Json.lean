import LifePath.Catalog.Basic
import LifePath.Json.Record
import LifePath.Settings

/-!
# Tables and settings in JSON

Ids come as strings or as numbers, flags as booleans, as integers or as null. A blank condition is
kept as it stands.
-/

namespace LifePath

open LifePath.Decimal

/-- An event id: a string, an integer that fits 64 signed bits, or another number that is whole. -/
def readEventId : Json → Except JsonFault String
  | .text s => .ok (EventId.ofText s)
  | .number n =>
    match (Json.integer? n).filter fitsInt64 with
    | some i => .ok (EventId.ofInt i)
    | none =>
      match Json.float? n with
      | none => .error (.unexpected "an event id")
      | some f =>
        match EventId.ofFloat? f with
        | some id => .ok id
        | none => .error (.fractionalId f)
  | _ => .error (.unexpected "an event id")

/-- A flag. Among the integers only zero is not set. -/
def readFlag : Json → Except JsonFault Bool
  | .bool b => .ok b
  | .null => .ok false
  | .number n =>
    match (Json.integer? n).filter fitsInt64 with
    | some i => .ok (i != 0)
    | none => .error (.unexpected "a flag")
  | _ => .error (.unexpected "a flag")

/-- A branch. -/
def readBranch (v : Json) : Except JsonFault Branch :=
  match Json.readText v with
  | .error fault => .error fault
  | .ok text => (Branch.read text).mapError .badCell

/-- A reference: a text, a number that is an id by itself, or the text of any other number. -/
def readReference : Json → Except JsonFault Reference
  | .text s => (Reference.read s).mapError .badCell
  | .number n =>
    match (Json.integer? n).filter fitsInt64 with
    | some i => .ok ⟨EventId.ofInt i, Reference.plainWeight⟩
    | none =>
      match Json.float? n with
      | none => .error (.unexpected "an event reference")
      | some f => (Reference.read (floatText f)).mapError .badCell
  | _ => .error (.unexpected "an event reference")

namespace Effect

/-- Every change may be left out. -/
def layout : Json.Layout Effect where
  blank := .none
  fields := [
    .of ["CHR"] false Json.readInt32 fun n e => { e with chr := n },
    .of ["INT"] false Json.readInt32 fun n e => { e with int := n },
    .of ["STR"] false Json.readInt32 fun n e => { e with str := n },
    .of ["MNY"] false Json.readInt32 fun n e => { e with mny := n },
    .of ["SPR"] false Json.readInt32 fun n e => { e with spr := n },
    .of ["LIF"] false Json.readInt32 fun n e => { e with lif := n },
    .of ["AGE"] false (Json.readOption Json.readInt32) fun n e => { e with age := n }]

end Effect

namespace Event

/-- Only the id and the text are required. -/
def layout : Json.Layout Event where
  blank := .plain "" ""
  fields := [
    .of ["id"] true readEventId fun id e => { e with id },
    .of ["event"] true Json.readText fun text e => { e with text },
    .of ["grade"] false Json.readInt32 fun grade e => { e with grade },
    .of ["no_random", "noRandom"] false readFlag fun b e => { e with onlyFollows := b },
    .of ["include"] false (Json.readOption Json.readText) fun c e => { e with includeIf := c },
    .of ["exclude"] false (Json.readOption Json.readText) fun c e => { e with excludeIf := c },
    .of ["effect"] false Effect.layout.read fun effect e => { e with effect },
    .of ["branch"] false (Json.readList readBranch) fun branches e => { e with branches },
    .of ["post_event", "postEvent"] false (Json.readOption readEventId) fun next e =>
      { e with next }]

/-- Reads one event. -/
def ofJson (text : String) : Except JsonFault Event := Json.readWhole layout.read text

/-- Reads a table of events. -/
def listOfJson (text : String) : Except JsonFault (List Event) :=
  Json.readWhole (Json.readList layout.read) text

end Event

namespace AgePool

/-- Only the age is required. -/
def layout : Json.Layout AgePool where
  blank := ⟨0, []⟩
  fields := [
    .of ["age"] true Json.readInt32 fun age p => { p with age },
    .of ["events", "event"] false (Json.readList readReference) fun references p =>
      { p with references }]

/-- Reads a table of ages. -/
def listOfJson (text : String) : Except JsonFault (List AgePool) :=
  Json.readWhole (Json.readList layout.read) text

end AgePool

/-- The name of a policy, or an object that holds nothing but the name with null. -/
def readEmptyPool : Json → Except JsonFault EmptyPool
  | .text name => ofName name
  | .object [(some name, .null)] => ofName name
  | _ => .error (.unexpected "a policy")
where
  /-- The policy of a given name. -/
  ofName (name : String) : Except JsonFault EmptyPool :=
    if name = "fail" then .ok .fail
    else if name = "advance_age" then .ok .advanceAge
    else .error (.unexpected "a policy")

namespace Settings

/-- Whatever is left out is as in the standard settings. -/
def layout : Json.Layout Settings where
  blank := standard
  fields := [
    .of ["start_age"] false Json.readInt32 fun n s => { s with startAge := n },
    .of ["allocation_budget"] false Json.readInt32 fun n s => { s with budget := n },
    .of ["attribute_cap"] false Json.readInt32 fun n s => { s with cap := n },
    .of ["initial_life"] false Json.readInt32 fun n s => { s with initialLife := n },
    .of ["min_life"] false Json.readInt32 fun n s => { s with minLife := n },
    .of ["max_age"] false Json.readInt32 fun n s => { s with maxAge := n },
    .of ["max_chain_depth"] false Json.readNat64 fun n s => { s with maxChain := n },
    .of ["no_candidates"] false readEmptyPool fun p s => { s with emptyPool := p },
    .of ["idle_timeout_secs"] false Json.readNat64 fun n s => { s with idleTimeout := n }]

/-- Reads settings, fit for use or not. -/
def ofJson (text : String) : Except JsonFault Settings := Json.readWhole layout.read text

end Settings

end LifePath
