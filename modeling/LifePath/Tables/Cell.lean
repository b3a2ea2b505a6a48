import LifePath.Fault

/-!
# Tables of loosely typed cells

Tables can also be handed over as they come out of a spreadsheet: a record is a dictionary or an
object with fields, and a cell is whatever was typed into it. Reading a record is more lenient than
reading JSON in what it takes for a flag or for nothing, and stricter in other places; both end in
the same tables.

The fields of an event are looked at in a fixed order, and the first fault ends the reading.
-/

namespace LifePath

open LifePath.Text LifePath.Decimal

/-- A cell, or a record of cells. -/
inductive Cell where
  | empty
  | flag (b : Bool)
  | int (n : Int)
  | real (f : Float)
  | text (s : String)
  | list (items : List Cell)
  /-- a fixed number of items -/
  | tuple (items : List Cell)
  /-- cells under keys -/
  | dict (entries : List (String × Cell))
  /-- cells in fields -/
  | object (fields : List (String × Cell))
deriving Repr, Inhabited

/-- Why a table of cells cannot be taken over. -/
inductive CellFault where
  /-- a dictionary lacks a key -/
  | missingKey (name : String)
  /-- something that is no dictionary lacks a field -/
  | missingField (name : String)
  | wrongKind
  | outOfRange
  /-- a tuple that is no pair -/
  | wrongLength
  | fault (fault : Fault)
deriving Repr, DecidableEq

namespace Cell

/-- What stands under a name. -/
def get? (record : Cell) (name : String) : Option Cell :=
  match record with
  | .dict entries => entries.lookup name
  | .object fields => fields.lookup name
  | _ => none

/-- What stands under a name that has to be there. -/
def require (record : Cell) (name : String) : Except CellFault Cell :=
  match record.get? name, record with
  | some cell, _ => .ok cell
  | none, .dict _ => .error (.missingKey name)
  | none, _ => .error (.missingField name)

/-- What stands under a name, unless nothing or an empty cell does. -/
def filled? (record : Cell) (name : String) : Option Cell :=
  match record.get? name with
  | some .empty => none
  | other => other

/-- What stands under the first of two names that is filled. -/
def filledOr? (record : Cell) (name other : String) : Option Cell :=
  (record.filled? name).or (record.filled? other)

/-- An integer; a flag counts as zero or one. -/
def asInt? : Cell → Option Int
  | .int n => some n
  | .flag b => some (if b then 1 else 0)
  | _ => none

/-- An integer that passes a test. -/
def readIntIn (fits : Int → Bool) (cell : Cell) : Except CellFault Int :=
  match cell.asInt? with
  | none => .error .wrongKind
  | some n => if fits n then .ok n else .error .outOfRange

/-- An integer that fits 32 bits. -/
def readInt32 (cell : Cell) : Except CellFault Int := cell.readIntIn fitsInt32

/-- A count that fits 64 bits. -/
def readCount (cell : Cell) : Except CellFault Nat := (cell.readIntIn fitsUInt64).map Int.toNat

/-- A number; an integer is taken to the nearest one with a binary fraction. -/
def readFloat (cell : Cell) : Except CellFault Float :=
  match cell with
  | .real f => .ok f
  | _ =>
    match cell.asInt? with
    | none => .error .wrongKind
    | some n =>
      let size := Numeral.magnitude n.natAbs 0
      if isFinite size then .ok (if n < 0 then -size else size) else .error .outOfRange

/-- A text. -/
def readText : Cell → Except CellFault String
  | .text s => .ok s
  | _ => .error .wrongKind

/-- The items of a list. -/
def readList : Cell → Except CellFault (List Cell)
  | .list items => .ok items
  | _ => .error .wrongKind

/-- A flag; what is neither a flag nor an integer of 64 bits is not set. -/
def readFlag (cell : Cell) : Bool :=
  match cell with
  | .flag b => b
  | _ => (cell.asInt?.filter fitsInt64).any (· != 0)

/-- An event id: an integer of 64 bits, another number by its decimal text, or a text. -/
def readEventId (cell : Cell) : Except CellFault String :=
  match cell.asInt?.filter fitsInt64, cell.readFloat, cell with
  | some n, _, _ => .ok (EventId.ofInt n)
  | none, .ok f, _ => .ok (EventId.ofText (floatText f))
  | none, .error _, .text s => .ok (EventId.ofText s)
  | none, .error _, _ => .error .wrongKind

/-- Reads the cell under a name if it is filled. -/
def readFilled {α : Type} (record : Cell) (name : String) (read : Cell → Except CellFault α) :
    Except CellFault (Option α) :=
  match record.filled? name with
  | none => .ok none
  | some cell => (read cell).map some

/-- Reads items one after the other. -/
def readEach {α : Type} (read : Cell → Except CellFault α) :
    List Cell → Except CellFault (List α)
  | [] => .ok []
  | cell :: rest =>
    match read cell with
    | .error fault => .error fault
    | .ok a => (readEach read rest).map (a :: ·)

/-- Reads the items of the list in a cell, if there is a cell. -/
def readItems {α : Type} (cell : Option Cell) (read : Cell → Except CellFault α) :
    Except CellFault (List α) :=
  match cell with
  | none => .ok []
  | some cell => cell.readList.bind (readEach read)

/-- A fault of a table. -/
def ofCatalog {α : Type} (result : Except CatalogFault α) : Except CellFault α :=
  result.mapError fun fault => .fault (.catalog fault)

/-- A condition that is not blank. -/
def readCondition (record : Cell) (name : String) : Except CellFault (Option String) :=
  (record.readFilled name readText).map fun text => text.filter fun s => !allBlank s.toList

/-- An effect; what lacks all its fields changes nothing. -/
def readEffect (record : Cell) : Except CellFault Effect := do
  let number name := (record.readFilled name readInt32).map fun n => n.getD 0
  let chr ← number "CHR"
  let int ← number "INT"
  let str ← number "STR"
  let mny ← number "MNY"
  let spr ← number "SPR"
  let lif ← number "LIF"
  let age ← record.readFilled "AGE" readInt32
  pure { chr, int, str, mny, spr, lif, age }

/-- A branch. -/
def readBranch (cell : Cell) : Except CellFault Branch :=
  cell.readText.bind fun text => ofCatalog (Branch.read text)

/-- An event. -/
def readEvent (record : Cell) : Except CellFault Event := do
  let id ← (← record.require "id").readEventId
  let text ← (← record.require "event").readText
  let grade := (← record.readFilled "grade" readInt32).getD 0
  let onlyFollows := (record.filledOr? "no_random" "noRandom").any readFlag
  let includeIf ← record.readCondition "include"
  let excludeIf ← record.readCondition "exclude"
  let next ← match record.filledOr? "post_event" "postEvent" with
    | none => pure none
    | some cell => cell.readEventId.map some
  let effect := (← record.readFilled "effect" readEffect).getD .none
  let branches ← readItems (record.filled? "branch") readBranch
  pure { id, text, grade, onlyFollows, includeIf, excludeIf, effect, branches, next }

/-- A reference: an integer that is an id, a text, or a pair of an id and a weight. -/
def readReference (cell : Cell) : Except CellFault Reference :=
  match cell.asInt?.filter fitsInt64, cell with
  | some n, _ => .ok ⟨EventId.ofInt n, Reference.plainWeight⟩
  | none, .text s => ofCatalog (Reference.read s)
  | none, .tuple [id, weight] => do
    let weight ← weight.readFloat
    let event ← id.readEventId
    pure { event, weight }
  | none, .tuple _ => .error .wrongLength
  | none, _ => .error .wrongKind

/-- The pool of an age. -/
def readPool (record : Cell) : Except CellFault AgePool := do
  let age ← (← record.require "age").readInt32
  let references ← readItems (record.filledOr? "events" "event") readReference
  pure { age, references }

end Cell

end LifePath
