import LifePath.Catalog.Fault
import LifePath.Json.Read

/-!
# Records in JSON

A record is written as an object of named fields or as an array of its fields in their order. Its
fields are gone through in the order in which they stand, so the first fault in the text is the
one reported. A field may have several names; it must not be given twice; a member of any other
name is passed over. Whatever is left out keeps its value from the blank record, unless it is
required.
-/

namespace LifePath

open LifePath.Decimal

/-- Why a JSON text is not the table it should be. -/
inductive JsonFault where
  /-- the text is not JSON -/
  | brokenText
  /-- a value of another kind, or out of range -/
  | unexpected (wanted : String)
  | missingField (name : String)
  | repeatedField (name : String)
  | tooManyElements
  /-- a number used as an event id that is not whole or too great -/
  | fractionalId (id : Float)
  /-- a cell whose text means nothing -/
  | badCell (fault : CatalogFault)
deriving Repr, DecidableEq

namespace JsonFault

/-- The words for a fault. -/
def message (fault : JsonFault) : String :=
  "Deserialization error: " ++ match fault with
    | .brokenText => "the text is not JSON"
    | .unexpected wanted => "expected " ++ wanted
    | .missingField name => "missing field " ++ name
    | .repeatedField name => "repeated field " ++ name
    | .tooManyElements => "too many elements"
    | .fractionalId id => "event id " ++ floatText id ++ " is not an integer"
    | .badCell fault => fault.message

/-- Whether the fault lies in what a cell says, and not in the form of the text. -/
def isAboutCell : JsonFault → Bool
  | .fractionalId _ | .badCell _ => true
  | _ => false

end JsonFault

namespace Json

/-- A field of a record of type `α`. -/
structure Field (α : Type) where
  /-- the name, and other names for the same field -/
  names : List String
  required : Bool
  /-- puts the value of the field into a record -/
  read : Json → α → Except JsonFault α

/-- How a record is read: the record that has no field, and its fields in order. -/
structure Layout (α : Type) where
  blank : α
  fields : List (Field α)

namespace Layout

variable {α : Type}

/-- The first required field that was not given. -/
def missing? (layout : Layout α) (seen : List Nat) : Option JsonFault :=
  layout.fields.zipIdx.findSome? fun (field, place) =>
    if field.required && !seen.contains place
    then some (.missingField (field.names.headD "")) else none

/-- The record, if no required field is missing. -/
def complete (layout : Layout α) (seen : List Nat) (record : α) : Except JsonFault α :=
  match layout.missing? seen with
  | some fault => .error fault
  | none => .ok record

/-- Reads the members of an object one after the other. -/
def readMembers (layout : Layout α) (seen : List Nat) (record : α) :
    List (Option String × Json) → Except JsonFault α
  | [] => layout.complete seen record
  | (none, _) :: _ => .error .brokenText
  | (some name, value) :: rest =>
    match layout.fields.zipIdx.find? fun (field, _) => field.names.contains name with
    | none =>
      if value.isWhole then layout.readMembers seen record rest else .error .brokenText
    | some (field, place) =>
      if seen.contains place then .error (.repeatedField name)
      else match field.read value record with
        | .error fault => .error fault
        | .ok record => layout.readMembers (place :: seen) record rest

/-- Reads the elements of an array into the fields from the given place on. -/
def readElements (layout : Layout α) (place : Nat) (record : α) :
    List (Field α) → List Json → Except JsonFault α
  | _, [] => layout.complete (List.range place) record
  | [], .cut :: _ => .error .brokenText
  | [], _ :: _ => .error .tooManyElements
  | field :: fields, value :: rest =>
    match field.read value record with
    | .error fault => .error fault
    | .ok record => layout.readElements (place + 1) record fields rest

/-- Reads a record. -/
def read (layout : Layout α) : Json → Except JsonFault α
  | .object members => layout.readMembers [] layout.blank members
  | .array elements => layout.readElements 0 layout.blank layout.fields elements
  | .cut => .error .brokenText
  | _ => .error (.unexpected "a record")

end Layout

/-- A number spelled as an integer that fits 32 bits. -/
def readInt32 : Json → Except JsonFault Int
  | .number n =>
    match (integer? n).filter fitsInt32 with
    | some i => .ok i
    | none => .error (.unexpected "a 32-bit integer")
  | _ => .error (.unexpected "a 32-bit integer")

/-- A number spelled as an integer that fits 64 bits and is not negative. -/
def readNat64 : Json → Except JsonFault Nat
  | .number n =>
    match (integer? n).filter fitsUInt64 with
    | some i => .ok i.toNat
    | none => .error (.unexpected "a 64-bit count")
  | _ => .error (.unexpected "a 64-bit count")

/-- A string. -/
def readText : Json → Except JsonFault String
  | .text s => .ok s
  | _ => .error (.unexpected "a string")

/-- A value that may be null. -/
def readOption {α : Type} (read : Json → Except JsonFault α) : Json → Except JsonFault (Option α)
  | .null => .ok none
  | v => (read v).map some

/-- Reads items one after the other. -/
def readEach {α : Type} (read : Json → Except JsonFault α) :
    List Json → Except JsonFault (List α)
  | [] => .ok []
  | v :: rest =>
    match read v with
    | .error fault => .error fault
    | .ok a => (readEach read rest).map (a :: ·)

/-- An array of values of one kind. -/
def readList {α : Type} (read : Json → Except JsonFault α) : Json → Except JsonFault (List α)
  | .array items => readEach read items
  | _ => .error (.unexpected "an array")

/-- A field that is filled with what is read. -/
def Field.of {α β : Type} (names : List String) (required : Bool)
    (read : Json → Except JsonFault β) (put : β → α → α) : Field α :=
  ⟨names, required, fun v record => (read v).map fun b => put b record⟩

/-- Reads a whole text. -/
def readWhole {α : Type} (read : Json → Except JsonFault α) (text : String) :
    Except JsonFault α :=
  let document := Document.read text
  match read document.value with
  | .error fault => .error fault
  | .ok a => if document.ended then .ok a else .error .brokenText

end Json

end LifePath
