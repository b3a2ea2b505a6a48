import LifePath.Json.Token
import LifePath.Json.Value

/-!
# Reading a JSON text

`Document.read` reads the value at the beginning of a text and notes whether anything but space
follows it. The value is cut where the tokens do not make one.
-/

namespace LifePath.Json

mutual

/-- The value that the tokens begin with, and the tokens after it. The depth bounds how far values
are nested. -/
def readValue : Nat → List Token → Json × List Token
  | 0, _ => (.cut, [])
  | depth + 1, tokens =>
    match tokens with
    | .null :: rest => (.null, rest)
    | .bool b :: rest => (.bool b, rest)
    | .number n :: rest => (.number n, rest)
    | .text (some s) :: rest => (.text s, rest)
    | .text none :: rest => (.unpaired, rest)
    | .openBracket :: .closeBracket :: rest => (.array [], rest)
    | .openBracket :: rest =>
      let (items, rest) := readItems depth rest
      (.array items, rest)
    | .openBrace :: .closeBrace :: rest => (.object [], rest)
    | .openBrace :: rest =>
      let (members, rest) := readMembers depth rest
      (.object members, rest)
    | _ => (.cut, [])

/-- Items up to the closing bracket. -/
def readItems : Nat → List Token → List Json × List Token
  | 0, _ => ([.cut], [])
  | depth + 1, tokens =>
    match readValue depth tokens with
    | (item, .comma :: rest) =>
      let (items, rest) := readItems depth rest
      (item :: items, rest)
    | (item, .closeBracket :: rest) => ([item], rest)
    | (item, _) => ([item, .cut], [])

/-- Members up to the closing brace. -/
def readMembers : Nat → List Token → List (Option String × Json) × List Token
  | 0, _ => ([(none, .cut)], [])
  | depth + 1, tokens =>
    match tokens with
    | .text name :: .colon :: rest =>
      match readValue depth rest with
      | (value, .comma :: rest) =>
        let (members, rest) := readMembers depth rest
        ((name, value) :: members, rest)
      | (value, .closeBrace :: rest) => ([(name, value)], rest)
      | (value, _) => ([(name, value), (none, .cut)], [])
    | _ => ([(none, .cut)], [])

end

/-- A text read as one value. -/
structure Document where
  value : Json
  /-- nothing but space follows the value -/
  ended : Bool

/-- Reads a text. A value is never nested deeper than twice the number of its tokens. -/
def Document.read (text : String) : Document :=
  let tokens := scan text.toList
  let (value, rest) := readValue (2 * tokens.length + 1) tokens
  ⟨value, rest.isEmpty⟩

end LifePath.Json
