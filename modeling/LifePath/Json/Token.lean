import LifePath.Decimal.Integer
import LifePath.Decimal.Numeral

/-!
# The tokens of a JSON text

Strict JSON: no comments, no leading zeros, no raw control characters in strings. The first place
where no token can be read becomes the token `broken`, and nothing after it is read.
-/

namespace LifePath.Json

open LifePath.Decimal

/-- A piece of a JSON text. -/
inductive Token where
  | openBrace
  | closeBrace
  | openBracket
  | closeBracket
  | colon
  | comma
  | null
  | bool (b : Bool)
  | number (n : Numeral)
  /-- a string; none if half of a surrogate pair is in it -/
  | text (s : Option String)
  | broken
deriving DecidableEq

/-- The value of four hexadecimal digits. -/
def hexUnit? (digits : List Char) : Option Nat :=
  digits.foldl (fun value c => value.bind fun v =>
    (if '0' ≤ c && c ≤ '9' then some (c.toNat - '0'.toNat)
     else if 'a' ≤ c && c ≤ 'f' then some (c.toNat - 'a'.toNat + 10)
     else if 'A' ≤ c && c ≤ 'F' then some (c.toNat - 'A'.toNat + 10)
     else none).map (v * 16 + ·)) (some 0)

/-- The character behind a backslash, other than by its code. -/
def escape? : Char → Option Char
  | '"' => some '"'
  | '\\' => some '\\'
  | '/' => some '/'
  | 'b' => some '\x08'
  | 'f' => some '\x0c'
  | 'n' => some '\n'
  | 'r' => some '\r'
  | 't' => some '\t'
  | _ => none

/-- A piece of a string: a character, or half of a surrogate pair given by its code. -/
inductive Piece where
  | char (c : Char)
  | half (code : Nat)

/-- The piece given by four hexadecimal digits. -/
def Piece.ofCode (code : Nat) : Piece :=
  if 0xD800 ≤ code && code < 0xE000 then .half code else .char (Char.ofNat code)

/-- The pieces of a string up to its closing quote, and what follows it. -/
def readPieces : List Char → Option (List Piece × List Char)
  | [] => none
  | '"' :: rest => some ([], rest)
  | '\\' :: 'u' :: a :: b :: c :: d :: rest =>
    match hexUnit? [a, b, c, d] with
    | none => none
    | some code => (readPieces rest).map fun (ps, r) => (.ofCode code :: ps, r)
  | '\\' :: e :: rest =>
    match escape? e with
    | none => none
    | some c => (readPieces rest).map fun (ps, r) => (.char c :: ps, r)
  | c :: rest =>
    if c < ' ' || c = '\\' then none
    else (readPieces rest).map fun (ps, r) => (.char c :: ps, r)

/-- The characters that pieces stand for; none if half of a surrogate pair has no other half behind
it. -/
def joinPieces : List Piece → Option (List Char)
  | [] => some []
  | .char c :: rest => (joinPieces rest).map (c :: ·)
  | .half high :: .half low :: rest =>
    if high < 0xDC00 && 0xDC00 ≤ low then
      let code := 0x10000 + (high - 0xD800) * 0x400 + (low - 0xDC00)
      (joinPieces rest).map (Char.ofNat code :: ·)
    else none
  | .half _ :: _ => none

/-- Reads the power of ten behind an exponent mark. -/
def readPower (rest : List Char) : Option (Int × List Char) :=
  let (negative, digits) := match rest with
    | '-' :: r => (true, r)
    | '+' :: r => (false, r)
    | r => (false, r)
  (readNat (digits.takeWhile Char.isDigit)).map fun n =>
    (if negative then -(n : Int) else n, digits.dropWhile Char.isDigit)

/-- Reads a number behind its sign: no digit stands behind a leading zero, and digits stand on
both sides of a point. -/
def readNumber (negative : Bool) (s : List Char) : Option (Numeral × List Char) :=
  let whole := s.takeWhile Char.isDigit
  if whole.isEmpty || whole.head? = some '0' && whole.length ≠ 1 then none
  else
    let power (fraction : Option (List Char)) (rest : List Char) :
        Option (Numeral × List Char) :=
      match rest with
      | mark :: r =>
        if mark = 'e' || mark = 'E' then
          (readPower r).map fun (e, r) => (⟨negative, whole, fraction, some e⟩, r)
        else some (⟨negative, whole, fraction, none⟩, rest)
      | [] => some (⟨negative, whole, fraction, none⟩, [])
    match s.dropWhile Char.isDigit with
    | '.' :: r =>
      let fraction := r.takeWhile Char.isDigit
      if fraction.isEmpty then none else power (some fraction) (r.dropWhile Char.isDigit)
    | r => power none r

/-- Whether a character may stand between tokens. -/
def isSpace (c : Char) : Bool := c = ' ' || c = '\n' || c = '\t' || c = '\r'

/-- The token that begins with a character, and what follows it. -/
def readToken (c : Char) (rest : List Char) : Token × List Char :=
  match c, rest with
  | '[', _ => (.openBracket, rest)
  | ']', _ => (.closeBracket, rest)
  | ',', _ => (.comma, rest)
  | ':', _ => (.colon, rest)
  | 'n', 'u' :: 'l' :: 'l' :: r => (.null, r)
  | 't', 'r' :: 'u' :: 'e' :: r => (.bool true, r)
  | 'f', 'a' :: 'l' :: 's' :: 'e' :: r => (.bool false, r)
  | '"', _ =>
    match readPieces rest with
    | some (pieces, r) => (.text ((joinPieces pieces).map String.ofList), r)
    | none => (.broken, [])
  | _, _ =>
    if c = '{' then (.openBrace, rest)
    else if c = '}' then (.closeBrace, rest)
    else
      match (if c = '-' then readNumber true rest else readNumber false (c :: rest)) with
      | some (n, r) => (.number n, r)
      | none => (.broken, [])

/-- The tokens of a text, at most so many. -/
def scanWithin : Nat → List Char → List Token
  | 0, _ => []
  | _, [] => []
  | most + 1, c :: rest =>
    if isSpace c then scanWithin most rest
    else
      let (token, rest) := readToken c rest
      token :: scanWithin most rest

/-- The tokens of a text. Each takes at least one character. -/
def scan (s : List Char) : List Token := scanWithin s.length s

end LifePath.Json
