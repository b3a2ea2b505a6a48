import LifePath.Condition.Fault
import LifePath.Decimal.Integer
import LifePath.Text.Class

/-!
# Comparisons

A comparison names an attribute, an operator and a value: `CHR>=5`, `EVT?[1001,1002]`. The
attribute is what stands before the first operator character; that character, with an equals sign
if one follows, is the operator; the rest is the value, a 32-bit integer or a list in brackets.

`Comparison.read` tests these in a fixed order and reports the first that fails: the attribute,
the operator, the value, and last that no order is asked for against a list. `Comparison.text`
writes a comparison in the form without blanks.
-/

namespace LifePath

open LifePath.Text LifePath.Decimal

/-- How an attribute is compared. -/
inductive Operator where
  | greater
  | less
  | greaterEqual
  | lessEqual
  /-- equal to a number; for a list, holding it -/
  | equal
  /-- the negation of `equal` -/
  | notEqual
  /-- holding any item of a list -/
  | includesAny
  /-- holding no item of a list -/
  | excludesAll
deriving Repr, DecidableEq, Inhabited

namespace Operator

/-- The operator's symbol. -/
def symbol : Operator → String
  | .greater => ">"
  | .less => "<"
  | .greaterEqual => ">="
  | .lessEqual => "<="
  | .equal => "="
  | .notEqual => "!="
  | .includesAny => "?"
  | .excludesAll => "!"

/-- All operators. -/
def all : List Operator :=
  [.greater, .less, .greaterEqual, .lessEqual, .equal, .notEqual, .includesAny, .excludesAll]

/-- The operator with a given symbol. -/
def ofSymbol? (symbol : String) : Option Operator := all.find? fun op => op.symbol == symbol

/-- Whether the operator asks for an order. -/
def isOrdering : Operator → Bool
  | .greater | .less | .greaterEqual | .lessEqual => true
  | _ => false

theorem ofSymbol?_symbol (op : Operator) : ofSymbol? op.symbol = some op := by
  cases op <;> decide +kernel

end Operator

/-- What an attribute is compared with. -/
inductive Operand where
  | integer (n : Int)
  | list (items : List String)
deriving Repr, DecidableEq

/-- The comparison of one attribute with one value. -/
structure Comparison where
  /-- the code of the attribute -/
  code : String
  operator : Operator
  operand : Operand
deriving Repr, DecidableEq

namespace Comparison

/-- Whether an operator's symbol can begin with the character. -/
def isOperatorChar (c : Char) : Bool :=
  c = '>' || c = '<' || c = '=' || c = '!' || c = '?'

/-- Whether an attribute's code can hold the character: ASCII letters, digits and the underscore. -/
def isCodeChar (c : Char) : Bool := c.isAlphanum || c = '_'

/-- The items between commas, trimmed, without the blank ones. -/
def readItems (inside : List Char) : List String :=
  (((inside.splitOn ',').map trim).filter fun item => !item.isEmpty).map String.ofList

/-- What stands between the bracket that a text begins with and the one that it ends with. -/
def inBrackets? : List Char → Option (List Char)
  | '[' :: rest => if rest.getLast? = some ']' then some rest.dropLast else none
  | _ => none

/-- A list in brackets, with no bracket inside, or a 32-bit integer. -/
def readOperand (s : List Char) : Option Operand :=
  match inBrackets? s with
  | some inside =>
    if inside.any fun c => c = '[' || c = ']' then none else some (.list (readItems inside))
  | none => (readInt32 s).map .integer

/-- Divides what follows the attribute into the operator's symbol and the rest: one character, and
an equals sign if it comes next. -/
def splitSymbol : List Char → List Char × List Char
  | c :: '=' :: rest => ([c, '='], rest)
  | c :: rest => ([c], rest)
  | [] => ([], [])

/-- The comparison that a text stands for. -/
def read (text : String) : Except ConditionFault Comparison :=
  let s := text.toList
  let code := s.takeWhile fun c => !isOperatorChar c
  match s.dropWhile fun c => !isOperatorChar c with
  | [] => .error (.malformed text)
  | tail =>
    if code.isEmpty || !code.all isCodeChar then .error (.malformed text)
    else
      let (symbol, value) := splitSymbol tail
      match Operator.ofSymbol? (String.ofList symbol) with
      | none => .error (.unknownOperator (String.ofList symbol) text)
      | some operator =>
        match readOperand value with
        | none => .error (.malformed text)
        | some (.list items) =>
          if operator.isOrdering then .error (.orderedList text)
          else .ok ⟨String.ofList code, operator, .list items⟩
        | some operand => .ok ⟨String.ofList code, operator, operand⟩

end Comparison

/-- A value as it is written in a comparison. -/
def Operand.text : Operand → String
  | .integer n => intText n
  | .list items => "[" ++ String.intercalate "," items ++ "]"

/-- A comparison written without blanks. -/
def Comparison.text (c : Comparison) : String :=
  c.code ++ c.operator.symbol ++ c.operand.text

end LifePath
