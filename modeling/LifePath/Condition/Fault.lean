/-!
# What can be wrong with a condition

Reading a condition never fails; its faults show when a leaf is evaluated. Each cause is a
constructor, and `ConditionFault.message` gives it its words.
-/

namespace LifePath

/-- The two kinds of value that an attribute can have. -/
inductive ValueKind where
  | number
  | list
deriving Repr, DecidableEq

/-- The word for a kind of value. -/
def ValueKind.name : ValueKind → String
  | .number => "numeric"
  | .list => "list"

/-- Why a comparison cannot be decided. -/
inductive ConditionFault where
  /-- the text is no comparison -/
  | malformed (text : String)
  /-- the mark between attribute and value is no operator -/
  | unknownOperator (symbol text : String)
  /-- nothing is known under the attribute's code -/
  | missingAttribute (code : String)
  /-- an order is asked for against a list -/
  | orderedList (text : String)
  /-- the operator has no meaning for the attribute's kind of value -/
  | undefinedOperator (symbol : String) (kind : ValueKind) (code : String)
deriving Repr, DecidableEq

/-- The words for a fault. -/
def ConditionFault.message : ConditionFault → String
  | .malformed text => "Malformed condition: " ++ text
  | .unknownOperator symbol text =>
    "Unknown operator '" ++ symbol ++ "' in condition: " ++ text
  | .missingAttribute code => "Missing attribute: " ++ code
  | .orderedList text => "Type mismatch: " ++ text ++ " cannot compare against a list"
  | .undefinedOperator symbol kind code =>
    "Type mismatch: " ++ symbol ++ " is not defined for " ++ kind.name ++ " attribute "
      ++ code

end LifePath
