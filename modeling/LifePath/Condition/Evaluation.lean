import LifePath.Condition.Read
import LifePath.Condition.Comparison

/-!
# Evaluating a condition

A group is evaluated from left to right and no further than needed. After `&` the next member is
evaluated only while the result so far is true, and a true result in front of `|` is the result of
the whole group. A member that is passed over is not evaluated, so its faults do not show and its
attribute is not asked for.

A `Verdict` holds, beside the outcome, the codes that were asked for, in order.
-/

namespace LifePath

open LifePath.Decimal

/-- The value of an attribute. -/
inductive Value where
  | number (n : Int)
  | list (items : List String)
deriving Repr, DecidableEq

/-- The kind of a value. -/
def Value.kind : Value → ValueKind
  | .number _ => .number
  | .list _ => .list

/-- What conditions are evaluated against: the value under each code that is known. -/
abbrev Source := String → Option Value

/-- The outcome of an evaluation and the codes it asked for. -/
structure Verdict where
  outcome : Except ConditionFault Bool
  asked : List String

namespace Verdict

/-- A verdict that asks for nothing. -/
def pure (b : Bool) : Verdict := ⟨.ok b, []⟩

/-- Goes on from a true or false outcome; a fault is final. -/
def andThen (v : Verdict) (next : Bool → Verdict) : Verdict :=
  match v.outcome with
  | .ok b => ⟨(next b).outcome, v.asked ++ (next b).asked⟩
  | .error _ => v

end Verdict

/-- Whether an attribute's value stands in the operator's relation to an operand, or nothing if
the operator has no meaning for the two. A number is in a list if one of the items is its decimal
text with any sign and leading zeros; a list holds a number if it holds the number's plain text. -/
def Value.compare : Value → Operator → Operand → Option Bool
  | .number n, .greater, .integer m => some (n > m)
  | .number n, .less, .integer m => some (n < m)
  | .number n, .greaterEqual, .integer m => some (n ≥ m)
  | .number n, .lessEqual, .integer m => some (n ≤ m)
  | .number n, .equal, .integer m => some (n = m)
  | .number n, .notEqual, .integer m => some (n ≠ m)
  | .number n, .includesAny, .list items =>
    some (items.any fun item => readInt32 item.toList == some n)
  | .number n, .excludesAll, .list items =>
    some (!items.any fun item => readInt32 item.toList == some n)
  | .number _, .includesAny, .integer _ => some false
  | .number _, .excludesAll, .integer _ => some false
  | .list held, .equal, .integer m => some (held.contains (intText m))
  | .list held, .notEqual, .integer m => some (!held.contains (intText m))
  | .list held, .includesAny, .list items => some (held.any fun h => items.contains h)
  | .list held, .excludesAll, .list items => some (!held.any fun h => items.contains h)
  | _, _, _ => none

/-- The outcome of a comparison whose attribute has been asked for. -/
def Comparison.decide (c : Comparison) (value : Option Value) : Except ConditionFault Bool :=
  match value with
  | none => .error (.missingAttribute c.code)
  | some v =>
    match v.compare c.operator c.operand with
    | none => .error (.undefinedOperator c.operator.symbol v.kind c.code)
    | some b => .ok b

/-- Evaluates the text of one comparison. -/
def evaluateLeaf (source : Source) (text : String) : Verdict :=
  match Comparison.read text with
  | .error fault => ⟨.error fault, []⟩
  | .ok c => ⟨c.decide (source c.code), [c.code]⟩

mutual

/-- Evaluates a condition. -/
def Condition.evaluate (source : Source) : Condition → Verdict
  | .leaf text => evaluateLeaf source text
  | .group members joins => evaluateGroup source members joins

/-- Evaluates a group; the group without members holds. -/
def evaluateGroup (source : Source) : List Condition → List Join → Verdict
  | [], _ => .pure true
  | first :: rest, joins =>
    (first.evaluate source).andThen fun b => evaluateRest source b rest joins

/-- Evaluates what follows in a group when the result so far is `b`. -/
def evaluateRest (source : Source) (b : Bool) : List Condition → List Join → Verdict
  | next :: rest, .and :: joins =>
    if b then (next.evaluate source).andThen fun b => evaluateRest source b rest joins
    else evaluateRest source false rest joins
  | next :: rest, .or :: joins =>
    if b then .pure true
    else (next.evaluate source).andThen fun b => evaluateRest source b rest joins
  | _, _ => .pure b

end

/-- Whether a condition given as text holds. -/
def checkCondition (source : Source) (text : String) : Except ConditionFault Bool :=
  ((Condition.read text).evaluate source).outcome

end LifePath
