/-!
# Conditions

A condition is a tree: a leaf is the text of one comparison, and a group joins its members from
left to right with `&` and `|`. A group that is read from a text has one join fewer than members,
or is empty; the empty group is the condition that always holds.
-/

namespace LifePath

/-- How two neighbouring members of a group are joined. -/
inductive Join where
  | and
  | or
deriving Repr, DecidableEq, Inhabited

/-- The mark that stands for a join. -/
def Join.mark : Join → Char
  | .and => '&'
  | .or => '|'

/-- A condition as it is read from its text. -/
inductive Condition where
  /-- one comparison, kept as text -/
  | leaf (text : String)
  /-- members joined from left to right -/
  | group (members : List Condition) (joins : List Join)
deriving Repr, BEq, Inhabited

/-- The condition without members. -/
def Condition.always : Condition := .group [] []

end LifePath
