import LifePath.Condition.Token

/-!
# Reading a condition

`Condition.read` never fails. It keeps one frame for the whole text and one for each parenthesis
still open. A group whose members and joins do not take turns becomes a leaf that holds the text
of the group, with its parentheses; so does a group below more than `maxDepth` parentheses, whose
inside is not looked at. If the parentheses of the whole text do not match, the whole text is one
leaf. A group of one member is that member.
-/

namespace LifePath

/-- A group is read as a group up to this many parentheses deep. -/
def maxDepth : Nat := 64

/-- A group that is still open. -/
structure Frame where
  /-- the text read so far, its own parenthesis included -/
  text : List Char
  members : List Condition
  joins : List Join
  /-- two members without a join between them, or a join without a member in front of it -/
  broken : Bool
  /-- below more parentheses than are read -/
  tooDeep : Bool

namespace Frame

/-- A frame with nothing in it. -/
def start (text : List Char) (tooDeep : Bool) : Frame := ⟨text, [], [], false, tooDeep⟩

/-- Takes in text that adds nothing by itself. -/
def addText (f : Frame) (cs : List Char) : Frame := { f with text := f.text ++ cs }

/-- Takes in a member; the inside of a group too deep is not kept. -/
def addMember (f : Frame) (c : Condition) : Frame :=
  if f.tooDeep then f
  else { f with
    members := f.members ++ [c]
    broken := f.broken || f.joins.length < f.members.length }

/-- Takes in a join. -/
def addJoin (f : Frame) (j : Join) : Frame :=
  if f.tooDeep then f
  else { f with
    joins := f.joins ++ [j]
    broken := f.broken || f.members.length == f.joins.length }

/-- Whether members and joins take turns, beginning and ending with a member. -/
def wellFormed (f : Frame) : Bool :=
  !f.broken
    && (f.members.isEmpty && f.joins.isEmpty || f.joins.length + 1 == f.members.length)

/-- The condition that a complete frame stands for. -/
def close (f : Frame) : Condition :=
  if f.tooDeep || !f.wellFormed then .leaf (String.ofList f.text)
  else match f.members with
    | [c] => c
    | members => .group members f.joins

end Frame

/-- Reads the tokens that are left. `top` is the innermost open group, `below` are the groups
around it, and `whole` is the text that is read. -/
def readTokens (whole : List Char) (top : Frame) (below : List Frame) : List Token → Condition
  | [] => if below.isEmpty then top.close else .leaf (String.ofList whole)
  | .text cs :: rest =>
    readTokens whole ((top.addMember (.leaf (String.ofList cs))).addText cs) below rest
  | .join j :: rest => readTokens whole ((top.addJoin j).addText [j.mark]) below rest
  | .opening :: rest =>
    readTokens whole (.start ['('] (maxDepth ≤ below.length)) (top :: below) rest
  | .closing :: rest =>
    match below with
    | [] => .leaf (String.ofList whole)
    | parent :: below =>
      let group := top.addText [')']
      readTokens whole ((parent.addMember group.close).addText group.text) below rest

/-- The condition that a text stands for. -/
def Condition.read (text : String) : Condition :=
  let stripped := stripBlanks text.toList
  readTokens stripped (.start [] false) [] (Token.scan stripped)

end LifePath
