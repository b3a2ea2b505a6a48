import LifePath.Condition.Basic
import LifePath.Text.Class

/-!
# The tokens of a condition

Blanks mean nothing in a condition, except inside a list. A list begins at `[`, ends at the next
`]`, and runs to the end of the text if there is none; whatever stands inside it is taken as it is.
`stripBlanks` removes the blanks that mean nothing, and `Token.scan` cuts what is left into
parentheses, joins, and the longest texts between them. No character is lost: the tokens written
one after the other are the stripped text (`Token.flatMap_chars_scan`).
-/

namespace LifePath

open LifePath.Text (isBlank)

/-- The text without the blanks outside its lists. -/
def stripBlanksFrom (inList : Bool) : List Char → List Char
  | [] => []
  | c :: rest =>
    if c = '[' then c :: stripBlanksFrom true rest
    else if c = ']' then c :: stripBlanksFrom false rest
    else if isBlank c && !inList then stripBlanksFrom inList rest
    else c :: stripBlanksFrom inList rest

/-- The text of a condition without the blanks that mean nothing. -/
def stripBlanks (s : List Char) : List Char := stripBlanksFrom false s

/-- A piece of a condition. -/
inductive Token where
  /-- a text without joins and parentheses, lists apart -/
  | text (chars : List Char)
  | join (join : Join)
  | opening
  | closing
deriving Repr, DecidableEq

namespace Token

/-- The characters a token was read from. -/
def chars : Token → List Char
  | .text cs => cs
  | .join j => [j.mark]
  | .opening => ['(']
  | .closing => [')']

/-- The token that a character is by itself, outside lists. -/
def single? (c : Char) : Option Token :=
  if c = '(' then some .opening
  else if c = ')' then some .closing
  else if c = '&' then some (.join .and)
  else if c = '|' then some (.join .or)
  else none

/-- Puts a character in front of the text that the tokens begin with, or starts such a text. -/
def addChar (c : Char) : List Token → List Token
  | .text cs :: rest => .text (c :: cs) :: rest
  | rest => .text [c] :: rest

/-- Cuts a text into tokens. -/
def scanFrom (inList : Bool) : List Char → List Token
  | [] => []
  | c :: rest =>
    if inList then addChar c (scanFrom (c != ']') rest)
    else match single? c with
      | some t => t :: scanFrom false rest
      | none => addChar c (scanFrom (c == '[') rest)

/-- The tokens of a text from which the blanks have been stripped. -/
def scan (s : List Char) : List Token := scanFrom false s

theorem chars_of_single? {c : Char} {t : Token} (h : single? c = some t) : t.chars = [c] := by
  unfold single? at h
  repeat' split at h
  all_goals simp_all [chars, Join.mark]
  all_goals subst h; rfl

theorem flatMap_chars_addChar (c : Char) (ts : List Token) :
    (addChar c ts).flatMap chars = c :: ts.flatMap chars := by
  unfold addChar
  split <;> simp [chars]

/-- The tokens hold the text they were cut from. -/
theorem flatMap_chars_scan (s : List Char) : (scan s).flatMap chars = s := by
  suffices h : ∀ (s : List Char) (b : Bool), (scanFrom b s).flatMap chars = s from h s false
  intro s
  induction s with
  | nil => intro b; rfl
  | cons c rest ih =>
    intro b
    unfold scanFrom
    split
    · simp [flatMap_chars_addChar, ih]
    · split
      · next t ht => simp [chars_of_single? ht, ih]
      · simp [flatMap_chars_addChar, ih]

end Token

end LifePath
