import LifePath.Catalog.Event

/-!
# The entries of a life

An entry tells one year: the age, what happened in order, the six numbers afterwards, and whether
the life is over. Its text has a line for each event, with a marker for the event's grade.
-/

namespace LifePath

/-- Something that happened in a year. -/
structure Happening where
  event : String
  text : String
  grade : Int
deriving Repr, DecidableEq

/-- An event as something that happened. -/
def Event.happening (e : Event) : Happening := ⟨e.id, e.text, e.grade⟩

/-- The marker of a grade. Grades beyond the known ones look like the lowest. -/
def gradeMarker (grade : Int) : String :=
  if grade = 1 then "🔵" else if grade = 2 then "🟣" else if grade = 3 then "🟠" else "⚪"

/-- One year of a life. -/
structure Entry where
  /-- the age at the beginning of the year -/
  age : Int
  /-- the event that was drawn, and then those that followed -/
  happenings : List Happening
  /-- the six numbers at the end of the year -/
  numbers : List Int
  isEnd : Bool
deriving Repr, DecidableEq

namespace Entry

/-- The year as it is told. -/
def text (e : Entry) : String :=
  String.intercalate "\n" (e.happenings.map fun h => gradeMarker h.grade ++ " " ++ h.text)

/-- The ids of what happened. -/
def eventIds (e : Entry) : List String := e.happenings.map (·.event)

end Entry

end LifePath
