import LifePath.Proofs.Condition.Comparison
import LifePath.Proofs.Json.Members
import LifePath.Proofs.Lookup
import LifePath.Story.Selection
import LifePath.Tables.Cell
import LifePath.Tables.Json

/-!
# When an event can be drawn, by both kinds of tables

The same row of a table can be written in JSON or handed over in cells. Of its conditions, cells
drop those that are blank, and JSON keeps them. A blank condition holds (`checkCondition_of_blank`).
So it makes no difference where an event can be drawn, for this holds without such a condition as
well; but where it cannot be drawn, it rules the event out for good. Everything else the two agree
on (`tables_agree_unless_exclusion_blank`).
-/

namespace LifePath

open LifePath.Text LifePath.Decimal

/-! ## Blank conditions -/

theorem stripBlanks_of_blank {s : List Char} (h : ∀ c ∈ s, isBlank c = true) :
    stripBlanks s = [] := by
  induction s with
  | nil => rfl
  | cons c rest ih =>
    obtain ⟨hc, hrest⟩ := List.forall_mem_cons.mp h
    obtain ⟨-, hopen, hclose⟩ := ne_marks_of_isBlank hc
    show stripBlanksFrom false (c :: rest) = []
    rw [stripBlanksFrom, if_neg hopen, if_neg hclose, hc]
    exact ih hrest

/-- A blank condition is a group without members, and holds. -/
theorem checkCondition_of_blank {text : String} (h : ∀ c ∈ text.toList, isBlank c = true)
    (source : Source) : checkCondition source text = .ok true := by
  have hread : Condition.read text = .group [] [] := by
    rw [Condition.read, stripBlanks_of_blank h]
    rfl
  rw [checkCondition, hread]
  rfl

/-! ## Rows -/

/-- The cell of an id. -/
inductive IdCell where
  | text (s : String)
  | integer (n : Int) (fits : fitsInt64 n = true)

namespace IdCell

/-- The id that is meant. -/
def id : IdCell → String
  | text s => EventId.ofText s
  | integer n _ => EventId.ofInt n

def json : IdCell → Json
  | text s => .text s
  | integer n _ => .number (Json.spelled n)

def cell : IdCell → Cell
  | text s => .text s
  | integer n _ => .int n

theorem readEventId_json (i : IdCell) : readEventId i.json = .ok i.id := by
  cases i with
  | text s => rfl
  | integer n fits => exact readEventId_spelled fits

theorem readEventId_cell (i : IdCell) : i.cell.readEventId = .ok i.id := by
  cases i with
  | text s => rfl
  | integer n fits =>
    have hint : (Cell.int n).asInt?.filter fitsInt64 = some n := if_pos fits
    show (Cell.int n).readEventId = _
    simp only [Cell.readEventId, hint]
    rfl

end IdCell

/-- The cell of a condition: none, an empty one, or one with a text in it. -/
inductive ConditionCell where
  | absent
  | empty
  | text (s : String)

namespace ConditionCell

/-- Whether there is a text, but nothing in it that means anything. -/
def isBlank : ConditionCell → Bool
  | text s => allBlank s.toList
  | _ => false

/-- The text. -/
def text? : ConditionCell → Option String
  | text s => some s
  | _ => none

/-- The condition that is meant: none if the text is blank. -/
def condition? (c : ConditionCell) : Option String := c.text?.filter fun s => !allBlank s.toList

def json (name : String) : ConditionCell → List (Option String × Json)
  | absent => []
  | empty => [(some name, .null)]
  | text s => [(some name, .text s)]

def cell (name : String) : ConditionCell → List (String × Cell)
  | absent => []
  | empty => [(name, .empty)]
  | text s => [(name, .text s)]

theorem condition?_eq (c : ConditionCell) :
    c.condition? = if c.isBlank then none else c.text? := by
  cases c with
  | absent => rfl
  | empty => rfl
  | text s => by_cases h : allBlank s.toList = true <;> simp [condition?, text?, isBlank, h]

/-- A condition that is kept although it is blank holds. -/
theorem holdsOr_of_isBlank {c : ConditionCell} (h : c.isBlank = true) (source : Source)
    (absent : Bool) : holdsOr source absent c.text? = .ok true := by
  cases c with
  | absent => cases h
  | empty => cases h
  | text s => exact checkCondition_of_blank (List.all_eq_true.mp h) source

end ConditionCell

/-- A row of a table of events. -/
structure EventRow where
  id : IdCell
  text : String
  includeIf : ConditionCell
  excludeIf : ConditionCell

namespace EventRow

/-- The event that is meant: a blank condition is none. -/
def meant (row : EventRow) : Event :=
  { Event.plain row.id.id row.text with
    includeIf := row.includeIf.condition?, excludeIf := row.excludeIf.condition? }

/-- The members of its object. -/
def members (row : EventRow) : List (Option String × Json) :=
  [(some "id", row.id.json), (some "event", .text row.text)] ++
    row.includeIf.json "include" ++ row.excludeIf.json "exclude"

/-- The entries of its dictionary. -/
def entries (row : EventRow) : List (String × Cell) :=
  [("id", row.id.cell), ("event", .text row.text)] ++
    row.includeIf.cell "include" ++ row.excludeIf.cell "exclude"

end EventRow

/-! ## JSON -/

/-- What the member of a condition fills; `place` is the place of its field. -/
def ConditionCell.fills (name : String) (place : Nat) (put : Option String → Event → Event) :
    ConditionCell → List (Json.Layout.Fill Event)
  | absent => []
  | empty => [⟨name, .null, place, put none⟩]
  | text s => [⟨name, .text s, place, put (some s)⟩]

/-- The field of a condition takes whatever stands in its cell. -/
theorem ConditionCell.takes_fills {name : String} {place : Nat} {names : List String}
    {put : Option String → Event → Event}
    (hfield : Event.layout.fields.zipIdx.find? (fun p => p.1.names.contains name) =
      some (.of names false (Json.readOption Json.readText) put, place)) (c : ConditionCell) :
    ∀ f ∈ c.fills name place put, Event.layout.Takes f := by
  cases c with
  | absent => simp [fills]
  | empty =>
    simp only [fills, List.mem_singleton, forall_eq]
    exact ⟨_, hfield, fun e => rfl⟩
  | text s =>
    simp only [fills, List.mem_singleton, forall_eq]
    exact ⟨_, hfield, fun e => rfl⟩

theorem ConditionCell.map_member_fills (name : String) (place : Nat)
    (put : Option String → Event → Event) (c : ConditionCell) :
    (c.fills name place put).map Json.Layout.Fill.member = c.json name := by
  cases c <;> rfl

namespace EventRow

/-- The event that is read from JSON: blank conditions are kept. -/
def fromJson (row : EventRow) : Event :=
  { Event.plain row.id.id row.text with
    includeIf := row.includeIf.text?, excludeIf := row.excludeIf.text? }

/-- What the members of a row fill. -/
def fills (row : EventRow) : List (Json.Layout.Fill Event) :=
  [⟨"id", row.id.json, 0, fun e => { e with id := row.id.id }⟩,
   ⟨"event", .text row.text, 1, fun e => { e with text := row.text }⟩] ++
    row.includeIf.fills "include" 4 (fun c e => { e with includeIf := c }) ++
    row.excludeIf.fills "exclude" 5 (fun c e => { e with excludeIf := c })

theorem takes_fills (row : EventRow) : ∀ f ∈ row.fills, Event.layout.Takes f := by
  simp only [fills, List.forall_mem_append, List.forall_mem_cons]
  refine ⟨⟨⟨⟨_, rfl, fun e => ?_⟩, ⟨_, rfl, fun e => rfl⟩, by simp⟩,
    ConditionCell.takes_fills rfl _⟩, ConditionCell.takes_fills rfl _⟩
  show (readEventId row.id.json).map _ = _
  rw [row.id.readEventId_json]
  rfl

/-- The event is read, in whatever order its members stand. -/
theorem read_members (row : EventRow) {members : List (Option String × Json)}
    (hmembers : members.Perm row.members) :
    Event.layout.read (.object members) = .ok row.fromJson := by
  have hfills : row.members = row.fills.map Json.Layout.Fill.member := by
    simp [EventRow.members, fills, ConditionCell.map_member_fills, Json.Layout.Fill.member]
  rw [hfills] at hmembers
  have htakes := row.takes_fills
  obtain ⟨id, text, includeIf, excludeIf⟩ := row
  rw [Json.Layout.read_perm htakes ?_ ?_ ?_ hmembers]
  · cases includeIf <;> cases excludeIf <;> rfl
  · cases includeIf <;> cases excludeIf <;> simp [fills, ConditionCell.fills]
  · intro p hp hrequired
    rcases Event.place_of_required hp hrequired with h | h <;> simp [fills, h]
  · cases includeIf <;> cases excludeIf <;> simp [fills, ConditionCell.fills]

end EventRow

/-! ## Cells -/

namespace Cell

/-- An event is read from a dictionary by looking its entries up. -/
theorem readEvent_congr {entries others : List (String × Cell)}
    (h : ∀ name, entries.lookup name = others.lookup name) :
    readEvent (.dict entries) = readEvent (.dict others) := by
  have hget (name : String) : (Cell.dict entries).get? name = (Cell.dict others).get? name := h name
  have hrequire (name : String) :
      (Cell.dict entries).require name = (Cell.dict others).require name := by
    unfold require
    rw [hget]
    cases (Cell.dict others).get? name <;> rfl
  have hfilled (name : String) :
      (Cell.dict entries).filled? name = (Cell.dict others).filled? name := by
    rw [filled?, filled?, hget]
  simp only [readEvent, hrequire, readFilled, filledOr?, readCondition, hfilled]

end Cell

namespace EventRow

theorem key_of_mem_entries {row : EventRow} {p : String × Cell} (hp : p ∈ row.entries) :
    p.1 ∈ ["id", "event", "include", "exclude"] := by
  obtain ⟨id, text, includeIf, excludeIf⟩ := row
  revert p
  cases includeIf <;> cases excludeIf <;> simp [EventRow.entries, ConditionCell.cell]

/-- Nothing else is filled in. -/
theorem filled?_entries {row : EventRow} {name : String}
    (hname : name ∉ ["id", "event", "include", "exclude"]) :
    (Cell.dict row.entries).filled? name = none := by
  have hlookup : row.entries.lookup name = none := by
    rw [List.lookup_eq_none_iff]
    intro p hp
    rw [bne_iff_ne]
    rintro rfl
    exact hname (key_of_mem_entries hp)
  rw [Cell.filled?, Cell.get?, hlookup]

/-- The event is read, in whatever order the entries stand. -/
theorem readEvent_entries (row : EventRow) {entries : List (String × Cell)}
    (hentries : entries.Perm row.entries) : Cell.readEvent (.dict entries) = .ok row.meant := by
  have hdistinct : (row.entries.map Prod.fst).Nodup := by
    obtain ⟨id, text, includeIf, excludeIf⟩ := row
    cases includeIf <;> cases excludeIf <;> simp [EventRow.entries, ConditionCell.cell]
  have hid : (Cell.dict row.entries).require "id" = .ok row.id.cell := rfl
  have htext : (Cell.dict row.entries).require "event" = .ok (.text row.text) := rfl
  have hinclude : (Cell.dict row.entries).readCondition "include" = .ok row.includeIf.condition? := by
    obtain ⟨id, text, includeIf, excludeIf⟩ := row
    cases includeIf <;> cases excludeIf <;> rfl
  have hexclude : (Cell.dict row.entries).readCondition "exclude" = .ok row.excludeIf.condition? := by
    obtain ⟨id, text, includeIf, excludeIf⟩ := row
    cases includeIf <;> cases excludeIf <;> rfl
  have hnone (name : String) (hname : name ∉ ["id", "event", "include", "exclude"]) :
      (Cell.dict row.entries).filled? name = none := filled?_entries hname
  rw [← Cell.readEvent_congr (lookup_perm hentries.symm hdistinct), Cell.readEvent]
  simp only [hid, htext, hinclude, hexclude, Cell.readFilled, Cell.filledOr?,
    hnone "grade" (by simp), hnone "no_random" (by simp), hnone "noRandom" (by simp),
    hnone "post_event" (by simp), hnone "postEvent" (by simp), hnone "effect" (by simp),
    hnone "branch" (by simp)]
  show (row.id.cell.readEventId >>= _) = _
  rw [row.id.readEventId_cell]
  rfl

end EventRow

/-! ## Both -/

/-- Where an event can be drawn depends on nothing but whether its conditions hold. -/
theorem Event.isEligible_congr {source : Source} {e other : Event}
    (hfollows : e.onlyFollows = other.onlyFollows)
    (hexclude : holdsOr source false e.excludeIf = holdsOr source false other.excludeIf)
    (hinclude : holdsOr source true e.includeIf = holdsOr source true other.includeIf) :
    e.isEligible source = other.isEligible source := by
  rw [isEligible, isEligible, hfollows, hexclude, hinclude]

theorem Event.isEligible_of_excluded {source : Source} {e : Event}
    (h : holdsOr source false e.excludeIf = .ok true) : e.isEligible source = .ok false := by
  rw [isEligible, h]
  exact ite_self _

/-- What JSON makes of a row can be drawn where the row means it, unless a blank condition was kept
that excludes it from everywhere. -/
theorem EventRow.isEligible_fromJson (row : EventRow) (source : Source) :
    row.fromJson.isEligible source =
      if row.excludeIf.isBlank then .ok false else row.meant.isEligible source := by
  by_cases hblank : row.excludeIf.isBlank = true
  · rw [if_pos hblank]
    exact Event.isEligible_of_excluded (ConditionCell.holdsOr_of_isBlank hblank source false)
  · have hexclude : row.excludeIf.condition? = row.excludeIf.text? := by
      rw [ConditionCell.condition?_eq, if_neg hblank]
    rw [if_neg hblank]
    refine Event.isEligible_congr rfl ?_ ?_
    · show holdsOr source false row.excludeIf.text? = holdsOr source false row.excludeIf.condition?
      rw [hexclude]
    -- A blank inclusion holds, and so does none.
    · show holdsOr source true row.includeIf.text? = holdsOr source true row.includeIf.condition?
      rw [ConditionCell.condition?_eq]
      split
      · next hinclude => exact ConditionCell.holdsOr_of_isBlank hinclude source true
      · rfl

/-- **Both kinds of tables agree on when an event can be drawn, unless its exclusion is blank.** A
row is read from JSON and from cells, in whatever order it is written. Cells mean the event whose
blank conditions are none. The event from JSON can be drawn where that one can, and is undecided for
the same fault; only if the row has an exclusion that is blank, it can be drawn nowhere. -/
theorem tables_agree_unless_exclusion_blank (row : EventRow) (source : Source)
    {members : List (Option String × Json)} {entries : List (String × Cell)}
    (hmembers : members.Perm row.members) (hentries : entries.Perm row.entries) :
    Cell.readEvent (.dict entries) = .ok row.meant ∧
      ∃ e, Event.layout.read (.object members) = .ok e ∧
        (row.excludeIf.isBlank = false → e.isEligible source = row.meant.isEligible source) ∧
        (row.excludeIf.isBlank = true → e.isEligible source = .ok false) := by
  refine ⟨row.readEvent_entries hentries, row.fromJson, row.read_members hmembers, ?_, ?_⟩
  · intro hblank
    rw [row.isEligible_fromJson, if_neg (by simp [hblank])]
  · intro hblank
    rw [row.isEligible_fromJson, if_pos hblank]

/-- For either of the tables, a blank inclusion is none. -/
theorem tables_agree_unless_exclusion_blank_inclusion :
    let row : EventRow := ⟨.integer 10001 (by decide), "moves on", .text "\u3000", .text "CHR>9"⟩
    Cell.readEvent (.dict row.entries.reverse) = .ok row.meant ∧
      ∃ e, Event.layout.read (.object row.members.reverse) = .ok e ∧
        e.isEligible (fun _ => some (.number 6)) = .ok true := by
  intro row
  obtain ⟨hcells, e, hread, hagree, -⟩ := tables_agree_unless_exclusion_blank row
    (fun _ => some (.number 6)) (List.reverse_perm row.members) (List.reverse_perm row.entries)
  refine ⟨hcells, e, hread, ?_⟩
  rw [hagree (by decide +kernel)]
  decide +kernel

/-- An exclusion of no characters rules an event out in JSON, but not in cells. -/
theorem exclusion_blank_rules_out :
    (Event.layout.read (.object
        [(some "id", .text "1"), (some "event", .text "moves on"), (some "exclude", .text "")])).map
          (·.isEligible fun _ => none) = .ok (.ok false) ∧
      (Cell.readEvent (.dict
        [("id", .text "1"), ("event", .text "moves on"), ("exclude", .text "")])).map
          (·.isEligible fun _ => none) = .ok (.ok true) :=
  ⟨rfl, rfl⟩

end LifePath
