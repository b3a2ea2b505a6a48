import LifePath.Proofs.Decimal.Positional
import LifePath.Tables.Json
import Mathlib.Data.List.Perm.Basic

/-!
# Reading what was written

An integer is read as it is spelled (`integer?_spelled`), and an array element by element
(`readList_map`). A record is read from an object member by member. Members that each fill a field of
their own can stand in any order (`Layout.read_perm`): the record is that of all of them, provided
that no required field is left out and that what one member changes is not what another changes.
-/

namespace LifePath

open LifePath.Decimal

namespace Json

/-! ## Integers -/

/-- An integer as it is spelled. -/
def spelled (n : Int) : Numeral := ⟨decide (n < 0), Nat.toDigits 10 n.natAbs, none, none⟩

/-- An integer of 64 bits reads back as itself. -/
theorem integer?_spelled {n : Int} (h : fitsInt64 n = true) : integer? (spelled n) = some n := by
  have hvalue : (spelled n).significand = n.natAbs := by
    show digitsValue (Nat.toDigits 10 n.natAbs ++ []) = n.natAbs
    rw [List.append_nil, digitsValue_toDigits]
  have hint : (spelled n).toInt? = some n := by
    have hsigned : (if decide (n < 0) then -(n.natAbs : Int) else (n.natAbs : Int)) = n := by
      by_cases hneg : n < 0
      · rw [if_pos (decide_eq_true hneg)]
        omega
      · rw [if_neg (by simpa using hneg)]
        omega
    rw [Numeral.toInt?, hvalue]
    exact congrArg some hsigned
  have hzero : ((spelled n).negative && n == 0) = false := by
    by_cases hneg : n < 0
    · have hne : (n == 0) = false := by simpa using Int.ne_of_lt hneg
      rw [hne, Bool.and_false]
    · have hplus : (spelled n).negative = false := by simpa [spelled] using hneg
      rw [hplus, Bool.false_and]
  rw [integer?, hint, Option.filter_some, hzero, h]
  rfl

/-- A 32-bit integer is read as it is spelled. -/
theorem readInt32_spelled {n : Int} (h : fitsInt32 n = true) :
    readInt32 (.number (spelled n)) = .ok n := by
  have hwide : fitsInt64 n = true := by
    rw [fitsInt32, Bool.and_eq_true, decide_eq_true_eq, decide_eq_true_eq, minInt32, maxInt32] at h
    rw [fitsInt64, Bool.and_eq_true, decide_eq_true_eq, decide_eq_true_eq]
    omega
  rw [readInt32, integer?_spelled hwide, Option.filter_some, if_pos h]

/-! ## Arrays -/

/-- An array is read if each of its elements is. -/
theorem readList_map {α β : Type} {read : Json → Except JsonFault α} {make : β → Json}
    {value : β → α} (h : ∀ b, read (make b) = .ok (value b)) (items : List β) :
    readList read (.array (items.map make)) = .ok (items.map value) := by
  show readEach read (items.map make) = .ok (items.map value)
  induction items with
  | nil => rfl
  | cons b rest ih =>
    rw [List.map_cons, readEach, h b]
    simp only [ih]
    rfl

/-! ## Objects -/

namespace Layout

variable {α : Type}

/-- A member of an object that fills a field. -/
structure Fill (α : Type) where
  name : String
  value : Json
  /-- the place of the field among the fields -/
  place : Nat
  /-- what the member makes of a record -/
  put : α → α

namespace Fill

/-- The member as it stands in an object. -/
def member (f : Fill α) : Option String × Json := (some f.name, f.value)

/-- The record that members make of a record. -/
def putAll (fills : List (Fill α)) (record : α) : α := fills.foldl (fun record f => f.put record) record

end Fill

/-- Whether a layout takes a member for what it is said to be. -/
def Takes (layout : Layout α) (f : Fill α) : Prop :=
  ∃ field, layout.fields.zipIdx.find? (fun p => p.1.names.contains f.name) = some (field, f.place) ∧
    ∀ record, field.read f.value record = .ok (f.put record)

variable {layout : Layout α}

theorem readMembers_fills {fills : List (Fill α)} :
    ∀ {seen : List Nat} {record : α}, (∀ f ∈ fills, layout.Takes f) →
      (fills.map (·.place)).Nodup → (∀ f ∈ fills, f.place ∉ seen) →
      layout.readMembers seen record (fills.map Fill.member) =
        layout.complete ((fills.map (·.place)).reverse ++ seen) (Fill.putAll fills record) := by
  induction fills with
  | nil => intro seen record _ _ _; rfl
  | cons f rest ih =>
    intro seen record htakes hnodup hseen
    obtain ⟨hf, hrest⟩ := List.forall_mem_cons.mp htakes
    obtain ⟨hfresh, hothers⟩ := List.forall_mem_cons.mp hseen
    rw [List.map_cons, List.nodup_cons] at hnodup
    obtain ⟨field, hfield, hread⟩ := hf
    have hnew : seen.contains f.place = false := by simpa using hfresh
    have hnext : ∀ g ∈ rest, g.place ∉ f.place :: seen := by
      intro g hg hmem
      rcases List.mem_cons.mp hmem with heq | hmem
      · exact hnodup.1 (heq ▸ List.mem_map_of_mem hg)
      · exact hothers g hg hmem
    rw [List.map_cons, Fill.member, readMembers, hfield]
    simp only [hnew, hread]
    rw [ih hrest hnodup.2 hnext]
    simp [Fill.putAll]

/-- A record is complete if the place of every required field has been seen. -/
theorem complete_of_seen {seen : List Nat} {record : α}
    (h : ∀ p ∈ layout.fields.zipIdx, p.1.required = true → p.2 ∈ seen) :
    layout.complete seen record = .ok record := by
  have hnone : layout.missing? seen = none := by
    rw [missing?, List.findSome?_eq_none_iff]
    intro p hp
    refine if_neg fun htest => ?_
    obtain ⟨hrequired, hunseen⟩ := (Bool.and_eq_true ..).mp htest
    have hseen : seen.contains p.2 = true := by simpa using h p hp hrequired
    rw [hseen] at hunseen
    cases hunseen
  rw [complete, hnone]

/-- Members that fill different fields can stand in any order. -/
theorem read_perm {fills : List (Fill α)} {members : List (Option String × Json)}
    (htakes : ∀ f ∈ fills, layout.Takes f) (hnodup : (fills.map (·.place)).Nodup)
    (hrequired : ∀ p ∈ layout.fields.zipIdx, p.1.required = true → p.2 ∈ fills.map (·.place))
    (hcomm : ∀ f ∈ fills, ∀ g ∈ fills, ∀ record, g.put (f.put record) = f.put (g.put record))
    (hmembers : members.Perm (fills.map Fill.member)) :
    layout.read (.object members) = .ok (Fill.putAll fills layout.blank) := by
  -- Members in another order are those of the same fills in another order.
  obtain ⟨others, rfl, hperm⟩ : ∃ others : List (Fill α),
      members = others.map Fill.member ∧ others.Perm fills := by
    have hpair := congrFun (congrFun (List.eq_map_comp_perm (Fill.member (α := α))) members) fills
    exact hpair.mpr hmembers
  have hplaces := hperm.map (·.place)
  rw [read, readMembers_fills (fun f hf => htakes f (hperm.mem_iff.mp hf))
    (hplaces.nodup_iff.mpr hnodup) (by simp), complete_of_seen]
  · exact congrArg Except.ok (hperm.foldl_eq' (fun f hf g hg record =>
      hcomm f (hperm.mem_iff.mp hf) g (hperm.mem_iff.mp hg) record) _)
  · intro p hp hreq
    have hmem := hplaces.mem_iff.mpr (hrequired p hp hreq)
    simpa using hmem

end Layout

end Json

/-- An integer is an event's id as it is spelled. -/
theorem readEventId_spelled {n : Int} (h : fitsInt64 n = true) :
    readEventId (.number (Json.spelled n)) = .ok (EventId.ofInt n) := by
  simp only [readEventId, Json.integer?_spelled h, Option.filter_some, if_pos h]

/-- The required fields of an event are its first two. -/
theorem Event.place_of_required {p : Json.Field Event × Nat} (hp : p ∈ Event.layout.fields.zipIdx)
    (hrequired : p.1.required = true) : p.2 = 0 ∨ p.2 = 1 := by
  simp only [Event.layout, List.zipIdx_cons, List.zipIdx_nil, List.mem_cons, List.not_mem_nil,
    or_false] at hp
  rcases hp with rfl | rfl | rfl | rfl | rfl | rfl | rfl | rfl | rfl <;>
    first
    | exact .inl rfl
    | exact .inr rfl
    | cases hrequired

end LifePath
