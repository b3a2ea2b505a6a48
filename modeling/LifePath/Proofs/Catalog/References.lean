import LifePath.Catalog.Basic

/-!
# Tables without dangling references

Tables are `Closed` if every event that a pool refers to, and every event that an event can lead
to, is in the catalog. The search for a dangling reference finds nothing exactly in closed tables
(`danglingReference?_eq_none_iff`).
-/

namespace LifePath

/-- Every reference leads to an event of the catalog. -/
structure Closed (events : EventCatalog) (ages : AgeCatalog) : Prop where
  /-- the references of the pools -/
  pools : ∀ pool ∈ ages.pools, ∀ r ∈ pool.references, (events.get? r.event).isSome
  /-- the events that events lead to -/
  successors : ∀ e ∈ events.events, ∀ id ∈ e.successors, (events.get? id).isSome

theorem EventCatalog.mem_of_get? {catalog : EventCatalog} {id : String} {e : Event}
    (h : catalog.get? id = some e) : e ∈ catalog.events := List.mem_of_find?_eq_some h

theorem AgeCatalog.mem_of_get? {catalog : AgeCatalog} {age : Int} {pool : AgePool}
    (h : catalog.get? age = some pool) : pool ∈ catalog.pools := List.mem_of_find?_eq_some h

theorem AgeCatalog.danglingReference?_eq_none_iff {events : EventCatalog} {pool : AgePool} :
    AgeCatalog.danglingReference? events pool = none ↔
      ∀ r ∈ pool.references, (events.get? r.event).isSome := by
  simp [AgeCatalog.danglingReference?, Option.isSome_iff_ne_none]

theorem EventCatalog.danglingSuccessor?_eq_none_iff {events : EventCatalog} {e : Event} :
    events.danglingSuccessor? e = none ↔ ∀ id ∈ e.successors, (events.get? id).isSome := by
  simp [EventCatalog.danglingSuccessor?, Option.isSome_iff_ne_none]

/-- The search for a dangling reference finds nothing exactly if the tables are closed. -/
theorem danglingReference?_eq_none_iff {events : EventCatalog} {ages : AgeCatalog} :
    danglingReference? events ages = none ↔ Closed events ages := by
  rw [danglingReference?, Option.or_eq_none_iff, List.findSome?_eq_none_iff,
    List.findSome?_eq_none_iff]
  simp only [AgeCatalog.danglingReference?_eq_none_iff,
    EventCatalog.danglingSuccessor?_eq_none_iff]
  exact ⟨fun h => ⟨h.1, h.2⟩, fun h => ⟨h.pools, h.successors⟩⟩

namespace Closed

variable {events : EventCatalog} {ages : AgeCatalog}

/-- Where a chain goes on from an event of the catalog, there is an event again. -/
theorem get?_successor (h : Closed events ages) {id next : String} {e : Event}
    (he : events.get? id = some e) (hnext : next ∈ e.successors) : (events.get? next).isSome :=
  h.successors e (EventCatalog.mem_of_get? he) next hnext

theorem get?_reference (h : Closed events ages) {age : Int} {pool : AgePool} {r : Reference}
    (hpool : ages.get? age = some pool) (hr : r ∈ pool.references) :
    (events.get? r.event).isSome :=
  h.pools pool (AgeCatalog.mem_of_get? hpool) r hr

end Closed

end LifePath
