import LifePath.Catalog.Event
import LifePath.Catalog.Reference

/-!
# Catalogs

An event catalog holds events with different ids, an age catalog holds pools of different ages
whose weights are finite and not negative. Both are made from lists of records; the first record
that breaks a rule decides the fault. `danglingReference?` looks for a reference to an event that
is in no catalog, in the pools first and then in the events themselves.
-/

namespace LifePath

/-- The events that can happen at one age. -/
structure AgePool where
  age : Int
  references : List Reference
deriving Repr, DecidableEq

/-- Events with different ids. -/
structure EventCatalog where
  events : List Event
  distinct : (events.map (·.id)).Nodup

namespace EventCatalog

/-- The first event whose id is among the ids seen before it. -/
def firstFault? (seen : List String) : List Event → Option CatalogFault
  | [] => none
  | e :: rest =>
    if e.id ∈ seen then some (.duplicateEvent e.id) else firstFault? (e.id :: seen) rest

theorem nodup_of_firstFault?_eq_none {seen : List String} {events : List Event}
    (h : firstFault? seen events = none) :
    (events.map (·.id)).Nodup ∧ ∀ e ∈ events, e.id ∉ seen := by
  induction events generalizing seen with
  | nil => simp
  | cons e rest ih =>
    unfold firstFault? at h
    split at h
    · simp at h
    · next hseen =>
      obtain ⟨hrest, hnew⟩ := ih h
      refine ⟨?_, ?_⟩
      · rw [List.map_cons, List.nodup_cons]
        refine ⟨fun hmem => ?_, hrest⟩
        obtain ⟨e', he', heq⟩ := List.mem_map.mp hmem
        exact hnew e' he' (heq ▸ List.mem_cons_self ..)
      · intro e' he'
        rcases List.mem_cons.mp he' with rfl | he'
        · exact hseen
        · exact fun hs => hnew e' he' (List.mem_cons_of_mem _ hs)

/-- The catalog of a list of events. -/
def ofList (events : List Event) : Except CatalogFault EventCatalog :=
  match h : firstFault? [] events with
  | some fault => .error fault
  | none => .ok ⟨events, (nodup_of_firstFault?_eq_none h).1⟩

/-- The event with a given id. -/
def get? (catalog : EventCatalog) (id : String) : Option Event :=
  catalog.events.find? fun e => e.id == id

/-- The number of events. -/
def size (catalog : EventCatalog) : Nat := catalog.events.length

/-- The first event, in the order in which it leads on, that an event leads to in vain. -/
def danglingSuccessor? (catalog : EventCatalog) (e : Event) : Option CatalogFault :=
  (e.successors.find? fun id => (catalog.get? id).isNone).map (.unknownFollowUp e.id ·)

end EventCatalog

/-- Pools of different ages with weights that can take part in a draw. -/
structure AgeCatalog where
  pools : List AgePool
  distinct : (pools.map (·.age)).Nodup

namespace AgeCatalog

/-- The first weight of a pool that is negative or not finite. -/
def badWeight? (pool : AgePool) : Option CatalogFault :=
  (pool.references.find? fun r => !r.hasGoodWeight).map fun r =>
    .badWeight pool.age r.event r.weight

/-- The first pool with a bad weight or an age among those seen before it. -/
def firstFault? (seen : List Int) : List AgePool → Option CatalogFault
  | [] => none
  | pool :: rest =>
    match badWeight? pool with
    | some fault => some fault
    | none =>
      if pool.age ∈ seen then some (.duplicateAge pool.age)
      else firstFault? (pool.age :: seen) rest

theorem nodup_of_firstFault?_eq_none {seen : List Int} {pools : List AgePool}
    (h : firstFault? seen pools = none) :
    (pools.map (·.age)).Nodup ∧ ∀ pool ∈ pools, pool.age ∉ seen := by
  induction pools generalizing seen with
  | nil => simp
  | cons pool rest ih =>
    unfold firstFault? at h
    split at h
    · simp at h
    · split at h
      · simp at h
      · next hseen =>
        obtain ⟨hrest, hnew⟩ := ih h
        refine ⟨?_, ?_⟩
        · rw [List.map_cons, List.nodup_cons]
          refine ⟨fun hmem => ?_, hrest⟩
          obtain ⟨p, hp, heq⟩ := List.mem_map.mp hmem
          exact hnew p hp (heq ▸ List.mem_cons_self ..)
        · intro p hp
          rcases List.mem_cons.mp hp with rfl | hp
          · exact hseen
          · exact fun hs => hnew p hp (List.mem_cons_of_mem _ hs)

/-- The catalog of a list of pools. -/
def ofList (pools : List AgePool) : Except CatalogFault AgeCatalog :=
  match h : firstFault? [] pools with
  | some fault => .error fault
  | none => .ok ⟨pools, (nodup_of_firstFault?_eq_none h).1⟩

/-- The pool of a given age. -/
def get? (catalog : AgeCatalog) (age : Int) : Option AgePool :=
  catalog.pools.find? fun pool => pool.age == age

/-- The number of pools. -/
def size (catalog : AgeCatalog) : Nat := catalog.pools.length

/-- The first reference of a pool to an event that is not in the catalog of events. -/
def danglingReference? (events : EventCatalog) (pool : AgePool) : Option CatalogFault :=
  (pool.references.find? fun r => (events.get? r.event).isNone).map fun r =>
    .unknownInPool pool.age r.event

end AgeCatalog

/-- The first reference to an event that is not in the catalog: in the pools, then among the
successors of the events. -/
def danglingReference? (events : EventCatalog) (ages : AgeCatalog) : Option CatalogFault :=
  (ages.pools.findSome? (AgeCatalog.danglingReference? events)).or
    (events.events.findSome? events.danglingSuccessor?)

end LifePath
