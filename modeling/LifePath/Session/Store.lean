import LifePath.Fault
import LifePath.Session.Basic

/-!
# The store of sessions

The store has at most one live session for each identity. Starting a game replaces the session of
its identity; ending it and evicting it remove the session. Whatever is done with a session counts
as activity, whether it succeeds or not; looking one up does not.

These are the operations one after the other. How they are carried out when several callers
interleave is the matter of `LifePath.Session.Interleaving`.
-/

namespace LifePath

/-- Sessions by identity. -/
structure Store where
  entries : List (String × Session)
  distinct : (entries.map Prod.fst).Nodup

namespace Store

/-- The store without sessions. -/
def empty : Store := ⟨[], by simp⟩

/-- The number of sessions. -/
def size (store : Store) : Nat := store.entries.length

/-- The live session of an identity. -/
def find? (store : Store) (identity : String) : Option Session := store.entries.lookup identity

/-- The store with the entries that pass a test. -/
def keep (store : Store) (test : String × Session → Bool) : Store :=
  ⟨store.entries.filter test, store.distinct.sublist (List.filter_sublist.map Prod.fst)⟩

/-- The store without the session of an identity. -/
def remove (store : Store) (identity : String) : Store :=
  store.keep fun entry => entry.1 != identity

theorem not_mem_remove (store : Store) (identity : String) :
    identity ∉ (store.remove identity).entries.map Prod.fst := by
  simp [remove, keep]

/-- The store with a session as the only one of its identity. -/
def put (store : Store) (identity : String) (s : Session) : Store :=
  ⟨(identity, s) :: (store.remove identity).entries, by
    rw [List.map_cons, List.nodup_cons]
    exact ⟨store.not_mem_remove identity, (store.remove identity).distinct⟩⟩

theorem find?_remove_of_ne (store : Store) {identity other : String} (h : other ≠ identity) :
    (store.remove identity).find? other = store.find? other := by
  have hkeep : ∀ entries : List (String × Session),
      (entries.filter fun entry => entry.1 != identity).lookup other = entries.lookup other := by
    intro entries
    induction entries with
    | nil => rfl
    | cons entry rest ih =>
      obtain ⟨id, s⟩ := entry
      rw [List.filter_cons, List.lookup_cons]
      by_cases hid : id = identity
      · subst hid
        have hother : (other == id) = false := by simpa using h
        simp [ih, hother]
      · simp [hid, List.lookup_cons, ih]
  exact hkeep store.entries

@[simp] theorem find?_put_self (store : Store) (identity : String) (s : Session) :
    (store.put identity s).find? identity = some s := by
  simp [put, find?]

theorem find?_put_of_ne (store : Store) {identity other : String} (h : other ≠ identity)
    (s : Session) : (store.put identity s).find? other = store.find? other := by
  have hother : (other == identity) = false := by simpa using h
  rw [← store.find?_remove_of_ne h]
  simp [put, find?, List.lookup_cons, hother]

/-- Starts a game at an age; also whether it replaces another. -/
def start (store : Store) (identity : String) (startAge now : Int) : Bool × Store :=
  ((store.find? identity).isSome,
    store.put identity ((Session.create identity now).beginAt startAge now))

/-- Does something with the live session of an identity. -/
def withSession {α : Type} (store : Store) (identity : String) (now : Int)
    (act : Session → α × Session) : Except Fault α × Store :=
  match store.find? identity with
  | none => (.error (.sessionNotFound identity), store)
  | some s =>
    let (a, s) := act (s.touch now)
    (.ok a, store.put identity s)

/-- Ends the game of an identity; also whether there was one. -/
def finish (store : Store) (identity : String) : Bool × Store :=
  ((store.find? identity).isSome, store.remove identity)

/-- Whether a session has been idle for longer than the timeout. -/
def isStale (timeout now : Int) (s : Session) : Bool := timeout < s.idleFor now

/-- Removes the sessions that have been idle for longer than the timeout, unless somebody is at
work on them; also how many they were. -/
def evictIdle (store : Store) (timeout now : Int) (busy : List String) : Nat × Store :=
  let kept := store.keep fun (identity, s) => busy.contains identity || !isStale timeout now s
  (store.size - kept.size, kept)

end Store

end LifePath
