import LifePath.Session.Store

/-!
# Callers that share a store

Several callers use one store at the same time. Each session has a slot of its own, and the store
knows under which slot the live session of an identity stands. A caller who wants to use a session
goes through four steps, and other callers may take steps of theirs between any two of them:

* it looks the identity up and learns the slot;
* it waits until nobody holds the slot, and then holds it;
* it looks again whether the slot is still the live one, and if not, lets it go and starts over;
* it does its work on the session, lets the slot go and has its answer.

Starting, finishing and evicting are one step each. A session that was replaced or removed keeps
its slot, for a caller may still be waiting for it. Nobody but a caller who holds the slot changes a
session, and a slot that is held is not evicted.
-/

namespace LifePath

/-- What a caller wants. -/
inductive Request (α : Type) where
  /-- to do something with the session of an identity -/
  | use (identity : String) (act : Session → α × Session)
  | start (identity : String) (startAge : Int)
  | finish (identity : String)
  | evict (timeout : Int)

/-- How far a caller has come. -/
inductive Phase (α : Type) where
  /-- about to look the identity up -/
  | looking
  /-- knows the slot and waits for it -/
  | waiting (slot : Nat)
  /-- holds the slot and is about to look whether it is still live -/
  | checking (slot : Nat)
  /-- holds the slot and is at work on a live session -/
  | working (slot : Nat)
  /-- has the answer -/
  | answered (result : Except Fault α)
  /-- has started, finished or evicted -/
  | served

/-- The slot that is held in a phase. -/
def Phase.held? {α : Type} : Phase α → Option Nat
  | .checking slot => some slot
  | .working slot => some slot
  | _ => none

/-- A caller. -/
structure Caller (α : Type) where
  request : Request α
  phase : Phase α

/-- A store and the callers who share it. -/
structure Traffic (α : Type) where
  /-- the slot of the live session of each identity -/
  live : List (String × Nat)
  /-- the sessions by slot -/
  sessions : List Session
  callers : List (Caller α)

namespace Traffic

variable {α : Type}

/-- Whether a caller holds the slot. -/
def isHeld (t : Traffic α) (slot : Nat) : Bool :=
  t.callers.any fun c => c.phase.held? == some slot

/-- Brings a caller into a phase. -/
def moveTo (t : Traffic α) (i : Nat) (phase : Phase α) : Traffic α :=
  { t with callers := t.callers.modify i fun c => { c with phase } }

/-- Whether the session in a slot may be evicted. -/
def isEvictable (t : Traffic α) (timeout now : Int) (slot : Nat) : Bool :=
  !t.isHeld slot && t.sessions[slot]?.any (Store.isStale timeout now)

/-- The next step of a caller at a time; none if the caller has to wait or has nothing left to
do. -/
def step? (now : Int) (t : Traffic α) (i : Nat) : Option (Traffic α) := do
  let caller ← t.callers[i]?
  match caller.request, caller.phase with
  | .use identity _, .looking =>
    match t.live.lookup identity with
    | none => some (t.moveTo i (.answered (.error (.sessionNotFound identity))))
    | some slot => some (t.moveTo i (.waiting slot))
  | .use _ _, .waiting slot => if t.isHeld slot then none else some (t.moveTo i (.checking slot))
  | .use identity _, .checking slot =>
    if t.live.lookup identity = some slot then some (t.moveTo i (.working slot))
    else some (t.moveTo i .looking)
  | .use _ act, .working slot =>
    let s ← t.sessions[slot]?
    let (a, s) := act (s.touch now)
    some ({ t with sessions := t.sessions.set slot s }.moveTo i (.answered (.ok a)))
  | .start identity startAge, .looking =>
    let s := (Session.create identity now).beginAt startAge now
    let live := (identity, t.sessions.length) :: t.live.filter fun entry => entry.1 != identity
    some ({ t with live, sessions := t.sessions ++ [s] }.moveTo i .served)
  | .finish identity, .looking =>
    let live := t.live.filter fun entry => entry.1 != identity
    some ({ t with live }.moveTo i .served)
  | .evict timeout, .looking =>
    let live := t.live.filter fun entry => !t.isEvictable timeout now entry.2
    some ({ t with live }.moveTo i .served)
  | _, _ => none

/-- Lets callers take steps in the given order; one who has to wait is passed over. -/
def run (now : Int) : Traffic α → List Nat → Traffic α
  | t, [] => t
  | t, i :: rest => run now ((t.step? now i).getD t) rest

/-- The callers at their beginning before a store whose sessions stand in slots in order. -/
def ofStore (store : Store) (requests : List (Request α)) : Traffic α where
  live := (store.entries.map Prod.fst).zipIdx
  sessions := store.entries.map Prod.snd
  callers := requests.map fun request => ⟨request, .looking⟩

/-- The live sessions. -/
def liveEntries (t : Traffic α) : List (String × Session) :=
  t.live.filterMap fun (identity, slot) => t.sessions[slot]?.map fun s => (identity, s)

/-- The answer of a caller who has it. -/
def answer? (t : Traffic α) (i : Nat) : Option (Except Fault α) :=
  match t.callers[i]? with
  | some ⟨_, .answered result⟩ => some result
  | _ => none

end Traffic

/-- A store with the given entries, the first of each identity. -/
def Store.ofEntries : List (String × Session) → Store
  | [] => .empty
  | (identity, s) :: rest => (Store.ofEntries rest).put identity s

/-- One caller holds the session of an identity, a second waits for it, a third makes its request,
and only then does the first let go. -/
structure Contention where
  /-- the answer of the caller who waited -/
  answer : Except Fault Int
  /-- the age of the session that the first caller held -/
  heldAge : Int
  /-- the store afterwards -/
  store : Store

/-- Lets a second caller wait for a held session while a third makes a request. -/
def Store.contend (store : Store) (identity : String) (now : Int)
    (act : Session → Int × Session) (rival : Option (Request Int)) :
    Except Fault Contention :=
  match store.entries.findIdx? fun entry => entry.1 == identity with
  | none => .error (.sessionNotFound identity)
  | some slot =>
    let requests := [.use identity fun s => (s.age, s), .use identity act] ++ rival.toList
    let t := (Traffic.ofStore store requests).run now [0, 0, 0, 1, 1, 2, 0, 1, 1, 1, 1, 1, 1]
    .ok
      { answer := (t.answer? 1).getD (.error (.sessionNotFound identity))
        heldAge := (t.sessions[slot]?.map (·.age)).getD 0
        store := .ofEntries t.liveEntries }

end LifePath
