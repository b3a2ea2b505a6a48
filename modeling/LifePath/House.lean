import LifePath.Session.Store
import LifePath.Story.Runner

/-!
# The house

The house is where the games of all players are played: the store of their sessions, the scene and
a clock that goes on by one with every move. The tables to play with are given with each move, for
they can be exchanged while games are under way.
-/

namespace LifePath

/-- The games of all players. -/
structure House where
  store : Store
  scene : Scene
  clock : Int

namespace House

/-- A house without games. -/
def opened (chance : Chance) : House := ⟨.empty, ⟨chance, #[]⟩, 0⟩

/-- Lets the clock go on. -/
def tick (h : House) : House := { h with clock := h.clock + 1 }

/-- Starts the game of an identity at an age. -/
def start (h : House) (identity : String) (startAge : Int) : House :=
  let h := h.tick
  let (replaced, store) := h.store.start identity startAge h.clock
  { h with store, scene := h.scene.tell (.gameStarted identity startAge replaced) }

/-- Makes a move in the game of an identity. The store keeps whatever session the move gives back,
also if it fails. -/
def move {α : Type} (h : House) (identity : String)
    (act : Session → Scene → Except Fault α × Session × Scene) : Except Fault α × House :=
  let h := h.tick
  let result := h.store.withSession identity h.clock fun s =>
    let (outcome, s, scene) := act s h.scene
    ((outcome, scene), s)
  match result with
  | (.error fault, store) => (.error fault, { h with store })
  | (.ok (outcome, scene), store) => (outcome, { h with store, scene })

/-- Hands out attributes at random. -/
def allocateRandom (h : House) (r : Runner) (identity : String) : Except Fault Attributes × House :=
  h.move identity r.allocateRandom

/-- Hands out attributes as the player wrote them. -/
def allocateManual (h : House) (r : Runner) (identity raw : String) :
    Except Fault Attributes × House :=
  h.move identity (r.allocateManual raw)

/-- Plays one year. -/
def step (h : House) (r : Runner) (identity : String) : Except Fault Entry × House :=
  h.move identity r.step

/-- Plays up to so many years. -/
def stepMany (h : House) (r : Runner) (identity : String) (n : Nat) :
    Except Fault (List Entry) × House :=
  h.move identity (r.stepMany n)

/-- Ends the game of an identity; also whether there was one. -/
def finish (h : House) (identity : String) : Bool × House :=
  let h := h.tick
  let (existed, store) := h.store.finish identity
  (existed,
    { h with store, scene := if existed then h.scene.tell (.gameRemoved identity) else h.scene })

/-- Removes the games that have been idle for longer than so many seconds, unless somebody is at
work on them; also how many they were. -/
def evictIdle (h : House) (seconds : Nat) (busy : List String) : Nat × House :=
  let h := h.tick
  let (evicted, store) := h.store.evictIdle (second * seconds) h.clock busy
  (evicted,
    { h with
      store
      scene := if evicted = 0 then h.scene else h.scene.tell (.idleEvicted evicted store.size) })

end House

end LifePath
