import LifePath.Attribute.Allocation
import LifePath.Session.Basic
import LifePath.Story.Entry
import LifePath.Story.Selection

/-!
# Living a life

A runner has the tables and the settings, and plays sessions with them. A year draws an event,
follows it from event to event, adds up the changes and the years that pass, and tells what
happened in an entry. Each event decides what follows it before its own changes apply: its branches
are tried in order, the first that is open is taken and the ones after it are not looked at, and if
none is open, the event that follows anyway is taken, if there is one.

`Runner.step` plays one year and `Runner.stepMany` up to so many, until the game ends. Every move
gives the session back, whether it succeeds or not, and writes it only when everything has
succeeded.
-/

namespace LifePath

open LifePath.Decimal

/-! ## What follows on an event -/

/-- The event of the first open branch, or else `next`. -/
def firstOpen (source : Source) (next : Option String) :
    List Branch → Except ConditionFault (Option String)
  | [] => .ok next
  | b :: rest =>
    match holdsOr source true b.condition with
    | .error fault => .error fault
    | .ok true => .ok (some b.event)
    | .ok false => firstOpen source next rest

/-- The event that follows on an event. -/
def Event.followUp (source : Source) (e : Event) : Except ConditionFault (Option String) :=
  firstOpen source e.next e.branches

/-- Tells what follows on an event, if anything does. -/
def tellFollowUp (event : String) (next : Option String) (scene : Scene) : Scene :=
  match next with
  | none => scene
  | some next => scene.tell (.followUpResolved event next)

/-! ## Runners -/

/-- Tables and settings to play with. -/
structure Runner where
  events : EventCatalog
  ages : AgeCatalog
  settings : Settings

/-- The events of a year from one event to the end of its chain. -/
structure Chain where
  happenings : List Happening
  /-- the years that pass -/
  years : Int
  /-- the attributes afterwards -/
  attributes : Attributes
deriving Repr, DecidableEq

/-- A year that has been lived. -/
structure Year where
  /-- the age afterwards -/
  age : Int
  /-- the attributes afterwards -/
  attributes : Attributes
  entry : Entry
deriving Repr, DecidableEq

/-- A sum of years, or the greatest 32-bit integer if it is beyond that. -/
def addYears (a b : Int) : Int := min (a + b) maxInt32

/-- The years that an event takes: as many as it says, but none if it says a negative number. One
that says nothing takes a year if it was drawn and no time if it followed. -/
def Effect.years (e : Effect) (drawn : Bool) : Int :=
  max (e.age.getD (if drawn then 1 else 0)) 0

namespace Runner

/-- A runner whose settings are fit for use and whose tables hold all the events they refer to. -/
def validated (events : EventCatalog) (ages : AgeCatalog) (settings : Settings) (scene : Scene) :
    Except Fault Runner × Scene :=
  match settings.fault? with
  | some fault => (.error (.settings fault), scene)
  | none =>
    match danglingReference? events ages with
    | some fault => (.error (.catalog fault), scene)
    | none => (.ok ⟨events, ages, settings⟩, scene.tell (.runnerReady events.size ages.size))

/-- Whether a game at an age and with these attributes is over. -/
def isOver (r : Runner) (age : Int) (a : Attributes) : Bool := r.settings.isOver age a.lif

/-! ## Handing out attributes -/

/-- Puts attributes into a session that waits for them. -/
def commitAllocation (s : Session) (a : Attributes) (scene : Scene) : Session × Scene :=
  ({ s with attributes := some a, status := .active },
    scene.tell (.allocated s.identity a.numbers))

/-- Hands out attributes at random. -/
def allocateRandom (r : Runner) (s : Session) (scene : Scene) :
    Except Fault Attributes × Session × Scene :=
  if s.attributes.isSome then (.error .alreadyAllocated, s, scene)
  else
    let (a, chance) := Attributes.random r.settings scene.chance
    (.ok a, commitAllocation s a { scene with chance })

/-- Hands out attributes as a player wrote them. -/
def allocateManual (r : Runner) (raw : String) (s : Session) (scene : Scene) :
    Except Fault Attributes × Session × Scene :=
  if s.attributes.isSome then (.error .alreadyAllocated, s, scene)
  else match Attributes.manual r.settings raw with
    | .error fault => (.error (.allocation fault), s, scene)
    | .ok a => (.ok a, commitAllocation s a scene)

/-! ## A year -/

/-- Lets an event happen and then those that follow on it, at most `left` events in all. The event
that was drawn has been recorded already; the ones that follow are recorded here. -/
def resolve (r : Runner) (age : Int) :
    (left : Nat) → (drawn : Bool) → String → Attributes → Scene → Except Fault Chain × Scene
  | 0, _, id, _, scene => (.error (.chainTooDeep id), scene)
  | left + 1, drawn, id, a, scene =>
    match r.events.get? id with
    | none => (.error (.eventNotFound id), scene)
    | some e =>
      let a := if drawn then a else a.record id
      match e.followUp (a.sourceAt age) with
      | .error fault => (.error (.condition fault), scene)
      | .ok next =>
        let scene := tellFollowUp e.id next scene
        let a := a.apply e.effect
        let years := e.effect.years drawn
        match next with
        | none => (.ok ⟨[e.happening], addYears 0 years, a⟩, scene)
        | some next =>
          match r.resolve age left false next a scene with
          | (.error fault, scene) => (.error fault, scene)
          | (.ok chain, scene) =>
            (.ok ⟨e.happening :: chain.happenings, addYears years chain.years, chain.attributes⟩,
              scene)

/-- The year in which a chain of events has happened. -/
def finishYear (r : Runner) (age : Int) (chain : Chain) : Year :=
  let after := addYears age chain.years
  ⟨after, chain.attributes,
    ⟨age, chain.happenings, chain.attributes.numbers, r.isOver after chain.attributes⟩⟩

/-- Lives a year. A game that is over already gets an entry without events. -/
def advance (r : Runner) (age : Int) (a : Attributes) (scene : Scene) :
    Except Fault Year × Scene :=
  if r.isOver age a then (.ok ⟨age, a, ⟨age, [], a.numbers, true⟩⟩, scene)
  else
    match selectEvent r.events r.ages age a scene with
    | (.ok id, a, scene) =>
      match r.resolve age (r.settings.maxChain + 1) true id a scene with
      | (.error fault, scene) => (.error fault, scene)
      | (.ok chain, scene) => (.ok (r.finishYear age chain), scene)
    | (.error fault, a, scene) =>
      match fault, r.settings.emptyPool with
      | .noCandidates _, .advanceAge =>
        (.ok (r.finishYear age ⟨[], 1, a⟩), scene.tell (.yearPasses age))
      | _, _ => (.error fault, scene)

/-- Lives years until the game ends, at most so many. -/
def advanceMany (r : Runner) :
    Nat → Int → Attributes → Scene → Except Fault (List Entry × Int × Attributes) × Scene
  | 0, age, a, scene => (.ok ([], age, a), scene)
  | n + 1, age, a, scene =>
    match r.advance age a scene with
    | (.error fault, scene) => (.error fault, scene)
    | (.ok year, scene) =>
      if year.entry.isEnd then (.ok ([year.entry], year.age, year.attributes), scene)
      else
        match r.advanceMany n year.age year.attributes scene with
        | (.error fault, scene) => (.error fault, scene)
        | (.ok (entries, age, a), scene) => (.ok (year.entry :: entries, age, a), scene)

/-! ## Moves of a session -/

/-- The attributes of a game that is under way. -/
def activeAttributes (s : Session) : Except Fault Attributes :=
  match s.status, s.attributes with
  | .ended, _ => .error .alreadyEnded
  | .active, some a => .ok a
  | _, _ => .error .notAllocated

/-- Writes the outcome of a move whose last entry is `last` into a session. -/
def commitStep (s : Session) (age : Int) (a : Attributes) (last : Entry) (scene : Scene) :
    Session × Scene :=
  if last.isEnd then
    ({ s with age, attributes := some a, status := .ended },
      scene.tell (.gameEnded s.identity age))
  else ({ s with age, attributes := some a }, scene)

/-- Plays one year. -/
def step (r : Runner) (s : Session) (scene : Scene) : Except Fault Entry × Session × Scene :=
  match activeAttributes s with
  | .error fault => (.error fault, s, scene)
  | .ok a =>
    match r.advance s.age a scene with
    | (.error fault, scene) => (.error fault, s, scene)
    | (.ok year, scene) =>
      (.ok year.entry, commitStep s year.age year.attributes year.entry scene)

/-- Plays up to so many years, and none if one of them fails. -/
def stepMany (r : Runner) (n : Nat) (s : Session) (scene : Scene) :
    Except Fault (List Entry) × Session × Scene :=
  match activeAttributes s with
  | .error fault => (.error fault, s, scene)
  | .ok a =>
    match r.advanceMany n s.age a scene with
    | (.error fault, scene) => (.error fault, s, scene)
    | (.ok (entries, age, a), scene) =>
      match entries.getLast? with
      | none => (.ok [], s, scene)
      | some last => (.ok entries, commitStep s age a last scene)

end Runner

end LifePath
