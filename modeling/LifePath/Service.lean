import LifePath.House
import LifePath.Tables.Cell
import LifePath.Text.Picture

/-!
# The service for a host program

A host program loads the tables once and then plays for many players. Until tables have been loaded
there is nothing to play with; tables that are refused leave the ones before in use. The games stay
when tables are exchanged.

A host program prints a year with its ids between double quotes. `Text.quoted` writes a text so that
it stays on one line and shows what it holds: the quote and the backslash get a backslash, the
common control characters their letter, and any other character that has no picture of its own is
written as its code point in hexadecimal digits.
-/

namespace LifePath.Text

/-- A character as it stands between quotes. -/
def quotedChar (c : Char) : List Char :=
  if c = '"' || c = '\\' then ['\\', c]
  else if c = '\n' then ['\\', 'n']
  else if c = '\t' then ['\\', 't']
  else if c = '\r' then ['\\', 'r']
  else if c.toNat = 0 then ['\\', '0']
  else if hasPicture c then [c]
  else ['\\', 'u', '{'] ++ Nat.toDigits 16 c.toNat ++ ['}']

/-- A text between quotes. -/
def quoted (s : String) : String :=
  String.ofList (['"'] ++ s.toList.flatMap quotedChar ++ ['"'])

/-- A list of quoted texts between brackets. -/
def quotedList (texts : List String) : String :=
  "[" ++ String.intercalate ", " (texts.map quoted) ++ "]"

end LifePath.Text

namespace LifePath

open LifePath.Decimal

/-- Why the service refuses a request. -/
inductive ServiceFault where
  /-- no tables have been loaded -/
  | notReady
  | cell (fault : CellFault)
deriving Repr, DecidableEq

namespace ServiceFault

/-- A fault of the game. -/
def game (fault : Fault) : ServiceFault := .cell (.fault fault)

/-- The words for a fault, where it has words of its own. -/
def message? : ServiceFault → Option String
  | .notReady => some "Engine not initialized. Call init_engine() first."
  | .cell (.missingKey name) => some name
  | .cell (.fault (.json _)) => none
  | .cell (.fault fault) => some fault.message
  | .cell _ => none

end ServiceFault

/-- A year as a host program prints it. -/
def Entry.summary (e : Entry) : String :=
  "TrajectoryStep(age=" ++ intText e.age ++ ", events=" ++ Text.quotedList e.eventIds
    ++ ", is_end=" ++ (if e.isEnd then "true" else "false") ++ ")"

/-- The tables in use, if any, and the games. -/
structure Service where
  runner : Option Runner
  house : House

namespace Service

/-- A service that has just been opened. -/
def opened (chance : Chance) : Service := ⟨none, .opened chance⟩

/-- Settings given as JSON, or the standard ones. -/
def readSettings : Option String → Except Fault Settings
  | none => .ok .standard
  | some text => Settings.load text

/-- Loads tables and settings. -/
def load (service : Service) (events ages : List Cell) (settings : Option String) :
    Except ServiceFault Unit × Service :=
  let tables : Except CellFault (EventCatalog × AgeCatalog × Settings) := do
    let events ← Cell.readEach Cell.readEvent events
    let pools ← Cell.readEach Cell.readPool ages
    let settings ← (readSettings settings).mapError .fault
    let events ← Cell.ofCatalog (EventCatalog.ofList events)
    let ages ← Cell.ofCatalog (AgeCatalog.ofList pools)
    pure (events, ages, settings)
  match tables with
  | .error fault => (.error (.cell fault), service)
  | .ok (events, ages, settings) =>
    match Runner.validated events ages settings service.house.scene with
    | (.error fault, scene) =>
      (.error (.game fault), { service with house := { service.house with scene } })
    | (.ok runner, scene) =>
      (.ok (), { runner := some runner, house := { service.house with scene } })

/-- Whether tables have been loaded. -/
def isReady (service : Service) : Bool := service.runner.isSome

/-- Makes a move with the tables in use. -/
def play {α : Type} (service : Service) (move : Runner → Except Fault α × House) :
    Except ServiceFault α × Service :=
  match service.runner with
  | none => (.error .notReady, service)
  | some runner =>
    let (result, house) := move runner
    (result.mapError .game, { service with house })

/-- Starts a game at the age at which games start. -/
def start (service : Service) (identity : String) : Except ServiceFault Unit × Service :=
  service.play fun runner => (.ok (), service.house.start identity runner.settings.startAge)

/-- Hands out attributes at random. -/
def allocateRandom (service : Service) (identity : String) :
    Except ServiceFault Attributes × Service :=
  service.play fun runner => service.house.allocateRandom runner identity

/-- Hands out attributes as the player wrote them. -/
def allocateManual (service : Service) (identity raw : String) :
    Except ServiceFault Attributes × Service :=
  service.play fun runner => service.house.allocateManual runner identity raw

/-- Plays one year. -/
def step (service : Service) (identity : String) : Except ServiceFault Entry × Service :=
  service.play fun runner => service.house.step runner identity

/-- Plays up to so many years. -/
def stepMany (service : Service) (identity : String) (n : Nat) :
    Except ServiceFault (List Entry) × Service :=
  service.play fun runner => service.house.stepMany runner identity n

/-- Ends a game, with or without tables. -/
def finish (service : Service) (identity : String) : Bool × Service :=
  let (existed, house) := service.house.finish identity
  (existed, { service with house })

/-- Removes idle games; without a number of seconds, after the time that the settings give. -/
def evictIdle (service : Service) (seconds : Option Nat) : Except ServiceFault Nat × Service :=
  match seconds with
  | some seconds =>
    let (evicted, house) := service.house.evictIdle seconds []
    (.ok evicted, { service with house })
  | none =>
    service.play fun runner =>
      let (evicted, house) := service.house.evictIdle runner.settings.idleTimeout []
      (.ok evicted, house)

end Service

end LifePath
