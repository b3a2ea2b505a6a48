import LifePath.Catalog.Basic
import LifePath.Chance.Weighted
import LifePath.Fault
import LifePath.Story.Notice

/-!
# Drawing the event of a year

An event can be drawn if it is not one that only follows others, its exclusion does not hold, and
its inclusion, if it has one, holds. The pool of an age is gone through in order; the first
reference to a missing event and the first condition that cannot be decided end the search. One of
the candidates is then drawn by weight, with one word of chance, and recorded.
-/

namespace LifePath

/-- Whether an optional condition holds; `absent` is the answer if there is none. -/
def holdsOr (source : Source) (absent : Bool) : Option String → Except ConditionFault Bool
  | none => .ok absent
  | some text => checkCondition source text

/-- Whether an event can be drawn. -/
def Event.isEligible (source : Source) (e : Event) : Except ConditionFault Bool :=
  if e.onlyFollows then .ok false
  else match holdsOr source false e.excludeIf with
    | .error fault => .error fault
    | .ok true => .ok false
    | .ok false => holdsOr source true e.includeIf

/-- Why a pool has no list of candidates. -/
inductive PoolFault where
  | missingEvent (id : String)
  | failedCondition (event : String) (fault : ConditionFault)
deriving Repr, DecidableEq

/-- The fault that ends the year. -/
def PoolFault.toFault : PoolFault → Fault
  | .missingEvent id => .eventNotFound id
  | .failedCondition _ fault => .condition fault

/-- A condition that cannot be decided is worth a notice. -/
def PoolFault.tell (fault : PoolFault) (scene : Scene) : Scene :=
  match fault with
  | .missingEvent _ => scene
  | .failedCondition event fault => scene.tell (.conditionFailed event fault)

/-- The references of a pool whose events can be drawn, in order. -/
def candidates (events : EventCatalog) (source : Source) :
    List Reference → Except PoolFault (List Reference)
  | [] => .ok []
  | r :: rest =>
    match events.get? r.event with
    | none => .error (.missingEvent r.event)
    | some e =>
      match e.isEligible source with
      | .error fault => .error (.failedCondition e.id fault)
      | .ok eligible =>
        match candidates events source rest with
        | .error fault => .error fault
        | .ok others => .ok (if eligible then r :: others else others)

/-- The items that references put into a draw. -/
def drawItems (references : List Reference) : List (String × Float) :=
  references.map fun r => (r.event, r.weight)

/-- Draws the event of a year and records it. The attributes come back in any case, with the event
in their history if one was drawn. -/
def selectEvent (events : EventCatalog) (ages : AgeCatalog) (age : Int) (a : Attributes)
    (scene : Scene) : Except Fault String × Attributes × Scene :=
  match ages.get? age with
  | none => (.error (.ageNotFound age), a, scene)
  | some pool =>
    match candidates events (a.sourceAt age) pool.references with
    | .error fault => (.error fault.toFault, a, fault.tell scene)
    | .ok references =>
      match Chance.weighted? (drawItems references) scene.chance with
      | (none, chance) => (.error (.noCandidates age), a, { scene with chance })
      | (some id, chance) =>
        (.ok id, a.record id,
          { scene with chance }.tell (.eventSelected age id references.length))

end LifePath
