import LifePath.Condition.Evaluation

/-!
# A cache of condition readings

The cache remembers the reading of every text it was asked for since it was last cleared. A
`Reading` carries a number that tells readings apart which were made at different times: two
requests for one text get the reading of the same number as long as nothing clears the cache in
between.

A request is a look at the entries and, if that finds nothing, a new reading that is stored unless
the text has got an entry meanwhile. The two steps, `lookup?` and `store`, are separate so that
requests of several callers can be interleaved.
-/

namespace LifePath

/-- A condition as it was read at one time. -/
structure Reading where
  number : Nat
  condition : Condition
deriving Repr, BEq

/-- Readings by text, and the number of the next reading. -/
structure Cache where
  entries : List (String × Reading)
  nextNumber : Nat
deriving Repr

namespace Cache

/-- A cache that remembers nothing. -/
def empty : Cache := ⟨[], 0⟩

/-- The number of texts remembered. -/
def size (cache : Cache) : Nat := cache.entries.length

/-- The reading remembered for a text. -/
def lookup? (cache : Cache) (text : String) : Option Reading := cache.entries.lookup text

/-- Reads a text anew. -/
def makeReading (cache : Cache) (text : String) : Reading × Cache :=
  (⟨cache.nextNumber, Condition.read text⟩, { cache with nextNumber := cache.nextNumber + 1 })

/-- Remembers a reading, unless one is remembered for the text already. -/
def store (cache : Cache) (text : String) (reading : Reading) : Cache :=
  match cache.lookup? text with
  | some _ => cache
  | none => { cache with entries := (text, reading) :: cache.entries }

/-- The reading of a text, remembered or new. -/
def fetch (cache : Cache) (text : String) : Reading × Cache :=
  match cache.lookup? text with
  | some reading => (reading, cache)
  | none =>
    let (reading, cache) := cache.makeReading text
    (reading, cache.store text reading)

/-- Evaluates a condition given as text by way of the cache. -/
def check (cache : Cache) (source : Source) (text : String) :
    Except ConditionFault Bool × Cache :=
  let (reading, cache) := cache.fetch text
  ((reading.condition.evaluate source).outcome, cache)

/-- Forgets all readings. Numbers are not used again. -/
def clear (cache : Cache) : Cache := { cache with entries := [] }

end Cache

end LifePath
