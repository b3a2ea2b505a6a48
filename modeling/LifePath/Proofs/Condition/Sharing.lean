import LifePath.Condition.Cache
import LifePath.Proofs.Lookup
import Mathlib.Data.List.Dedup
import Mathlib.Data.List.Induction

/-!
# The cache does not show

Several callers use one cache at the same time. A caller who wants a condition checked looks its
text up; if that finds nothing, it reads the text by itself, stores the reading and goes on with its
own reading, whatever the cache holds by then. Others may store a reading of the same text or clear
the cache between any two of its steps (`Desk.run`).

None of it shows: every reading is one of its text (`Faithful`), so every caller has the verdict of
the condition after four steps of its own. What does show is when two readings are the same one and
how many there are. For calls one after the other, a history of `Call`s tells both.
-/

namespace LifePath

/-- What a caller wants of the cache. -/
inductive Query where
  /-- to have a condition given as text checked -/
  | check (text : String) (source : Source)
  | clear

/-- How far a caller has come. -/
inductive Stage where
  | asking
  /-- has found nothing and is about to read the text -/
  | missed
  /-- has a reading of its own and is about to store it -/
  | storing (reading : Reading)
  /-- has a reading and is about to evaluate it -/
  | evaluating (reading : Reading)
  | answered (verdict : Verdict)
  | cleared

/-- How many steps a caller has left at most. -/
def Stage.left : Stage → Nat
  | .asking => 4
  | .missed => 3
  | .storing _ => 2
  | .evaluating _ => 1
  | .answered _ => 0
  | .cleared => 0

/-- Whether what a caller has in hand is what its text stands for. -/
def Query.Suits : Query → Stage → Prop
  | .check _ _, .asking => True
  | .check _ _, .missed => True
  | .check text _, .storing reading => reading.condition = Condition.read text
  | .check text _, .evaluating reading => reading.condition = Condition.read text
  | .check text source, .answered verdict => verdict = (Condition.read text).evaluate source
  | .clear, .asking => True
  | .clear, .cleared => True
  | _, _ => False

namespace Cache

variable {cache : Cache} {text other : String} {reading : Reading}

/-- The next step of a caller. -/
def turn (cache : Cache) : Query → Stage → Stage × Cache
  | .check text _, .asking =>
    match cache.lookup? text with
    | some reading => (.evaluating reading, cache)
    | none => (.missed, cache)
  | .check text _, .missed =>
    let (reading, cache) := cache.makeReading text
    (.storing reading, cache)
  | .check text _, .storing reading => (.evaluating reading, cache.store text reading)
  | .check _ source, .evaluating reading =>
    (.answered (reading.condition.evaluate source), cache)
  | .clear, .asking => (.cleared, cache.clear)
  | _, stage => (stage, cache)

variable {query : Query} {stage : Stage} {source : Source}

theorem turn_found (h : cache.lookup? text = some reading) :
    cache.turn (.check text source) .asking = (.evaluating reading, cache) := by
  simp only [turn, h]

theorem turn_missed (h : cache.lookup? text = none) :
    cache.turn (.check text source) .asking = (.missed, cache) := by
  simp only [turn, h]

/-- Every reading is one of its text. -/
def Faithful (cache : Cache) : Prop :=
  ∀ entry ∈ cache.entries, entry.2.condition = Condition.read entry.1

theorem Faithful.empty : Faithful .empty := by
  intro entry hmem
  cases hmem

theorem Faithful.lookup? (h : cache.Faithful) (hlookup : cache.lookup? text = some reading) :
    reading.condition = Condition.read text :=
  h _ (mem_of_lookup hlookup)

theorem Faithful.store (h : cache.Faithful) (hreading : reading.condition = Condition.read text) :
    (cache.store text reading).Faithful := by
  unfold Cache.store
  split
  · exact h
  · intro entry hmem
    rcases List.mem_cons.mp hmem with rfl | hmem
    · exact hreading
    · exact h entry hmem

theorem Faithful.clear (cache : Cache) : cache.clear.Faithful := by
  intro entry hmem
  cases hmem

/-- A step keeps the readings true to their texts, and so what the caller has in hand. -/
theorem Faithful.turn (h : cache.Faithful) (hsuits : query.Suits stage) :
    (cache.turn query stage).2.Faithful ∧ query.Suits (cache.turn query stage).1 := by
  cases query with
  | check text source =>
    cases stage with
    | asking =>
      cases hlookup : cache.lookup? text with
      | some reading =>
        rw [turn_found hlookup]
        exact ⟨h, h.lookup? hlookup⟩
      | none =>
        rw [turn_missed hlookup]
        exact ⟨h, trivial⟩
    | missed => exact ⟨h, rfl⟩
    | storing reading => exact ⟨h.store hsuits, hsuits⟩
    | evaluating reading => exact ⟨h, congrArg (Condition.evaluate source) hsuits⟩
    | answered verdict => exact ⟨h, hsuits⟩
    | cleared => exact hsuits.elim
  | clear =>
    cases stage with
    | asking => exact ⟨.clear cache, trivial⟩
    | cleared => exact ⟨h, trivial⟩
    | _ => exact hsuits.elim

/-- Nobody has to wait. -/
theorem left_turn_le (cache : Cache) (hsuits : query.Suits stage) :
    (cache.turn query stage).1.left ≤ stage.left - 1 := by
  cases query with
  | check text source =>
    cases stage with
    | asking =>
      cases hlookup : cache.lookup? text with
      | some reading => simp [turn_found hlookup, Stage.left]
      | none => simp [turn_missed hlookup, Stage.left]
    | cleared => exact hsuits.elim
    | _ => simp [turn, makeReading, Stage.left]
  | clear =>
    cases stage with
    | asking => simp [turn, Stage.left]
    | cleared => simp [turn, Stage.left]
    | _ => exact hsuits.elim

end Cache

/-! ## Callers who share a cache -/

/-- A cache and the callers who share it. -/
structure Desk where
  cache : Cache
  callers : List (Query × Stage)

namespace Desk

variable {desk : Desk} {i : Nat} {query : Query} {stage : Stage}

/-- Lets a caller take its next step. -/
def step (desk : Desk) (i : Nat) : Desk :=
  match desk.callers[i]? with
  | none => desk
  | some (query, stage) =>
    let (stage, cache) := desk.cache.turn query stage
    ⟨cache, desk.callers.set i (query, stage)⟩

/-- Lets callers take steps in the given order. -/
def run (desk : Desk) (order : List Nat) : Desk := order.foldl step desk

/-- Callers at their beginning before an empty cache. -/
def ofQueries (queries : List Query) : Desk := ⟨.empty, queries.map fun query => (query, .asking)⟩

/-- What holds of a cache and its callers however they have got there. -/
structure Sound (desk : Desk) : Prop where
  faithful : desk.cache.Faithful
  suits : ∀ (i : Nat) (query : Query) (stage : Stage),
    desk.callers[i]? = some (query, stage) → query.Suits stage

theorem Sound.ofQueries (queries : List Query) : Sound (.ofQueries queries) := by
  refine ⟨.empty, ?_⟩
  intro i query stage h
  simp only [Desk.ofQueries, List.getElem?_map, Option.map_eq_some_iff, Prod.mk.injEq] at h
  obtain ⟨query, -, rfl, rfl⟩ := h
  cases query <;> trivial

theorem step_of_caller (h : desk.callers[i]? = some (query, stage)) :
    desk.step i = ⟨(desk.cache.turn query stage).2,
      desk.callers.set i (query, (desk.cache.turn query stage).1)⟩ := by
  simp only [step, h]

theorem step_of_none (h : desk.callers[i]? = none) : desk.step i = desk := by
  simp only [step, h]

/-- Of a step of another caller, a caller learns nothing. -/
theorem getElem?_step (desk : Desk) (i j : Nat) :
    (desk.step j).callers[i]? =
      if i = j then desk.callers[i]?.map fun (query, stage) =>
        (query, (desk.cache.turn query stage).1)
      else desk.callers[i]? := by
  cases hj : desk.callers[j]? with
  | none =>
    rw [step_of_none hj]
    split
    · next hij =>
      subst hij
      simp [hj]
    · rfl
  | some caller =>
    obtain ⟨query, stage⟩ := caller
    rw [step_of_caller hj]
    split
    · next hij =>
      subst hij
      rw [List.getElem?_set_self (List.getElem?_eq_some_iff.mp hj).1, hj, Option.map_some]
    · next hij => rw [List.getElem?_set_ne (Ne.symm hij)]

theorem Sound.step (h : desk.Sound) (j : Nat) : (desk.step j).Sound := by
  constructor
  · cases hj : desk.callers[j]? with
    | none =>
      rw [step_of_none hj]
      exact h.faithful
    | some caller =>
      rw [step_of_caller hj]
      exact (h.faithful.turn (h.suits j _ _ hj)).1
  · intro i query stage hi
    rw [getElem?_step] at hi
    split at hi
    · obtain ⟨⟨query₀, stage₀⟩, hbefore, heq⟩ := Option.map_eq_some_iff.mp hi
      obtain ⟨rfl, rfl⟩ := Prod.mk.inj heq
      exact (h.faithful.turn (h.suits i _ _ hbefore)).2
    · exact h.suits i _ _ hi

theorem Sound.run (h : desk.Sound) (order : List Nat) : (desk.run order).Sound := by
  induction order generalizing desk with
  | nil => exact h
  | cons j rest ih => exact ih (h.step j)

/-- In every run a caller keeps its query and gets on with each of its steps. -/
theorem exists_stage_run (h : desk.Sound) (hi : desk.callers[i]? = some (query, stage))
    (order : List Nat) :
    ∃ stage', (desk.run order).callers[i]? = some (query, stage') ∧
      stage'.left ≤ stage.left - order.count i := by
  induction order generalizing desk stage with
  | nil => exact ⟨stage, hi, by simp⟩
  | cons j rest ih =>
    by_cases hij : i = j
    · subst hij
      have hnext : (desk.step i).callers[i]? =
          some (query, (desk.cache.turn query stage).1) := by
        simp [getElem?_step, hi]
      obtain ⟨stage', hstage', hleft⟩ := ih (h.step i) hnext
      have hturn := desk.cache.left_turn_le (h.suits i _ _ hi)
      refine ⟨stage', hstage', ?_⟩
      rw [List.count_cons_self]
      omega
    · have hnext : (desk.step j).callers[i]? = some (query, stage) := by
        rw [getElem?_step, if_neg hij, hi]
      obtain ⟨stage', hstage', hleft⟩ := ih (h.step j) hnext
      refine ⟨stage', hstage', ?_⟩
      rwa [List.count_cons_of_ne (Ne.symm hij)]

/-- A caller with all its steps in a row is the one operation of the cache. -/
theorem run_alone {text : String} {source : Source}
    (hi : desk.callers[i]? = some (.check text source, .asking)) :
    desk.run (List.replicate 4 i) = ⟨(desk.cache.fetch text).2,
      desk.callers.set i (.check text source,
        .answered ((desk.cache.fetch text).1.condition.evaluate source))⟩ := by
  have hlt : i < desk.callers.length := (List.getElem?_eq_some_iff.mp hi).1
  have hnext : ∀ (cache : Cache) (stage : Stage),
      step ⟨cache, desk.callers.set i (.check text source, stage)⟩ i =
        ⟨(cache.turn (.check text source) stage).2,
          desk.callers.set i (.check text source, (cache.turn (.check text source) stage).1)⟩ := by
    intro cache stage
    rw [step_of_caller (List.getElem?_set_self hlt), List.set_set]
  simp only [run, List.replicate, List.foldl_cons, List.foldl_nil, step_of_caller hi, hnext]
  cases hlookup : desk.cache.lookup? text with
  | some reading => simp only [Cache.fetch, hlookup, Cache.turn]
  | none => simp only [Cache.fetch, hlookup, Cache.turn]

end Desk

/-! ## Calls one after the other -/

namespace Cache

variable {cache : Cache} {text other : String} {reading : Reading} {lo : Nat}

/-- A call that is over before the next one begins. -/
inductive Call where
  | fetch (text : String)
  | check (text : String) (source : Source)
  | clear

/-- The text that a call asks for. -/
def Call.text? : Call → Option String
  | .fetch text => some text
  | .check text _ => some text
  | .clear => none

/-- The cache after a call. -/
def serve (cache : Cache) : Call → Cache
  | .fetch text => (cache.fetch text).2
  | .check text source => (cache.check source text).2
  | .clear => cache.clear

/-- The cache after calls one after the other. -/
def serveAll (cache : Cache) (calls : List Call) : Cache := calls.foldl serve cache

theorem serveAll_append (cache : Cache) (before after : List Call) :
    cache.serveAll (before ++ after) = (cache.serveAll before).serveAll after :=
  List.foldl_append

theorem serveAll_cons (cache : Cache) (call : Call) (rest : List Call) :
    cache.serveAll (call :: rest) = (cache.serve call).serveAll rest := rfl

/-- The texts that were asked for since the cache was last cleared. -/
def textsSinceClear (calls : List Call) : List String :=
  (calls.reverse.takeWhile fun call => call.text?.isSome).filterMap Call.text?

theorem serve_of_text? {call : Call} (h : call.text? = some text) (cache : Cache) :
    cache.serve call = (cache.fetch text).2 := by
  cases call with
  | fetch _ =>
    obtain rfl := Option.some.inj h
    rfl
  | check _ source =>
    obtain rfl := Option.some.inj h
    rfl
  | clear => cases h

theorem text?_eq_none {call : Call} (h : call.text? = none) : call = .clear := by
  cases call with
  | clear => rfl
  | _ => cases h

theorem fetch_of_lookup? (h : cache.lookup? text = some reading) :
    cache.fetch text = (reading, cache) := by
  simp only [fetch, h]

theorem fetch_of_none (h : cache.lookup? text = none) :
    cache.fetch text = (⟨cache.nextNumber, Condition.read text⟩,
      ⟨(text, ⟨cache.nextNumber, Condition.read text⟩) :: cache.entries,
        cache.nextNumber + 1⟩) := by
  have hstill : (cache.makeReading text).2.lookup? text = none := h
  simp only [fetch, h, store, hstill]
  rfl

/-! ### How many readings there are -/

/-- The texts that are remembered. -/
def texts (cache : Cache) : List String := cache.entries.map Prod.fst

theorem lookup?_eq_none_iff : cache.lookup? text = none ↔ text ∉ cache.texts := by
  rw [lookup?, List.lookup_eq_none_iff, texts, List.mem_map]
  constructor
  · rintro h ⟨entry, hmem, rfl⟩
    simpa using h entry hmem
  · intro h entry hmem
    rw [bne_iff_ne]
    rintro rfl
    exact h ⟨entry, hmem, rfl⟩

theorem texts_fetch (cache : Cache) (text : String) :
    (cache.fetch text).2.texts = cache.texts.insert text := by
  cases hlookup : cache.lookup? text with
  | some reading =>
    have hmem : text ∈ cache.texts := by
      by_contra hnot
      rw [lookup?_eq_none_iff.mpr hnot] at hlookup
      cases hlookup
    rw [fetch_of_lookup? hlookup, List.insert_of_mem hmem]
  | none =>
    rw [fetch_of_none hlookup, List.insert_of_not_mem (lookup?_eq_none_iff.mp hlookup)]
    rfl

theorem texts_serveAll (calls : List Call) :
    (empty.serveAll calls).texts = (textsSinceClear calls).dedup := by
  induction calls using List.reverseRecOn with
  | nil => rfl
  | append_singleton calls call ih =>
    rw [serveAll_append, serveAll_cons, textsSinceClear, List.reverse_append,
      List.reverse_singleton, List.singleton_append, List.takeWhile_cons]
    cases htext : call.text? with
    | none =>
      obtain rfl := text?_eq_none htext
      rfl
    | some text =>
      rw [serve_of_text? htext, serveAll, List.foldl_nil, texts_fetch, ih, Option.isSome_some,
        if_pos rfl, List.filterMap_cons_some htext, ← textsSinceClear]
      by_cases hmem : text ∈ textsSinceClear calls
      · rw [List.dedup_cons_of_mem hmem, List.insert_of_mem (List.mem_dedup.mpr hmem)]
      · rw [List.dedup_cons_of_notMem hmem,
          List.insert_of_not_mem (mt List.mem_dedup.mp hmem)]

/-! ### When two readings are the same one -/

/-- The readings have numbers from a first one on, and the next number is a new one. -/
structure Numbered (lo : Nat) (cache : Cache) : Prop where
  ge : ∀ entry ∈ cache.entries, lo ≤ entry.2.number
  lt : ∀ entry ∈ cache.entries, entry.2.number < cache.nextNumber
  next : lo ≤ cache.nextNumber

theorem Numbered.empty : Numbered 0 .empty := by
  constructor <;> simp [Cache.empty]

theorem Numbered.clear (cache : Cache) : Numbered cache.nextNumber cache.clear := by
  constructor <;> simp [Cache.clear]

/-- What is fetched has a number that is given out by then, and none before the first one. -/
theorem Numbered.fetch (h : Numbered lo cache) (text : String) :
    Numbered lo (cache.fetch text).2 ∧ lo ≤ (cache.fetch text).1.number ∧
      (cache.fetch text).1.number < (cache.fetch text).2.nextNumber ∧
      cache.nextNumber ≤ (cache.fetch text).2.nextNumber := by
  cases hlookup : cache.lookup? text with
  | some reading =>
    rw [fetch_of_lookup? hlookup]
    have hmem := mem_of_lookup hlookup
    exact ⟨h, h.ge _ hmem, h.lt _ hmem, Nat.le_refl _⟩
  | none =>
    rw [fetch_of_none hlookup]
    refine ⟨⟨?_, ?_, Nat.le_succ_of_le h.next⟩, h.next, Nat.lt_succ_self _, Nat.le_succ _⟩
    · intro entry hmem
      rcases List.mem_cons.mp hmem with rfl | hmem
      · exact h.next
      · exact h.ge entry hmem
    · intro entry hmem
      rcases List.mem_cons.mp hmem with rfl | hmem
      · exact Nat.lt_succ_self _
      · exact Nat.lt_succ_of_lt (h.lt entry hmem)

theorem Numbered.serve (h : Numbered lo cache) (call : Call) :
    Numbered lo (cache.serve call) ∧ cache.nextNumber ≤ (cache.serve call).nextNumber := by
  cases htext : call.text? with
  | none =>
    obtain rfl := text?_eq_none htext
    exact ⟨⟨by simp [Cache.serve, Cache.clear], by simp [Cache.serve, Cache.clear], h.next⟩,
      Nat.le_refl _⟩
  | some text =>
    rw [serve_of_text? htext]
    obtain ⟨hnumbered, -, -, hle⟩ := h.fetch text
    exact ⟨hnumbered, hle⟩

theorem Numbered.serveAll (h : Numbered lo cache) (calls : List Call) :
    Numbered lo (cache.serveAll calls) ∧
      cache.nextNumber ≤ (cache.serveAll calls).nextNumber := by
  induction calls generalizing cache with
  | nil => exact ⟨h, Nat.le_refl _⟩
  | cons call rest ih =>
    obtain ⟨hcall, hle⟩ := h.serve call
    obtain ⟨hrest, hle'⟩ := ih hcall
    exact ⟨hrest, Nat.le_trans hle hle'⟩

theorem lookup?_fetch_self (cache : Cache) (text : String) :
    (cache.fetch text).2.lookup? text = some (cache.fetch text).1 := by
  cases hlookup : cache.lookup? text with
  | some reading => rw [fetch_of_lookup? hlookup, hlookup]
  | none =>
    rw [fetch_of_none hlookup]
    exact List.lookup_cons_self

theorem lookup?_fetch_of_some (h : cache.lookup? text = some reading) (other : String) :
    (cache.fetch other).2.lookup? text = some reading := by
  cases hlookup : cache.lookup? other with
  | some _ => rw [fetch_of_lookup? hlookup, h]
  | none =>
    -- the text has a reading, so it is another one that gets its first
    have hne : (text == other) = false := by
      rw [beq_eq_false_iff_ne]
      rintro rfl
      rw [h] at hlookup
      cases hlookup
    rw [fetch_of_none hlookup, lookup?, List.lookup_cons, hne]
    exact h

/-- A reading stays until the cache is cleared. -/
theorem lookup?_serveAll (h : cache.lookup? text = some reading) {calls : List Call}
    (hclear : Call.clear ∉ calls) : (cache.serveAll calls).lookup? text = some reading := by
  induction calls generalizing cache with
  | nil => exact h
  | cons call rest ih =>
    rw [List.mem_cons, not_or] at hclear
    obtain ⟨hcall, hrest⟩ := hclear
    cases htext : call.text? with
    | none => exact absurd (text?_eq_none htext).symm hcall
    | some other =>
      refine ih ?_ hrest
      rw [serve_of_text? htext]
      exact lookup?_fetch_of_some h other

theorem fetch_number_eq_iff (h : Numbered lo cache) (text : String) (between : List Call) :
    (((cache.fetch text).2.serveAll between).fetch text).1.number = (cache.fetch text).1.number ↔
      Call.clear ∉ between := by
  constructor
  · intro heq hclear
    -- after the clear there are only newer numbers
    obtain ⟨before, after, rfl⟩ := List.append_of_mem hclear
    obtain ⟨hfetched, -, hlt, -⟩ := h.fetch text
    rw [serveAll_append, serveAll_cons] at heq
    obtain ⟨-, hle⟩ := hfetched.serveAll before
    obtain ⟨hafter, -⟩ := (Numbered.clear ((cache.fetch text).2.serveAll before)).serveAll after
    have hge := (hafter.fetch text).2.1
    rw [serve] at heq
    omega
  · intro hclear
    rw [fetch_of_lookup? (lookup?_serveAll (cache.lookup?_fetch_self text) hclear)]

end Cache

/-! ## Main statement -/

/-- What a caller who has a text checked can rely on after so many steps of its own. -/
structure Reliable (text : String) (source : Source) (steps : Nat) (stage : Stage) : Prop where
  /-- the reading that it goes on with is one of its text -/
  reading : ∀ reading, stage = .storing reading ∨ stage = .evaluating reading →
    reading.condition = Condition.read text
  /-- its verdict is that of its condition, with the fault and all that was asked for -/
  verdict : ∀ verdict, stage = .answered verdict →
    verdict = (Condition.read text).evaluate source
  /-- after three steps it has a reading at the latest -/
  hasReading : 3 ≤ steps →
    (∃ reading, stage = .evaluating reading) ∨ ∃ verdict, stage = .answered verdict
  /-- and after four its verdict -/
  hasVerdict : 4 ≤ steps → stage = .answered ((Condition.read text).evaluate source)

theorem Reliable.of_suits {text : String} {source : Source} {steps : Nat} {stage : Stage}
    (h : (Query.check text source).Suits stage) (hleft : stage.left ≤ 4 - steps) :
    Reliable text source steps stage := by
  constructor
  · rintro reading (rfl | rfl)
    · exact h
    · exact h
  · rintro verdict rfl
    exact h
  · intro hsteps
    cases stage with
    | evaluating reading => exact .inl ⟨reading, rfl⟩
    | answered verdict => exact .inr ⟨verdict, rfl⟩
    | cleared => exact h.elim
    | _ =>
      simp only [Stage.left] at hleft
      omega
  · intro hsteps
    cases stage with
    | answered verdict => exact congrArg Stage.answered h
    | cleared => exact h.elim
    | _ =>
      simp only [Stage.left] at hleft
      omega

/-- **The cache does not show.** Any number of callers share a cache that was empty at first, each
to have a condition checked or to clear the cache, and take their steps in any order:

* every reading in the cache is one of its text;
* every caller who has a text checked can rely on its reading and its verdict, whatever the others
  do;
* a caller who is not interrupted does what the operation of the cache does.

Of calls one after the other, the cache holds a reading for each text since it was last cleared, and
two calls for one text are given the same reading exactly if no clear is between them. -/
theorem cache_does_not_show (queries : List Query) (order : List Nat) :
    let desk := (Desk.ofQueries queries).run order
    (∀ entry ∈ desk.cache.entries, entry.2.condition = Condition.read entry.1) ∧
    (∀ (i : Nat) (text : String) (source : Source), queries[i]? = some (.check text source) →
      ∃ stage, desk.callers[i]? = some (.check text source, stage) ∧
        Reliable text source (order.count i) stage ∧
        (stage = .asking → ∃ verdict,
          desk.run (List.replicate 4 i) = ⟨(desk.cache.check source text).2,
            desk.callers.set i (.check text source, .answered verdict)⟩ ∧
          (desk.cache.check source text).1 = verdict.outcome)) ∧
    (∀ calls : List Cache.Call, (Cache.empty.serveAll calls).size =
      (Cache.textsSinceClear calls).dedup.length) ∧
    ∀ (before between : List Cache.Call) (text : String),
      ((Cache.empty.serveAll (before ++ .fetch text :: between)).fetch text).1.number =
          ((Cache.empty.serveAll before).fetch text).1.number ↔
        Cache.Call.clear ∉ between := by
  intro desk
  have hstart := Desk.Sound.ofQueries queries
  have hsound : desk.Sound := hstart.run order
  refine ⟨hsound.faithful, ?_, ?_, ?_⟩
  · intro i text source hquery
    have hi : (Desk.ofQueries queries).callers[i]? = some (.check text source, .asking) := by
      simp [Desk.ofQueries, hquery]
    obtain ⟨stage, hstage, hleft⟩ := Desk.exists_stage_run hstart hi order
    refine ⟨stage, hstage, .of_suits (hsound.suits i _ _ hstage) hleft, ?_⟩
    rintro rfl
    exact ⟨_, Desk.run_alone hstage, rfl⟩
  · intro calls
    rw [← Cache.texts_serveAll, Cache.texts, List.length_map]
    rfl
  · intro before between text
    rw [Cache.serveAll_append, Cache.serveAll_cons]
    exact Cache.fetch_number_eq_iff (Cache.Numbered.empty.serveAll before).1 text between

/-- Two callers find nothing for the same text, and the cache is cleared after the first of them has
stored its reading; each has its verdict all the same. -/
theorem cache_does_not_show_cleared :
    let source : Source := fun _ => some (.number 5)
    let query : Query := .check "A>1" source
    let desk := (Desk.ofQueries [query, query, .clear]).run [0, 1, 0, 1, 0, 2, 1, 0, 1]
    desk.callers[0]? = some (query, .answered ⟨.ok true, ["A"]⟩) ∧
      desk.callers[1]? = some (query, .answered ⟨.ok true, ["A"]⟩) := by
  intro source query desk
  obtain ⟨-, hanswers, -⟩ :=
    cache_does_not_show [query, query, .clear] [0, 1, 0, 1, 0, 2, 1, 0, 1]
  have hverdict : (Condition.read "A>1").evaluate source = ⟨.ok true, ["A"]⟩ := by rfl
  obtain ⟨stage, hstage, hreliable, -⟩ := hanswers 0 "A>1" source rfl
  obtain ⟨stage', hstage', hreliable', -⟩ := hanswers 1 "A>1" source rfl
  rw [hreliable.hasVerdict (by decide), hverdict] at hstage
  rw [hreliable'.hasVerdict (by decide), hverdict] at hstage'
  exact ⟨hstage, hstage'⟩

end LifePath
