import LifePath.Proofs.Attribute.Allocation
import LifePath.Proofs.Story.Batch
import LifePath.Proofs.Story.Year

/-!
# The record of a game

The entries of a game are its accounts. From the attributes that were handed out and the ids that
the entries name, the catalog gives the attributes at any time: `Attributes.lived` makes the changes
of the events one after the other and appends their ids to the history. Each change is made in 32
bits, but what it comes to in the end is the sum in full as long as that is in range, whatever
happened on the way (`Attributes.comesTo_lived`). The catalog gives the years too
(`Runner.yearsTold`).

The history is written in two places, by the draw and by the chain, and the ids of an entry come
from the catalog; `resolve_lived` is where the three meet. `Entry.Accounts` is what one entry
answers for. `Runner.Record` is a run of entries each of which begins where the one before it ends,
and every sequence of moves, single or many years at once, leaves one (`Played.recorded`).
-/

namespace LifePath

open LifePath.Decimal

/-! ## What the catalog says about ids -/

/-- What the catalog says that an event changes, which is nothing if it has no such event. -/
def EventCatalog.effectOf (events : EventCatalog) (id : String) : Effect :=
  ((events.get? id).map (·.effect)).getD .none

theorem EventCatalog.effectOf_of_get? {events : EventCatalog} {id : String} {e : Event}
    (h : events.get? id = some e) : events.effectOf id = e.effect := by
  rw [effectOf, h]
  rfl

/-- The years that events take one after the other, of which only the first can be `drawn`. -/
def EventCatalog.yearsOf (events : EventCatalog) : (drawn : Bool) → List String → Int
  | _, [] => 0
  | drawn, id :: rest => (events.effectOf id).years drawn + events.yearsOf false rest

theorem EventCatalog.yearsOf_cons (events : EventCatalog) (drawn : Bool) (id : String)
    (rest : List String) : events.yearsOf drawn (id :: rest) =
      (events.effectOf id).years drawn + events.yearsOf false rest := rfl

theorem Effect.years_nonneg (e : Effect) (drawn : Bool) : 0 ≤ e.years drawn :=
  Int.le_max_right ..

theorem EventCatalog.yearsOf_nonneg (events : EventCatalog) (ids : List String) :
    ∀ drawn, 0 ≤ events.yearsOf drawn ids := by
  induction ids with
  | nil => intro drawn; exact Int.le_refl 0
  | cons id rest ih =>
    intro drawn
    exact Int.add_nonneg ((events.effectOf id).years_nonneg drawn) (ih false)

/-! ## What events make of attributes -/

/-- The sum of one of the changes over events. -/
def EventCatalog.sumOf (events : EventCatalog) (change : Effect → Int) : List String → Int
  | [] => 0
  | id :: rest => change (events.effectOf id) + events.sumOf change rest

namespace Attributes

/-- The attributes after events, each of which is added to the history and makes its changes. -/
def lived (a : Attributes) (events : EventCatalog) (ids : List String) : Attributes :=
  ids.foldl (fun a id => (a.record id).apply (events.effectOf id)) a

/-- The six numbers with all changes to them added up in full, in range or not. -/
def sums (a : Attributes) (events : EventCatalog) (ids : List String) : List Int :=
  [a.chr + events.sumOf (·.chr) ids, a.int + events.sumOf (·.int) ids,
    a.str + events.sumOf (·.str) ids, a.mny + events.sumOf (·.mny) ids,
    a.spr + events.sumOf (·.spr) ids, a.lif + events.sumOf (·.lif) ids]

/-- The numbers that attributes come to with events. -/
structure ComesTo (a : Attributes) (events : EventCatalog) (ids : List String)
    (numbers : List Int) : Prop where
  /-- every change is made in 32 bits -/
  wrapped : numbers = (a.lived events ids).numbers
  /-- unless a sum is out of range, that is the sum in full -/
  inFull : (∀ n ∈ a.sums events ids, fitsInt32 n = true) → numbers = a.sums events ids

variable {a : Attributes} {events : EventCatalog} {ids : List String}

@[simp] theorem lived_nil (a : Attributes) (events : EventCatalog) : a.lived events [] = a := rfl

theorem lived_cons (a : Attributes) (events : EventCatalog) (id : String) (ids : List String) :
    a.lived events (id :: ids) = ((a.record id).apply (events.effectOf id)).lived events ids := rfl

theorem lived_append (a : Attributes) (events : EventCatalog) (ids ids' : List String) :
    a.lived events (ids ++ ids') = (a.lived events ids).lived events ids' := List.foldl_append

theorem lived_concat (a : Attributes) (events : EventCatalog) (ids : List String) (id : String) :
    a.lived events (ids ++ [id]) =
      ((a.lived events ids).record id).apply (events.effectOf id) := lived_append ..

@[simp] theorem history_lived (a : Attributes) (events : EventCatalog) (ids : List String) :
    (a.lived events ids).history = a.history ++ ids := by
  induction ids generalizing a with
  | nil => simp
  | cons id rest ih =>
    rw [lived_cons, ih]
    simp [record, apply]

/-- A number of attributes, and the change that an effect makes to it. -/
structure Adds (number : Attributes → Int) (change : Effect → Int) : Prop where
  record : ∀ a id, number (a.record id) = number a
  apply : ∀ a e, number (a.apply e) = wrapInt32 (number a + change e)

/-- Up to wrapping, a number comes to its sum. -/
theorem Adds.wrapInt32_lived {number : Attributes → Int} {change : Effect → Int}
    (h : Adds number change) (a : Attributes) (events : EventCatalog) (ids : List String) :
    wrapInt32 (number (a.lived events ids)) =
      wrapInt32 (number a + events.sumOf change ids) := by
  induction ids generalizing a with
  | nil => simp [EventCatalog.sumOf]
  | cons id rest ih =>
    rw [lived_cons, ih, h.apply, h.record, wrapInt32_wrapInt32_add, Int.add_assoc]
    rfl

/-- A sum in range is come to, also if the parts that it is added up from are not. -/
theorem Adds.lived_of_fits {number : Attributes → Int} {change : Effect → Int}
    (h : Adds number change) (hfits : fitsInt32 (number a + events.sumOf change ids) = true) :
    number (a.lived events ids) = number a + events.sumOf change ids := by
  rcases List.eq_nil_or_concat ids with rfl | ⟨ids, last, rfl⟩
  · simp [EventCatalog.sumOf]
  · have hwrapped : wrapInt32 (number (a.lived events (ids.concat last))) =
        number (a.lived events (ids.concat last)) := by
      rw [List.concat_eq_append, lived_concat, h.apply, wrapInt32_wrapInt32]
    rw [← hwrapped, h.wrapInt32_lived, wrapInt32_of_fits hfits]

/-- All six numbers are added to in this way. -/
theorem adds : Adds chr Effect.chr ∧ Adds int Effect.int ∧ Adds str Effect.str ∧
    Adds mny Effect.mny ∧ Adds spr Effect.spr ∧ Adds lif Effect.lif := by
  refine ⟨?_, ?_, ?_, ?_, ?_, ?_⟩ <;> exact ⟨fun _ _ => rfl, fun _ _ => rfl⟩

/-- Attributes come to the numbers that they have after the events. -/
theorem comesTo_lived (a : Attributes) (events : EventCatalog) (ids : List String) :
    a.ComesTo events ids (a.lived events ids).numbers := by
  refine ⟨rfl, fun h => ?_⟩
  simp only [sums, List.forall_mem_cons] at h
  obtain ⟨hchr, hint, hstr, hmny, hspr, hlif, -⟩ := h
  obtain ⟨chr, int, str, mny, spr, lif⟩ := adds
  rw [numbers, sums, chr.lived_of_fits hchr, int.lived_of_fits hint, str.lived_of_fits hstr,
    mny.lived_of_fits hmny, spr.lived_of_fits hspr, lif.lived_of_fits hlif]

end Attributes

/-- Capping the rest of a sum first makes no difference to a sum that is capped at the end. -/
theorem addYears_min {a b : Int} (ha : 0 ≤ a) : addYears a (min b maxInt32) = addYears a b := by
  unfold addYears
  omega

namespace Runner

variable {r : Runner} {age : Int} {a : Attributes} {scene scene' : Scene}

/-! ## A year -/

/-- A chain of events tells the ids that it has lived, all of them in the catalog, whether its first
event was recorded by the draw or is recorded by the chain. -/
theorem resolve_lived :
    ∀ (left : Nat) {drawn : Bool} {id : String} {a b : Attributes} {scene scene' : Scene}
      {chain : Chain}, (if drawn then b else b.record id) = a.record id →
      r.resolve age left drawn id b scene = (.ok chain, scene') →
      ∃ rest, chain.happenings.map (·.event) = id :: rest ∧
        chain.attributes = a.lived r.events (id :: rest) ∧
        chain.years = min (r.events.yearsOf drawn (id :: rest)) maxInt32 ∧
        ∀ id' ∈ id :: rest, (r.events.get? id').isSome := by
  intro left
  induction left with
  | zero => intro drawn id a b scene scene' chain _ h; simp [resolve] at h
  | succ left ih =>
    intro drawn id a b scene scene' chain hb h
    obtain ⟨e, before, left', hleft, he, hbefore, hcases⟩ := resolve_ok h
    obtain rfl : left = left' := Nat.succ.inj hleft
    obtain rfl : before = a.record id := hbefore.trans hb
    have hid := EventCatalog.get?_id he
    have heffect := EventCatalog.effectOf_of_get? he
    have hknown : (r.events.get? id).isSome := by rw [he]; rfl
    rcases hcases with ⟨-, -, rfl⟩ | ⟨next, rest, -, hrest, rfl⟩
    · refine ⟨[], by simp [Event.happening, hid], ?_, ?_, by simpa using hknown⟩
      · rw [Attributes.lived_cons, Attributes.lived_nil, heffect]
      · simp [EventCatalog.yearsOf, heffect, addYears]
    · -- the rest of the chain starts from attributes that do not have its first id yet
      obtain ⟨ids, hids, hattr, hyears, hall⟩ :=
        ih (a := (a.record id).apply e.effect) (by simp) hrest
      refine ⟨next :: ids, ?_, ?_, ?_, ?_⟩
      · rw [List.map_cons, hids]
        simp [Event.happening, hid]
      · rw [Attributes.lived_cons, heffect]
        exact hattr
      · rw [EventCatalog.yearsOf_cons, heffect]
        show addYears (e.effect.years drawn) rest.years = addYears (e.effect.years drawn) _
        rw [hyears, addYears_min (e.effect.years_nonneg drawn)]
      · intro id' hid'
        rcases List.mem_cons.mp hid' with rfl | hid'
        · exact hknown
        · exact hall id' hid'

/-- The years that an entry tells if it began with these attributes. Without events that is one
year, but none if the game was over. -/
def yearsTold (r : Runner) (a : Attributes) (e : Entry) : Int :=
  match e.eventIds with
  | [] => if r.isOver e.age a then 0 else 1
  | id :: rest => r.events.yearsOf true (id :: rest)

theorem yearsTold_nonneg (r : Runner) (a : Attributes) (e : Entry) : 0 ≤ r.yearsTold a e := by
  unfold yearsTold
  split
  · split <;> decide
  · exact r.events.yearsOf_nonneg _ true

end Runner

/-- The age with which entries continue a game, or at which it stands if there are none. -/
def ageNext (entries : List Entry) (s : Session) : Int := (entries.head?.map (·.age)).getD s.age

/-- What an entry answers for if its year began with the attributes `a` and ended at an age. The
years of one entry are capped before they are added to the age, which is seen only below zero. -/
structure Entry.Accounts (e : Entry) (r : Runner) (a : Attributes) (after : Int) : Prop where
  /-- the numbers that it tells -/
  numbers : e.numbers = (a.lived r.events e.eventIds).numbers
  /-- the ids that it tells -/
  known : ∀ id ∈ e.eventIds, (r.events.get? id).isSome
  /-- the years that it tells -/
  years : after = addYears e.age (min (r.yearsTold a e) maxInt32)
  /-- an age from zero on is added to before anything is capped -/
  yearsOnce : 0 ≤ e.age → after = addYears e.age (r.yearsTold a e)
  /-- without events the game was over, or the pool had no candidates and the year passed -/
  uneventful : e.eventIds = [] →
    (r.isOver e.age a = true ∧ e.isEnd = true) ∨
    (r.isOver e.age a = false ∧ r.settings.emptyPool = .advanceAge ∧
      ∃ pool, r.ages.get? e.age = some pool ∧
        candidates r.events (a.sourceAt e.age) pool.references = .ok [])

/-- The age does not fall, and it stays among the 32-bit integers. -/
theorem Entry.Accounts.age_le {e : Entry} {r : Runner} {a : Attributes} {after : Int}
    (h : e.Accounts r a after) (hage : e.age ≤ maxInt32) : e.age ≤ after ∧ after ≤ maxInt32 := by
  have hyears := h.years
  have hnonneg := r.yearsTold_nonneg a e
  have hmax : (0 : Int) ≤ maxInt32 := by decide
  unfold addYears at hyears
  omega

namespace Runner

variable {r : Runner} {age age' : Int} {a a' : Attributes} {scene scene' : Scene}
  {s s' : Session}

/-- A year that succeeds is accounted for by its entry. -/
theorem advance_accounts {year : Year} (hage : age ≤ maxInt32)
    (h : r.advance age a scene = (.ok year, scene')) :
    year.entry.age = age ∧ year.attributes = a.lived r.events year.entry.eventIds ∧
      year.entry.Accounts r a year.age := by
  rcases advance_ok h with
    ⟨hover, rfl, -⟩ | ⟨hover, pool, hpool, ⟨references, chain, -, ⟨id, -, hchain⟩, rfl⟩ |
      ⟨hcands, hempty, rfl, -⟩⟩
  · have hkeeps : age = addYears age 0 := by unfold addYears; omega
    refine ⟨rfl, by simp [Entry.eventIds], ?_, ?_, ?_, ?_, fun _ => .inl ⟨hover, rfl⟩⟩
    · simp [Entry.eventIds]
    · simp [Entry.eventIds]
    · have hzero : min 0 maxInt32 = 0 := by decide
      simpa [yearsTold, Entry.eventIds, hover, hzero] using hkeeps
    · intro _
      simpa [yearsTold, Entry.eventIds, hover] using hkeeps
  · obtain ⟨rest, hids, hattr, hyears, hknown⟩ := resolve_lived (a := a) _ (by simp) hchain
    have hids : (r.finishYear age chain).entry.eventIds = id :: rest := hids
    have htold : r.yearsTold a (r.finishYear age chain).entry =
        r.events.yearsOf true (id :: rest) := by
      unfold yearsTold
      rw [hids]
    refine ⟨rfl, by rw [hids]; exact hattr, ?_, ?_, ?_, ?_, ?_⟩
    · rw [hids, ← hattr]
      rfl
    · rw [hids]
      exact hknown
    · rw [htold, ← hyears]
      rfl
    · intro hnonneg
      rw [htold, ← addYears_min hnonneg, ← hyears]
      rfl
    · intro hnil
      rw [hids] at hnil
      simp at hnil
  · refine ⟨rfl, by simp [finishYear, Entry.eventIds], ?_, ?_, ?_, ?_, ?_⟩
    · simp [finishYear, Entry.eventIds]
    · simp [finishYear, Entry.eventIds]
    · have hone : min 1 maxInt32 = 1 := by decide
      simp [finishYear, yearsTold, Entry.eventIds, hover, hone]
    · intro _
      simp [finishYear, yearsTold, Entry.eventIds, hover]
    · exact fun _ => .inr ⟨hover, hempty, pool, hpool, hcands⟩

/-! ## A run of entries -/

/-- Entries that account for a game, from an age and attributes to an age and attributes. -/
inductive Record (r : Runner) : Int → Attributes → List Entry → Int → Attributes → Prop where
  | nil (age : Int) (a : Attributes) : Record r age a [] age a
  | cons {e : Entry} {a a' : Attributes} {after age' : Int} {rest : List Entry} :
      e.Accounts r a after → Record r after (a.lived r.events e.eventIds) rest age' a' →
      Record r e.age a (e :: rest) age' a'

namespace Record

theorem append {entries more : List Entry} {age₁ : Int} {a₁ : Attributes}
    (h : r.Record age a entries age₁ a₁) (hmore : r.Record age₁ a₁ more age' a') :
    r.Record age a (entries ++ more) age' a' := by
  induction h with
  | nil => exact hmore
  | cons hacc _ ih => exact .cons hacc (ih hmore)

/-- The ids that the entries tell are the whole of what has happened to the attributes. -/
theorem attributes_eq {entries : List Entry} (h : r.Record age a entries age' a') :
    a' = a.lived r.events (entries.flatMap Entry.eventIds) := by
  induction h with
  | nil => simp
  | cons _ _ ih => rw [ih, List.flatMap_cons, Attributes.lived_append]

theorem ageNext_eq {entries : List Entry} (h : r.Record age a entries s'.age a') :
    ageNext entries s' = age := by
  cases h <;> rfl

/-- Each entry answers for its own year, wherever in the run it stands. -/
theorem accounts {before after : List Entry} {e : Entry}
    (h : r.Record age a (before ++ e :: after) s'.age a') :
    e.Accounts r (a.lived r.events (before.flatMap Entry.eventIds)) (ageNext after s') := by
  induction before generalizing age a with
  | nil =>
    cases h with
    | cons hacc hrest =>
      rw [ageNext_eq hrest]
      simpa using hacc
  | cons e₁ before ih =>
    cases h with
    | cons _ hrest =>
      rw [List.flatMap_cons, Attributes.lived_append]
      exact ih hrest

/-- Ages do not fall from one entry to the next, and the age at the end is none below them. -/
theorem ages_pairwise {entries : List Entry} (h : r.Record age a entries age' a')
    (hage : age ≤ maxInt32) :
    (entries.map (·.age) ++ [age']).Pairwise (· ≤ ·) ∧
      (∀ later ∈ entries.map (·.age) ++ [age'], age ≤ later) ∧ age' ≤ maxInt32 := by
  induction h with
  | nil => simpa using hage
  | cons hacc _ ih =>
    obtain ⟨hle, hmax⟩ := hacc.age_le hage
    obtain ⟨hsorted, hlater, hmax'⟩ := ih hmax
    refine ⟨?_, ?_, hmax'⟩
    · rw [List.map_cons, List.cons_append, List.pairwise_cons]
      exact ⟨fun later hmem => Int.le_trans hle (hlater later hmem), hsorted⟩
    · intro later hmem
      rw [List.map_cons, List.cons_append] at hmem
      rcases List.mem_cons.mp hmem with rfl | hmem
      · exact Int.le_refl _
      · exact Int.le_trans hle (hlater later hmem)

end Record

/-! ## Moves -/

/-- Moves that succeed, of one year or of many, with all the entries that they give in order. The
chance that each of them is played with is arbitrary. -/
inductive Played (r : Runner) : Session → List Entry → Session → Prop where
  | refl (s : Session) : Played r s [] s
  | step {s s₁ s' : Session} {scene scene' : Scene} {e : Entry} {entries : List Entry} :
      r.step s scene = (.ok e, s₁, scene') → Played r s₁ entries s' →
      Played r s (e :: entries) s'
  | stepMany {s s₁ s' : Session} {scene scene' : Scene} {n : Nat} {many entries : List Entry} :
      r.stepMany n s scene = (.ok many, s₁, scene') → Played r s₁ entries s' →
      Played r s (many ++ entries) s'

/-- The entries are the record of what lies between two sessions. -/
def Recorded (r : Runner) (s : Session) (entries : List Entry) (s' : Session) : Prop :=
  ∀ a, s.attributes = some a → s.age ≤ maxInt32 →
    ∃ a', s'.attributes = some a' ∧ r.Record s.age a entries s'.age a'

theorem Recorded.refl (s : Session) : r.Recorded s [] s := fun a ha _ => ⟨a, ha, .nil ..⟩

theorem Recorded.trans {s₁ : Session} {entries more : List Entry} (h : r.Recorded s entries s₁)
    (hmore : r.Recorded s₁ more s') : r.Recorded s (entries ++ more) s' := by
  intro a ha hage
  obtain ⟨a₁, ha₁, hrecord⟩ := h a ha hage
  obtain ⟨-, -, hmax⟩ := hrecord.ages_pairwise hage
  obtain ⟨a', ha', hrecord'⟩ := hmore a₁ ha₁ hmax
  exact ⟨a', ha', hrecord.append hrecord'⟩

/-- A single step leaves a record of one entry. -/
theorem step_recorded {e : Entry} (h : r.step s scene = (.ok e, s', scene')) :
    r.Recorded s [e] s' := by
  intro a ha hage
  obtain ⟨-, a₀, year, scene₁, ha₀, hyear, rfl, rfl⟩ := step_ok h
  obtain rfl : a = a₀ := Option.some.inj (ha.symm.trans ha₀)
  obtain ⟨hentry, hattr, hacc⟩ := advance_accounts hage hyear
  have hrecord := Record.cons hacc (.nil ..)
  rw [hentry, ← hattr] at hrecord
  exact ⟨_, rfl, hrecord⟩

theorem Steps.recorded {entries : List Entry} (h : r.Steps s scene entries s' scene') :
    r.Recorded s entries s' := by
  induction h with
  | refl s scene => exact .refl s
  | cons hstep _ ih => exact (step_recorded hstep).trans ih

/-- Whatever moves a game is played with, their entries are its record. -/
theorem Played.recorded {entries : List Entry} (h : r.Played s entries s') :
    r.Recorded s entries s' := by
  induction h with
  | refl s => exact .refl s
  | step hstep _ ih => exact (step_recorded hstep).trans ih
  | stepMany hmany _ ih => exact (Steps.of_stepMany hmany).recorded.trans ih

/-! ## The whole game -/

/-- Attributes are handed out at random to a session that has none, with an empty history. -/
theorem allocateRandom_ok (h : r.allocateRandom s scene = (.ok a, s', scene')) :
    s.attributes = none ∧ a.history = [] ∧
      s' = { s with attributes := some a, status := .active } := by
  have hhistory := Attributes.history_random r.settings scene.chance
  unfold allocateRandom at h
  split at h
  · simp at h
  · next hnone =>
    generalize Attributes.random r.settings scene.chance = dealt at h hhistory
    obtain ⟨a₁, chance⟩ := dealt
    simp only [commitAllocation, Prod.mk.injEq, Except.ok.injEq] at h
    obtain ⟨rfl, rfl, -⟩ := h
    exact ⟨by simpa using hnone, hhistory, rfl⟩

/-- Attributes that a player wrote are handed out to a session that has none, with an empty
history. -/
theorem allocateManual_ok {raw : String}
    (h : r.allocateManual raw s scene = (.ok a, s', scene')) :
    s.attributes = none ∧ a.history = [] ∧
      s' = { s with attributes := some a, status := .active } := by
  unfold allocateManual at h
  split at h
  · simp at h
  · next hnone =>
    split at h
    · simp at h
    · next a₁ hmanual =>
      simp only [commitAllocation, Prod.mk.injEq, Except.ok.injEq] at h
      obtain ⟨rfl, rfl, -⟩ := h
      exact ⟨by simpa using hnone, Attributes.history_manual hmanual, rfl⟩

/-- The session has just been given these attributes, by chance or by hand. -/
def JustAllocated (s : Session) (a : Attributes) : Prop :=
  ∃ (r : Runner) (s₀ : Session) (scene scene' : Scene),
    r.allocateRandom s₀ scene = (.ok a, s, scene') ∨
      ∃ raw, r.allocateManual raw s₀ scene = (.ok a, s, scene')

theorem JustAllocated.attributes_history (h : JustAllocated s a) :
    s.attributes = some a ∧ a.history = [] := by
  obtain ⟨r, s₀, scene, scene', h | ⟨raw, h⟩⟩ := h
  · obtain ⟨-, hhistory, rfl⟩ := allocateRandom_ok h
    exact ⟨rfl, hhistory⟩
  · obtain ⟨-, hhistory, rfl⟩ := allocateManual_ok h
    exact ⟨rfl, hhistory⟩

/-- **The record of a game is exact.** After any moves that succeed from the attributes that were
handed out, the history is the ids of all entries in order, and the numbers are what they were plus
the changes of these events, in full as long as the sums are 32-bit integers. The first entry begins
at the age of the session, and every entry answers for its own year: for the numbers up to it, and
for the age with which the next one begins or the session stands. So the age never falls, and what
is played later only appends to the history. -/
theorem entries_account_for_game (r : Runner) {s s' : Session} {a : Attributes}
    {entries : List Entry} (hs : JustAllocated s a) (hage : s.age ≤ maxInt32)
    (h : r.Played s entries s') :
    ∃ a', s'.attributes = some a' ∧
      a'.history = entries.flatMap Entry.eventIds ∧
      a.ComesTo r.events (entries.flatMap Entry.eventIds) a'.numbers ∧
      ageNext entries s' = s.age ∧
      (∀ before e after, entries = before ++ e :: after →
        a.ComesTo r.events ((before ++ [e]).flatMap Entry.eventIds) e.numbers ∧
          e.Accounts r (a.lived r.events (before.flatMap Entry.eventIds)) (ageNext after s')) ∧
      (entries.map (·.age) ++ [s'.age]).Pairwise (· ≤ ·) ∧
      ∀ later s'', r.Played s' later s'' → s'.age ≤ s''.age ∧ ∃ a'', s''.attributes = some a'' ∧
        a''.history = a'.history ++ later.flatMap Entry.eventIds := by
  obtain ⟨ha, hhistory⟩ := hs.attributes_history
  obtain ⟨a', ha', hrecord⟩ := h.recorded a ha hage
  obtain ⟨hpairwise, -, hmax⟩ := hrecord.ages_pairwise hage
  refine ⟨a', ha', ?_, ?_, hrecord.ageNext_eq, ?_, hpairwise, ?_⟩
  · rw [hrecord.attributes_eq, Attributes.history_lived, hhistory, List.nil_append]
  · rw [hrecord.attributes_eq]
    exact a.comesTo_lived ..
  · rintro before e after rfl
    have hacc := hrecord.accounts
    refine ⟨?_, hacc⟩
    rw [hacc.numbers, ← Attributes.lived_append, ← List.flatMap_singleton Entry.eventIds e,
      ← List.flatMap_append]
    exact a.comesTo_lived ..
  · intro later s'' hlater
    obtain ⟨a'', ha'', hrecord'⟩ := hlater.recorded a' ha' hmax
    obtain ⟨-, hle, -⟩ := hrecord'.ages_pairwise hmax
    refine ⟨hle s''.age (by simp), a'', ha'', ?_⟩
    rw [hrecord'.attributes_eq, Attributes.history_lived]

/-! ## A life before the year zero -/

namespace BeforeZero

/-- An event that takes all the years there are, and one that follows on it and takes five more. -/
def runner : Runner where
  events := ⟨
    [{ Event.plain "1" "You fall asleep." with
        effect := { Effect.none with chr := 1, age := some maxInt32 }, next := some "2" },
     { Event.plain "2" "You wake up." with
        effect := { Effect.none with chr := 2, age := some 5 }, onlyFollows := true }],
    by decide⟩
  ages := ⟨[⟨-10, [⟨"1", Reference.plainWeight⟩]⟩], by simp⟩
  settings := { Settings.standard with startAge := -10 }

/-- A session whose attributes have been handed out, all of them zero. -/
def born : Session := ⟨"p", some (.ofLife 1), -10, .active, 0⟩

/-- The only year of this life. -/
def year : Entry :=
  ⟨-10, [⟨"1", "You fall asleep.", 0⟩, ⟨"2", "You wake up.", 0⟩], [3, 0, 0, 0, 0, 1], true⟩

/-- The session after it. -/
def ended : Session := ⟨"p", some ⟨3, 0, 0, 0, 0, 1, ["1", "2"]⟩, 2147483637, .ended, 0⟩

theorem born_justAllocated : JustAllocated born (.ofLife 1) :=
  ⟨runner, ⟨"p", none, -10, .pending, 0⟩, ⟨⟨[], 0⟩, #[]⟩,
    ⟨⟨[], 0⟩, #[.allocated "p" [0, 0, 0, 0, 0, 1]]⟩, .inr ⟨"0 0 0 0 0", by rfl⟩⟩

theorem played : runner.Played born [year] ended := by
  have hpool : runner.ages.get? (-10) = some ⟨-10, [⟨"1", Reference.plainWeight⟩]⟩ := rfl
  have hcands : candidates runner.events ((Attributes.ofLife 1).sourceAt (-10))
      [⟨"1", Reference.plainWeight⟩] = .ok [⟨"1", Reference.plainWeight⟩] := rfl
  have hover : runner.isOver (-10) (.ofLife 1) = false := rfl
  -- the weight is not computed: of one candidate the draw can only give this one
  obtain ⟨id, hid, hdraw⟩ :=
    Chance.weighted?_of_ne_nil (List.cons_ne_nil ("1", Reference.plainWeight) []) ⟨[], 0⟩
  obtain rfl : id = "1" := by simpa using hid
  have hstep : ∃ scene', runner.step born ⟨⟨[], 0⟩, #[]⟩ = (.ok year, ended, scene') := by
    simp only [step, born, activeAttributes, advance, hover, selectEvent, hpool, hcands, drawItems,
      List.map, hdraw]
    exact ⟨_, rfl⟩
  obtain ⟨scene', hstep⟩ := hstep
  exact .step hstep (.refl _)

end BeforeZero

open BeforeZero in
theorem entries_account_for_game_beforeZero :
    JustAllocated born (.ofLife 1) ∧ born.age ≤ maxInt32 ∧ runner.Played born [year] ended ∧
      ∃ a, ended.attributes = some a ∧ a.history = ["1", "2"] ∧
        a.numbers = (Attributes.ofLife 1).sums runner.events ["1", "2"] := by
  have hage : born.age ≤ maxInt32 := by decide
  obtain ⟨a, ha, hhistory, hnumbers, -⟩ :=
    entries_account_for_game runner born_justAllocated hage played
  exact ⟨born_justAllocated, hage, played, a, ha, hhistory, hnumbers.inFull (by decide)⟩

open BeforeZero in
/-- The years of an entry are capped before they are added to the age: capped only afterwards, the
age would be five years more. -/
theorem age_short_of_yearsTold :
    JustAllocated born (.ofLife 1) ∧ runner.Played born [year] ended ∧
      ageNext [] ended = 2147483637 ∧
      addYears year.age (runner.yearsTold (.ofLife 1) year) = 2147483642 :=
  ⟨born_justAllocated, played, rfl, by decide⟩

end Runner

end LifePath
