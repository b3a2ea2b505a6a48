import LifePath.Proofs.Condition.RoundTrip
import LifePath.Proofs.Session.Calls
import LifePath.Proofs.Story.Draw

/-!
# Conditions on what has happened

A table can say that an event is drawn only once, or only after others, by a condition on the
history: `EVT?[1001,1002]` holds once one of these events has happened. What such a condition is
worth depends on every layer at once: on how its text is read, on what the draw asks of an event,
and on the history, to which the drawn event and those that follow on it must have been added under
their own ids, in this and in every earlier year.

`Event.isEligible_eq_ok_true` and `checkCondition_happened` say what is asked when an event is
drawn. `Chronicled` says that a game remembers: the history is what the entries tell, and whatever
was drawn could be drawn with the history that the entries before it tell. Every game does, whatever
calls are served (`Served.chronicled`).
-/

namespace LifePath

/-! ## The draw and its conditions -/

/-- The condition that one of these events has happened. -/
def happened (ids : List String) : String := "EVT?[" ++ String.intercalate "," ids ++ "]"

/-- It holds if the history has one of them, whatever characters the ids are spelled with. -/
theorem checkCondition_happened {ids : List String} (hids : ∀ id ∈ ids, IsItem id)
    (a : Attributes) (age : Int) :
    checkCondition (a.sourceAt age) (happened ids) =
      .ok (a.history.any fun id => ids.contains id) := by
  have hcode : ∀ x ∈ "EVT".toList, Comparison.isCodeChar x = true := by
    simp [Comparison.isCodeChar]
  have hprintable : Comparison.Printable ⟨"EVT", .includesAny, .list ids⟩ :=
    ⟨by simp, hcode, rfl, hids⟩
  have htext : happened ids = Comparison.text ⟨"EVT", .includesAny, .list ids⟩ := by
    have hopen : "EVT?[" = "EVT" ++ "?" ++ "[" := by rfl
    rw [happened, hopen]
    simp only [Comparison.text, Operator.symbol, Operand.text, String.append_assoc]
  have hsource : a.sourceAt age "EVT" = some (.list a.history) := rfl
  rw [htext, checkCondition_text hprintable, hsource]
  rfl

/-- The event that was drawn, if one was: it is the first that an entry tells. -/
def Entry.drawn? (e : Entry) : Option String := e.eventIds.head?

namespace Runner

variable {r : Runner}

/-- A year adds what its entry tells to the history, and an event was drawn only if it could be. -/
theorem advance_drawn {age : Int} {a : Attributes} {scene scene' : Scene} {year : Year}
    (h : r.advance age a scene = (.ok year, scene')) :
    year.entry.age = age ∧ year.attributes.history = a.history ++ year.entry.eventIds ∧
      ∀ id, year.entry.drawn? = some id →
        ∃ e, r.events.get? id = some e ∧ e.isEligible (a.sourceAt age) = .ok true := by
  rcases advance_ok h with
    ⟨-, rfl, -⟩ | ⟨-, pool, -, ⟨references, chain, hcands, ⟨id, hid, hchain⟩, rfl⟩ |
      ⟨-, -, rfl, -⟩⟩
  · simp [Entry.drawn?, Entry.eventIds]
  · obtain ⟨rest, hids, hattr, -, -⟩ := resolve_lived (a := a) _ (by simp) hchain
    have hids : (r.finishYear age chain).entry.eventIds = id :: rest := hids
    refine ⟨rfl, ?_, ?_⟩
    · rw [hids]
      show chain.attributes.history = _
      rw [hattr, Attributes.history_lived]
    · intro id' hdrawn
      rw [Entry.drawn?, hids] at hdrawn
      obtain rfl := Option.some.inj hdrawn
      obtain ⟨reference, hreference, rfl⟩ := List.mem_map.mp hid
      exact (candidates_ok hcands reference hreference).2
  · simp [finishYear, Entry.drawn?, Entry.eventIds]

end Runner

/-! ## What a game remembers -/

/-- The entries of a game tell its history, and each event that was drawn could be drawn after what
the entries before it tell. -/
structure Chronicled (r : Runner) (s : Session) (entries : List Entry) : Prop where
  unset : s.attributes = none → entries = []
  history : ∀ a, s.attributes = some a → a.history = entries.flatMap Entry.eventIds
  drawn : ∀ before e after, entries = before ++ e :: after → ∀ id, e.drawn? = some id →
    ∃ (event : Event) (a : Attributes), r.events.get? id = some event ∧
      event.isEligible (a.sourceAt e.age) = .ok true ∧
      a.history = before.flatMap Entry.eventIds

namespace Chronicled

variable {r : Runner} {s s' : Session} {entries : List Entry}

/-- A step that succeeds goes on with the chronicle. -/
theorem step {e : Entry} {scene scene' : Scene} (h : r.step s scene = (.ok e, s', scene'))
    (hs : Chronicled r s entries) : Chronicled r s' (entries ++ [e]) := by
  obtain ⟨-, a, year, scene₁, ha, hyear, rfl, rfl⟩ := Runner.step_ok h
  obtain ⟨hage, hhistory, hdrawn⟩ := Runner.advance_drawn hyear
  have hbefore := hs.history a ha
  refine ⟨by simp, ?_, ?_⟩
  · intro a' ha'
    obtain rfl := Option.some.inj ha'
    rw [hhistory, hbefore, List.flatMap_append, List.flatMap_singleton]
  · intro before e after hsplit id hid
    -- the entry is the new one, or it was there before
    rcases List.eq_nil_or_concat after with rfl | ⟨after, last, rfl⟩
    · obtain ⟨rfl, rfl⟩ : entries = before ∧ year.entry = e := by simpa using hsplit
      obtain ⟨event, hevent, heligible⟩ := hdrawn id hid
      rw [← hage] at heligible
      exact ⟨event, a, hevent, heligible, hbefore⟩
    · have hentries : entries = before ++ e :: after := by
        rw [List.concat_eq_append, ← List.cons_append, ← List.append_assoc] at hsplit
        exact (List.append_inj' hsplit rfl).1
      exact hs.drawn before e after hentries id hid

variable {event : Event} {ids : List String} {before after : List Entry} {e : Entry}

/-- When an event of the catalog was drawn, it could be. -/
theorem exists_eligible (hs : Chronicled r s entries)
    (hevent : r.events.get? event.id = some event) (hsplit : entries = before ++ e :: after)
    (hdrawn : e.drawn? = some event.id) :
    ∃ a : Attributes, event.isEligible (a.sourceAt e.age) = .ok true ∧
      a.history = before.flatMap Entry.eventIds := by
  obtain ⟨event', a, hevent', heligible, hhistory⟩ := hs.drawn before e after hsplit _ hdrawn
  obtain rfl : event = event' := Option.some.inj (hevent.symm.trans hevent')
  exact ⟨a, heligible, hhistory⟩

/-- Before an event that is excluded once one of some events has happened, none of them has. -/
theorem not_happened_before (hs : Chronicled r s entries)
    (hevent : r.events.get? event.id = some event) (hids : ∀ id ∈ ids, IsItem id)
    (hguard : event.excludeIf = some (happened ids)) (hsplit : entries = before ++ e :: after)
    (hdrawn : e.drawn? = some event.id) :
    ∀ id ∈ before.flatMap Entry.eventIds, id ∉ ids := by
  obtain ⟨a, heligible, hhistory⟩ := hs.exists_eligible hevent hsplit hdrawn
  obtain ⟨-, hexclude, -⟩ := Event.isEligible_eq_ok_true.mp heligible
  rw [hguard, holdsOr, checkCondition_happened hids, hhistory] at hexclude
  have hnone := Except.ok.inj hexclude
  intro id hid
  simpa using List.any_eq_false.mp hnone id hid

/-- Before an event that is included only once one of some events has happened, one of them has. -/
theorem exists_happened_before (hs : Chronicled r s entries)
    (hevent : r.events.get? event.id = some event) (hids : ∀ id ∈ ids, IsItem id)
    (hguard : event.includeIf = some (happened ids)) (hsplit : entries = before ++ e :: after)
    (hdrawn : e.drawn? = some event.id) :
    ∃ id ∈ ids, id ∈ before.flatMap Entry.eventIds := by
  obtain ⟨a, heligible, hhistory⟩ := hs.exists_eligible hevent hsplit hdrawn
  obtain ⟨-, -, hinclude⟩ := Event.isEligible_eq_ok_true.mp heligible
  rw [hguard, holdsOr, checkCondition_happened hids, hhistory] at hinclude
  have hany := Except.ok.inj hinclude
  obtain ⟨id, hid, hcontains⟩ := List.any_eq_true.mp hany
  exact ⟨id, by simpa using hcontains, hid⟩

end Chronicled

/-- What does not come before itself in a list is in it at most once. -/
theorem countP_le_one {α : Type} {p : α → Bool} {xs : List α}
    (h : ∀ before x after, xs = before ++ x :: after → p x = true → ∀ y ∈ before, p y = false) :
    xs.countP p ≤ 1 := by
  induction xs with
  | nil => simp
  | cons y rest ih =>
    cases hy : p y with
    | false =>
      rw [List.countP_cons_of_neg (by simp [hy])]
      apply ih
      rintro before x after rfl hx z hz
      exact h (y :: before) x after rfl hx z (List.mem_cons_of_mem _ hz)
    | true =>
      have hrest : rest.countP p = 0 := by
        rw [List.countP_eq_zero]
        intro x hx hpx
        obtain ⟨before, after, rfl⟩ := List.append_of_mem hx
        have := h (y :: before) x after rfl hpx y (List.mem_cons_self ..)
        rw [hy] at this
        simp at this
      rw [List.countP_cons_of_pos hy]
      omega

theorem Entry.mem_eventIds_of_drawn {e : Entry} {id : String} (h : e.drawn? = some id) :
    id ∈ e.eventIds := List.mem_of_mem_head? h

/-! ## Games -/

/-- Every game remembers, whatever calls have been served. -/
theorem Served.chronicled {r : Runner} {chance : Chance} {log : List (Call × Answer)} {h : House}
    (hlog : Served r (.opened chance) log h) {identity : String} {s : Session}
    (hs : h.store.find? identity = some s) : Chronicled r s (gameEntries identity log) := by
  refine hlog.keeps ?_ ?_ ?_ ?_ hs
  · intro identity startAge now
    exact ⟨fun _ => rfl, by simp [Session.beginAt], by simp⟩
  · intro s entries now hs
    exact ⟨hs.unset, hs.history, hs.drawn⟩
  · intro s a entries hunset hhistory hs
    obtain rfl := hs.unset hunset
    refine ⟨by simp, ?_, by simp⟩
    intro a' ha'
    obtain rfl := Option.some.inj ha'
    simpa using hhistory
  · exact fun hstep hs => hs.step hstep

/-- **Drawn once, and only after others.** Let `ids` be ids such as a list can hold. In every game,
whatever calls have been served, with whatever chance and failures:

* an event that is excluded once one of `ids` has happened, itself among them, is drawn in at most
  one entry;
* an event that is included only once one of `ids` has happened is drawn in an entry only if an
  earlier one tells one of `ids`, as the event that was drawn or as one that followed. -/
theorem drawn_once_and_only_after {r : Runner} {chance : Chance} {log : List (Call × Answer)}
    {h : House} (hlog : Served r (.opened chance) log h) {identity : String} {s : Session}
    (hs : h.store.find? identity = some s) {event : Event} {ids : List String}
    (hevent : r.events.get? event.id = some event) (hids : ∀ id ∈ ids, IsItem id) :
    (event.excludeIf = some (happened ids) → event.id ∈ ids →
      (gameEntries identity log).countP (fun e => e.drawn? = some event.id) ≤ 1) ∧
    (event.includeIf = some (happened ids) →
      ∀ before e after, gameEntries identity log = before ++ e :: after →
        e.drawn? = some event.id → ∃ id ∈ ids, id ∈ before.flatMap Entry.eventIds) := by
  have hchronicled := hlog.chronicled hs
  constructor
  · intro hguard hmem
    apply countP_le_one
    intro before e after hsplit hdrawn earlier hearlier
    have hnone := hchronicled.not_happened_before hevent hids hguard hsplit (by simpa using hdrawn)
    -- drawn in an earlier entry, the event would be in the history
    by_contra hdrawn'
    have hid := Entry.mem_eventIds_of_drawn (by simpa using hdrawn')
    exact hnone event.id (List.mem_flatMap.mpr ⟨earlier, hearlier, hid⟩) hmem
  · intro hguard before e after hsplit hdrawn
    exact hchronicled.exists_happened_before hevent hids hguard hsplit hdrawn

/-- A batch that succeeds is told its entries. -/
theorem House.serve_stepMany_ok {r : Runner} {h : House} {identity : String} {chance : Chance}
    {n : Nat} {s s' : Session} {entries : List Entry} {scene : Scene}
    (hs : h.store.find? identity = some s)
    (hmany : r.stepMany n (s.touch (h.clock + 1)) { h.scene with chance } =
      (.ok entries, s', scene)) :
    h.serve r ⟨identity, .stepMany n, chance⟩ =
      (.ok entries, ⟨h.store.put identity s', scene, h.clock + 1⟩) :=
  House.move_eq (h := { h with scene := { h.scene with chance } }) hs hmany

/-! ## A life at school -/

namespace School

/-- An event that is excluded once it has happened. -/
def going : Event :=
  { Event.plain "1" "You go to school." with excludeIf := some (happened ["1"]) }

/-- An event that is included only then. -/
def leaving : Event :=
  { Event.plain "2" "You leave school." with includeIf := some (happened ["1"]) }

/-- Both are in the pool of either year. -/
def references : List Reference :=
  [⟨"1", Reference.plainWeight⟩, ⟨"2", Reference.plainWeight⟩]

def ages : AgeCatalog := ⟨[⟨0, references⟩, ⟨1, references⟩], by simp⟩

def runner : Runner := ⟨⟨[going, leaving], by decide⟩, ages, Settings.standard⟩

/-- The year in which school begins. -/
def firstYear : Year :=
  ⟨1, (Attributes.ofLife 1).record "1",
    ⟨0, [⟨"1", "You go to school.", 0⟩], [0, 0, 0, 0, 0, 1], false⟩⟩

/-- The year in which it ends. -/
def secondYear : Year :=
  ⟨2, firstYear.attributes.record "2",
    ⟨1, [⟨"2", "You leave school.", 0⟩], [0, 0, 0, 0, 0, 1], false⟩⟩

/-- At first there is nothing to leave. -/
theorem advance_first (scene : Scene) :
    ∃ scene', runner.advance 0 (.ofLife 1) scene = (.ok firstYear, scene') := by
  have hover : runner.isOver 0 (.ofLife 1) = false := rfl
  have hpool : runner.ages.get? 0 = some ⟨0, references⟩ := rfl
  have hcands : candidates runner.events ((Attributes.ofLife 1).sourceAt 0) references =
      .ok [⟨"1", Reference.plainWeight⟩] := rfl
  simp only [Runner.advance, hover, selectEvent_single hpool hcands]
  exact ⟨_, rfl⟩

/-- Then there is no going back. -/
theorem advance_second (scene : Scene) :
    ∃ scene', runner.advance 1 firstYear.attributes scene = (.ok secondYear, scene') := by
  have hover : runner.isOver 1 firstYear.attributes = false := rfl
  have hpool : runner.ages.get? 1 = some ⟨1, references⟩ := rfl
  have hcands : candidates runner.events (firstYear.attributes.sourceAt 1) references =
      .ok [⟨"2", Reference.plainWeight⟩] := rfl
  simp only [Runner.advance, hover, selectEvent_single hpool hcands]
  exact ⟨_, rfl⟩

theorem stepMany_two (now : Int) (scene : Scene) :
    ∃ s' scene', runner.stepMany 2 ⟨"p", some (.ofLife 1), 0, .active, now⟩ scene =
      (.ok [firstYear.entry, secondYear.entry], s', scene') := by
  obtain ⟨scene₁, hfirst⟩ := advance_first scene
  obtain ⟨scene₂, hsecond⟩ := advance_second scene₁
  have hage : firstYear.age = 1 := rfl
  have hgoesOn : firstYear.entry.isEnd = false ∧ secondYear.entry.isEnd = false := ⟨rfl, rfl⟩
  simp only [Runner.stepMany, Runner.activeAttributes, Runner.advanceMany, hfirst, hage, hsecond,
    hgoesOn]
  exact ⟨_, _, rfl⟩

/-- The house when the attributes have been handed out. -/
def ready : House :=
  (((House.opened ⟨[], 0⟩).serve runner ⟨"p", .start 0, ⟨[], 0⟩⟩).2.serve runner
    ⟨"p", .allocateManual "0 0 0 0 0", ⟨[], 0⟩⟩).2

theorem served : ∃ log h s, Served runner (.opened ⟨[], 0⟩) log h ∧
    h.store.find? "p" = some s ∧
    gameEntries "p" log = [firstYear.entry, secondYear.entry] := by
  have hready : Served runner (.opened ⟨[], 0⟩) _ ready := .call _ (.call _ .refl)
  have hfind : ready.store.find? "p" = some ⟨"p", some (.ofLife 1), 0, .active, 2⟩ := rfl
  obtain ⟨s', scene', hmany⟩ :=
    stepMany_two (ready.clock + 1) { ready.scene with chance := ⟨[], 0⟩ }
  have hserve := House.serve_stepMany_ok hfind hmany
  have hlog := Served.call ⟨"p", .stepMany 2, ⟨[], 0⟩⟩ hready
  rw [hserve] at hlog
  refine ⟨_, _, s', hlog, Store.find?_put_self .., ?_⟩
  rw [gameEntries_concat]
  rfl

end School

open School in
theorem drawn_once_and_only_after_school :
    ∃ log h s, Served runner (.opened ⟨[], 0⟩) log h ∧ h.store.find? "p" = some s ∧
      gameEntries "p" log = [firstYear.entry, secondYear.entry] ∧
      (gameEntries "p" log).countP (fun e => e.drawn? = some going.id) ≤ 1 ∧
      ∃ id ∈ ["1"], id ∈ [firstYear.entry].flatMap Entry.eventIds := by
  obtain ⟨log, h, s, hlog, hs, hentries⟩ := served
  have hgoing : runner.events.get? going.id = some going := rfl
  have hleaving : runner.events.get? leaving.id = some leaving := rfl
  have hids : ∀ id ∈ ["1"], IsItem id := by
    have hdigit : Text.isBlank '1' = false := by decide
    intro id hid
    obtain rfl := List.mem_singleton.mp hid
    exact ⟨⟨by simp, by simpa using hdigit, by simpa using hdigit⟩, by simp⟩
  have honce := (drawn_once_and_only_after hlog hs hgoing hids).1 rfl (List.mem_singleton_self _)
  have hafter := (drawn_once_and_only_after hlog hs hleaving hids).2 rfl [firstYear.entry]
    secondYear.entry [] hentries rfl
  exact ⟨log, h, s, hlog, hs, hentries, honce, hafter⟩

end LifePath
