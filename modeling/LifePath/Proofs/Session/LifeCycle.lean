import LifePath.Proofs.Session.Calls
import Mathlib.Logic.Relation

/-!
# The life cycle of a session

A game waits for its attributes, is played, and ends. `LifeCycle` ties the status of a session to
its attributes, to its age and to the entries of its game. Whether a game is over is asked twice in
a year, before an event is drawn and after its changes have applied; `advance_isEnd` says that the
two never disagree, and from it comes what a step keeps (`LifeCycle.step`). `Obeys` is what a single
call can do to a session in its life cycle.
-/

namespace LifePath

open Relation (ReflGen ReflTransGen)

/-- How the status of a session moves. -/
inductive Status.Next : Status → Status → Prop where
  | allocated : Next .pending .active
  | ended : Next .active .ended

namespace Runner

variable {r : Runner} {age : Int} {a : Attributes} {s s' : Session} {scene scene' : Scene}

/-- The entry of a year ends the game exactly if the game is over after the year. -/
theorem advance_isEnd {year : Year} (h : r.advance age a scene = (.ok year, scene')) :
    year.entry.isEnd = r.isOver year.age year.attributes := by
  rcases advance_ok h with
    ⟨hover, rfl, -⟩ | ⟨-, pool, -, ⟨references, chain, -, -, rfl⟩ | ⟨-, -, rfl, -⟩⟩
  · exact hover.symm
  · rfl
  · rfl

/-- The status after steps tells whether one of their entries has ended the game. -/
theorem Steps.status {entries : List Entry} (h : r.Steps s scene entries s' scene')
    (hactive : s.status = .active) :
    (s'.status = .active ∧ ∀ e ∈ entries, e.isEnd = false) ∨
      (s'.status = .ended ∧ ∃ e ∈ entries, e.isEnd = true) := by
  induction h with
  | refl => exact .inl ⟨hactive, by simp⟩
  | @cons s s₁ s' scene scene₁ scene' e entries hstep hrest ih =>
    obtain ⟨-, a, year, scene₂, -, -, rfl, rfl⟩ := step_ok hstep
    cases hend : year.entry.isEnd with
    | true =>
      -- nobody takes a step from here on
      cases hrest with
      | refl => exact .inr ⟨by simp [hend], year.entry, by simp, hend⟩
      | cons hnext _ =>
        have hactive := (step_ok hnext).1
        simp [hend] at hactive
    | false =>
      rcases ih (by simp [hend]) with ⟨hstatus, hall⟩ | ⟨hstatus, e, he, hisEnd⟩
      · refine .inl ⟨hstatus, ?_⟩
        intro e he
        rcases List.mem_cons.mp he with rfl | he
        · exact hend
        · exact hall e he
      · exact .inr ⟨hstatus, e, List.mem_cons_of_mem _ he, hisEnd⟩

end Runner

/-! ## A session in its life cycle -/

/-- What holds of a session with the entries of its game so far. -/
structure LifeCycle (r : Runner) (s : Session) (entries : List Entry) : Prop where
  /-- a session in a store has been begun -/
  begun : s.status ≠ .created
  /-- attributes are missing exactly while they are waited for -/
  pending : s.attributes = none ↔ s.status = .pending
  /-- nothing is told before they are there -/
  waiting : s.status = .pending → entries = []
  /-- a game that is played is not over, unless no year has been played yet -/
  active : s.status = .active → ∃ a, s.attributes = some a ∧
    (r.isOver s.age a = false ∨ entries = [])
  /-- a game that has ended is over -/
  ended : s.status = .ended → ∃ a, s.attributes = some a ∧ r.isOver s.age a = true
  /-- only the last entry can end the game -/
  lastEnds : ∀ e ∈ entries.dropLast, e.isEnd = false
  /-- the game has ended exactly if an entry has ended it -/
  endTold : (∃ e ∈ entries, e.isEnd = true) ↔ s.status = .ended

namespace LifeCycle

variable {r : Runner} {s s' : Session} {entries : List Entry} {scene scene' : Scene}

theorem begin (r : Runner) (identity : String) (startAge now : Int) :
    LifeCycle r ((Session.create identity now).beginAt startAge now) [] := by
  constructor <;> simp [Session.beginAt]

theorem touch (h : LifeCycle r s entries) (now : Int) : LifeCycle r (s.touch now) entries :=
  ⟨h.begun, h.pending, h.waiting, h.active, h.ended, h.lastEnds, h.endTold⟩

theorem allocate {a : Attributes} (hunset : s.attributes = none) (h : LifeCycle r s entries) :
    LifeCycle r { s with attributes := some a, status := .active } entries := by
  obtain rfl := h.waiting (h.pending.mp hunset)
  constructor <;> simp

/-- While a game is played, none of its entries has ended it. -/
theorem isEnd_eq_false (h : LifeCycle r s entries) (hactive : s.status = .active) :
    ∀ e ∈ entries, e.isEnd = false := by
  intro e he
  cases hend : e.isEnd with
  | false => rfl
  | true =>
    have hended := h.endTold.mp ⟨e, he, hend⟩
    rw [hactive] at hended
    simp at hended

/-- A step that succeeds keeps the life cycle. -/
theorem step {e : Entry} (hstep : r.step s scene = (.ok e, s', scene'))
    (h : LifeCycle r s entries) : LifeCycle r s' (entries ++ [e]) := by
  obtain ⟨hactive, a, year, scene₁, -, hyear, rfl, rfl⟩ := Runner.step_ok hstep
  have hnone := h.isEnd_eq_false hactive
  have hover := Runner.advance_isEnd hyear
  have hlast : ∀ e ∈ (entries ++ [year.entry]).dropLast, e.isEnd = false := by
    simpa using hnone
  cases hend : year.entry.isEnd with
  | true =>
    rw [hend] at hover
    refine ⟨by simp, by simp, by simp, by simp, ?_, hlast, ?_⟩
    · exact fun _ => ⟨year.attributes, rfl, hover.symm⟩
    · simp [hend]
  | false =>
    rw [hend] at hover
    refine ⟨by simp, by simp, by simp, ?_, by simp, hlast, ?_⟩
    · exact fun _ => ⟨year.attributes, rfl, .inl hover.symm⟩
    · simpa [hend] using hnone

end LifeCycle

/-! ## A call in the life cycle -/

/-- What a call that is no start does to the session of its caller. -/
structure Obeys (w : Wish) (s : Session) (answer : Answer) (s' : Session) : Prop where
  /-- the status stays or moves on by one -/
  status : ReflGen Status.Next s.status s'.status
  /-- exactly the call that ends the game is told an entry that ends it -/
  ending : (∃ e ∈ answer.entries, e.isEnd = true) ↔ s.status ≠ .ended ∧ s'.status = .ended
  /-- a call that fails changes nothing of the game -/
  failing : ∀ fault, answer = .error fault →
    s'.age = s.age ∧ s'.attributes = s.attributes ∧ s'.status = s.status
  /-- nothing is played or handed out once the game has ended -/
  onceEnded : s.status = .ended → answer = .error w.refusal

theorem Runner.Moved.obeys {r : Runner} {w : Wish} {s s' : Session} {answer : Answer}
    {entries : List Entry} (hmoved : r.Moved w s answer s') (h : LifeCycle r s entries) :
    Obeys w s answer s' := by
  cases hmoved with
  | refused onceEnded =>
    refine ⟨.refl, by simp [Answer.entries], fun _ _ => ⟨rfl, rfl, rfl⟩, fun hended => ?_⟩
    obtain ⟨a, ha, -⟩ := h.ended hended
    rw [onceEnded hended (by simp [ha])]
  | allocated unset history =>
    have hpending := h.pending.mp unset
    refine ⟨?_, by simp [Answer.entries], by simp, by simp [hpending]⟩
    exact .single (hpending ▸ .allocated)
  | played active steps =>
    refine ⟨?_, ?_, by simp, by simp [active]⟩
    · rcases steps.status active with ⟨hstatus, -⟩ | ⟨hstatus, -⟩
      · rw [active, hstatus]
      · rw [active, hstatus]
        exact .single .ended
    · rcases steps.status active with ⟨hstatus, hall⟩ | ⟨hstatus, e, he, hend⟩
      · simpa [hstatus, Answer.entries] using hall
      · exact ⟨fun _ => ⟨by simp [active], hstatus⟩, fun _ => ⟨e, he, hend⟩⟩

/-! ## Runs of calls -/

namespace Served

variable {r : Runner} {chance : Chance} {log more : List (Call × Answer)} {h h' : House}
  {identity : String} {s : Session}

theorem lifeCycle (hlog : Served r (.opened chance) log h)
    (hs : h.store.find? identity = some s) : LifeCycle r s (gameEntries identity log) :=
  hlog.keeps (LifeCycle.begin r) (fun now hs => hs.touch now) (fun hunset _ hs => hs.allocate hunset)
    LifeCycle.step hs

/-- A call that is no start finds no session and changes nothing, or its caller's session obeys. -/
theorem serve_obeys (hlog : Served r (.opened chance) log h) {c : Call}
    (hwish : c.wish.isStart = false) :
    (h.store.find? c.identity = none ∧
      (h.serve r c).1 = .error (.sessionNotFound c.identity) ∧
      (h.serve r c).2.store = h.store) ∨
    ∃ s s', h.store.find? c.identity = some s ∧
      (h.serve r c).2.store.find? c.identity = some s' ∧ Obeys c.wish s (h.serve r c).1 s' := by
  rcases h.serve_cases r c with
    ⟨startAge, hstart, -⟩ | ⟨-, hnone | ⟨s, s', hs, hstore, hmoved⟩⟩
  · simp [hstart, Wish.isStart] at hwish
  · exact .inl hnone
  · refine .inr ⟨s, s', hs, by rw [hstore, Store.find?_put_self], ?_⟩
    have hobeys := hmoved.obeys ((hlog.lifeCycle hs).touch (h.clock + 1))
    exact ⟨hobeys.status, hobeys.ending, hobeys.failing, hobeys.onceEnded⟩

/-- Until its player starts anew, the status of a session only moves on. -/
theorem status_moves_on (hlog : Served r (.opened chance) log h)
    (hs : h.store.find? identity = some s) (hmore : Served r h more h')
    (hstart : ∀ event ∈ more, event.1.identity = identity → event.1.wish.isStart = false) :
    ∃ s', h'.store.find? identity = some s' ∧
      ReflTransGen Status.Next s.status s'.status := by
  induction hmore with
  | refl => exact ⟨s, hs, .refl⟩
  | @call more h₁ c hmore ih =>
    obtain ⟨s₁, hs₁, hmoved⟩ := ih fun event hevent =>
      hstart event (List.mem_append_left _ hevent)
    by_cases hid : c.identity = identity
    · subst hid
      have hwish := hstart (c, (h₁.serve r c).1) (by simp) rfl
      rcases (hlog.trans hmore).serve_obeys hwish with ⟨hnone, -⟩ | ⟨s₂, s', hs₂, hs', hobeys⟩
      · rw [hs₁] at hnone
        simp at hnone
      · obtain rfl : s₁ = s₂ := Option.some.inj (hs₁.symm.trans hs₂)
        exact ⟨s', hs', hmoved.trans hobeys.status.to_reflTransGen⟩
    · exact ⟨s₁, by rw [h₁.find?_serve_of_ne r (Ne.symm hid), hs₁], hmoved⟩

end Served

/-- **Sessions follow their life cycle.** Whatever calls are served, in any order, with any chance
and with any failures among them:

* every live session is in its life cycle, with the entries of its game;
* a call leaves the sessions of all others alone; a start begins a game that waits for attributes;
  any other call finds no session and changes nothing, or the session obeys;
* until its player starts anew, the status of a session only moves from waiting to being played and
  from there to its end. -/
theorem sessions_follow_lifeCycle (r : Runner) {chance : Chance} {log : List (Call × Answer)}
    {h : House} (hlog : Served r (.opened chance) log h) :
    (∀ identity s, h.store.find? identity = some s →
      LifeCycle r s (gameEntries identity log)) ∧
    (∀ c : Call,
      (∀ identity, identity ≠ c.identity →
        (h.serve r c).2.store.find? identity = h.store.find? identity) ∧
      (∀ startAge, c.wish = .start startAge → ∃ s',
        (h.serve r c).2.store.find? c.identity = some s' ∧
          s'.age = startAge ∧ s'.attributes = none ∧ s'.status = .pending) ∧
      (c.wish.isStart = false →
        (h.store.find? c.identity = none ∧
          (h.serve r c).1 = .error (.sessionNotFound c.identity) ∧
          (h.serve r c).2.store = h.store) ∨
        ∃ s s', h.store.find? c.identity = some s ∧
          (h.serve r c).2.store.find? c.identity = some s' ∧
          Obeys c.wish s (h.serve r c).1 s')) ∧
    ∀ more h' identity s, Served r h more h' →
      (∀ event ∈ more, event.1.identity = identity → event.1.wish.isStart = false) →
      h.store.find? identity = some s →
      ∃ s', h'.store.find? identity = some s' ∧
        ReflTransGen Status.Next s.status s'.status := by
  refine ⟨fun identity s hs => hlog.lifeCycle hs, fun c => ⟨fun identity hne => ?_, ?_, ?_⟩, ?_⟩
  · exact h.find?_serve_of_ne r hne
  · intro startAge hwish
    rcases h.serve_cases r c with ⟨startAge', hwish', -, hstore⟩ | ⟨hstart, -⟩
    · obtain rfl : startAge = startAge' := Wish.start.inj (hwish.symm.trans hwish')
      exact ⟨_, by rw [hstore, Store.find?_put_self], rfl, rfl, rfl⟩
    · simp [hwish, Wish.isStart] at hstart
  · exact hlog.serve_obeys
  · intro more h' identity s hmore hstart hs
    exact hlog.status_moves_on hs hmore hstart

/-- A batch ends the game before all its years are played, and then nothing more is played. -/
theorem sessions_follow_lifeCycle_uneventful :
    let numbers : List Int := [0, 0, 0, 0, 0, 1]
    ∃ log h s, Served Runner.uneventful (.opened ⟨[], 0⟩) log h ∧
      log.map (·.2) = [.ok [], .ok [],
        .ok [⟨0, [], numbers, false⟩, ⟨1, [], numbers, true⟩], .error .alreadyEnded] ∧
      h.store.find? "p" = some s ∧ s.status = .ended ∧
      LifeCycle Runner.uneventful s (gameEntries "p" log) := by
  intro numbers
  have hlog := Served.call ⟨"p", .step, ⟨[], 0⟩⟩ (.call ⟨"p", .stepMany 3, ⟨[], 0⟩⟩
    (.call ⟨"p", .allocateManual "0 0 0 0 0", ⟨[], 0⟩⟩ (.call ⟨"p", .start 0, ⟨[], 0⟩⟩
      (.refl : Served Runner.uneventful (.opened ⟨[], 0⟩) [] (.opened ⟨[], 0⟩)))))
  refine ⟨_, _, _, hlog, by rfl, by rfl, by rfl, ?_⟩
  exact (sessions_follow_lifeCycle _ hlog).1 "p" _ (by rfl)

end LifePath
