import LifePath.Proofs.Story.Record

/-!
# Calls to the house

Players call the house one after the other: they start games, have attributes handed out, and play
years one at a time or many at once. Every call brings its own chance, and any of them can fail.
`Served` is a run of calls with what each of them was told, and `gameEntries` are the entries that a
player was told since the last start.

`House.serve_cases` says once what a call can do to the store, and `Runner.Moved` what it can do to
a session. `Served.keeps` is the induction over runs: what holds of a session that has just been
started, and is kept by noting activity, by handing out attributes and by a single step, holds of
every live session together with the entries of its game.
-/

namespace LifePath

/-- What a player can ask the house for. -/
inductive Wish where
  | start (startAge : Int)
  | allocateRandom
  | allocateManual (raw : String)
  | step
  | stepMany (years : Nat)

/-- Whether a new game is asked for. -/
def Wish.isStart : Wish → Bool
  | .start _ => true
  | _ => false

/-- A call: who makes it, what is asked for, and the chance that it meets. -/
structure Call where
  identity : String
  wish : Wish
  chance : Chance

/-- What a call is told: a fault, or the entries of the years that were played. Starting a game and
handing out attributes give no entries. -/
abbrev Answer := Except Fault (List Entry)

/-- The entries in an answer. -/
def Answer.entries : Answer → List Entry
  | .ok entries => entries
  | .error _ => []

namespace House

/-- Serves a call. -/
def serve (r : Runner) (h : House) (c : Call) : Answer × House :=
  let h := { h with scene := { h.scene with chance := c.chance } }
  match c.wish with
  | .start startAge => (.ok [], h.start c.identity startAge)
  | .allocateRandom => (h.allocateRandom r c.identity).map (·.map fun _ => []) id
  | .allocateManual raw => (h.allocateManual r c.identity raw).map (·.map fun _ => []) id
  | .step => (h.step r c.identity).map (·.map fun e => [e]) id
  | .stepMany years => h.stepMany r c.identity years

end House

/-- A run of calls, with what each was told, from one state of the house to another. -/
inductive Served (r : Runner) (h₀ : House) : List (Call × Answer) → House → Prop where
  | refl : Served r h₀ [] h₀
  | call {log : List (Call × Answer)} {h : House} (c : Call) :
      Served r h₀ log h → Served r h₀ (log ++ [(c, (h.serve r c).1)]) (h.serve r c).2

/-- The entries of a player's game after one more call. -/
def entriesAfter (identity : String) (entries : List Entry) (event : Call × Answer) : List Entry :=
  if event.1.identity = identity then
    if event.1.wish.isStart then [] else entries ++ event.2.entries
  else entries

/-- The entries that a player was told since the last start. -/
def gameEntries (identity : String) (log : List (Call × Answer)) : List Entry :=
  log.foldl (entriesAfter identity) []

theorem gameEntries_concat (identity : String) (log : List (Call × Answer)) (c : Call)
    (answer : Answer) :
    gameEntries identity (log ++ [(c, answer)]) =
      entriesAfter identity (gameEntries identity log) (c, answer) := by
  simp [gameEntries]

theorem Served.trans {r : Runner} {h₀ h h' : House} {log more : List (Call × Answer)}
    (hlog : Served r h₀ log h) (hmore : Served r h more h') : Served r h₀ (log ++ more) h' := by
  induction hmore with
  | refl => simpa using hlog
  | call c _ ih =>
    rw [← List.append_assoc]
    exact .call c ih

/-! ## What a call can do to a session -/

/-- The fault with which a wish is refused once the game is over. -/
def Wish.refusal : Wish → Fault
  | .step | .stepMany _ => .alreadyEnded
  | _ => .alreadyAllocated

namespace Runner

variable {r : Runner} {s s' : Session} {scene scene' : Scene}

/-- What a call other than a start can do to a session, and what it is told. -/
inductive Moved (r : Runner) : Wish → Session → Answer → Session → Prop where
  /-- nothing -/
  | refused {w : Wish} {s : Session} {fault : Fault}
      (onceEnded : s.status = .ended → s.attributes.isSome → fault = w.refusal) :
      Moved r w s (.error fault) s
  /-- hand out attributes, with an empty history -/
  | allocated {w : Wish} {s : Session} {a : Attributes} (unset : s.attributes = none)
      (history : a.history = []) :
      Moved r w s (.ok []) { s with attributes := some a, status := .active }
  /-- take single steps -/
  | played {w : Wish} {s s' : Session} {entries : List Entry} {scene scene' : Scene}
      (active : s.status = .active) (steps : r.Steps s scene entries s' scene') :
      Moved r w s (.ok entries) s'

/-- Whatever an action gives and does to a session, also where it fails, is what a wish can do;
`tell` makes an answer of what it gives. -/
def Grants {α : Type} (r : Runner) (w : Wish) (tell : α → List Entry)
    (act : Session → Scene → Except Fault α × Session × Scene) : Prop :=
  ∀ s scene, r.Moved w s ((act s scene).1.map tell) (act s scene).2.1

/-- Attributes cannot be handed out at random twice; the session comes back as it was. -/
theorem allocateRandom_error {fault : Fault}
    (h : r.allocateRandom s scene = (.error fault, s', scene')) :
    fault = .alreadyAllocated ∧ s' = s := by
  unfold allocateRandom at h
  split at h
  · simp only [Prod.mk.injEq, Except.error.injEq] at h
    exact ⟨h.1.symm, h.2.1.symm⟩
  · generalize Attributes.random r.settings scene.chance = dealt at h
    obtain ⟨a, chance⟩ := dealt
    simp at h

/-- Attributes that a player wrote are refused if there are some already, or for what was written;
the session comes back as it was. -/
theorem allocateManual_error {raw : String} {fault : Fault}
    (h : r.allocateManual raw s scene = (.error fault, s', scene')) :
    (s.attributes.isSome → fault = .alreadyAllocated) ∧ s' = s := by
  unfold allocateManual at h
  split at h
  · simp only [Prod.mk.injEq, Except.error.injEq] at h
    exact ⟨fun _ => h.1.symm, h.2.1.symm⟩
  · next hnone =>
    split at h
    · simp only [Prod.mk.injEq] at h
      exact ⟨fun hsome => absurd hsome hnone, h.2.1.symm⟩
    · simp at h

theorem allocateRandom_grants (r : Runner) :
    r.Grants .allocateRandom (fun _ => []) r.allocateRandom := by
  intro s scene
  rcases h : r.allocateRandom s scene with ⟨fault | a, s', scene'⟩
  · obtain ⟨rfl, rfl⟩ := allocateRandom_error h
    exact .refused fun _ _ => rfl
  · obtain ⟨hunset, hhistory, rfl⟩ := allocateRandom_ok h
    exact .allocated hunset hhistory

theorem allocateManual_grants (r : Runner) (raw : String) :
    r.Grants (.allocateManual raw) (fun _ => []) (r.allocateManual raw) := by
  intro s scene
  rcases h : r.allocateManual raw s scene with ⟨fault | a, s', scene'⟩
  · obtain ⟨hallocated, rfl⟩ := allocateManual_error h
    exact .refused fun _ => hallocated
  · obtain ⟨hunset, hhistory, rfl⟩ := allocateManual_ok h
    exact .allocated hunset hhistory

/-- A game that is over has no active attributes. -/
theorem activeAttributes_of_ended (h : s.status = .ended) :
    activeAttributes s = .error .alreadyEnded := by
  simp [activeAttributes, h]

theorem step_grants (r : Runner) : r.Grants .step (fun e => [e]) r.step := by
  intro s scene
  rcases h : r.step s scene with ⟨fault | e, s', scene'⟩
  · obtain rfl := step_error_session h
    refine .refused fun hended _ => ?_
    simp only [step, activeAttributes_of_ended hended, Prod.mk.injEq, Except.error.injEq] at h
    exact h.1.symm
  · exact .played (step_ok h).1 (.cons h (.refl ..))

theorem stepMany_grants (r : Runner) (years : Nat) :
    r.Grants (.stepMany years) id (r.stepMany years) := by
  intro s scene
  rcases h : r.stepMany years s scene with ⟨fault | entries, s', scene'⟩
  · obtain rfl := stepMany_error_session h
    refine .refused fun hended _ => ?_
    simp only [stepMany, activeAttributes_of_ended hended, Prod.mk.injEq, Except.error.injEq] at h
    exact h.1.symm
  · obtain ⟨a, age, a', scene₁, ha, -, -⟩ := settle_of_stepMany h
    exact .played (active_of_activeAttributes ha).1 (.of_stepMany h)

end Runner

/-! ## What a call can do to the store -/

namespace House

variable {r : Runner}

/-- A move fails without a session. Otherwise it touches the session, answers what the action gives
and keeps the session that comes back. -/
theorem move_cases {α : Type} (h : House) (identity : String)
    (act : Session → Scene → Except Fault α × Session × Scene) :
    (h.store.find? identity = none ∧
      (h.move identity act).1 = .error (.sessionNotFound identity) ∧
      (h.move identity act).2.store = h.store) ∨
    ∃ s, h.store.find? identity = some s ∧
      (h.move identity act).1 = (act (s.touch (h.clock + 1)) h.scene).1 ∧
      (h.move identity act).2.store =
        h.store.put identity (act (s.touch (h.clock + 1)) h.scene).2.1 := by
  cases hs : h.store.find? identity with
  | none =>
    have hs' : h.tick.store.find? identity = none := hs
    have hmove : h.move identity act = (.error (.sessionNotFound identity), h.tick) := by
      simp only [move, Store.withSession, hs']
    exact .inl ⟨rfl, by rw [hmove], by rw [hmove]; rfl⟩
  | some s =>
    have hmove : h.move identity act = _ := House.move_eq hs rfl
    exact .inr ⟨s, rfl, by rw [hmove], by rw [hmove]⟩

/-- A call finds no session, or does to it what its wish can do. -/
def Serves (r : Runner) (h : House) (c : Call) (answer : Answer) (store : Store) : Prop :=
  (h.store.find? c.identity = none ∧ answer = .error (.sessionNotFound c.identity) ∧
    store = h.store) ∨
  ∃ s s', h.store.find? c.identity = some s ∧ store = h.store.put c.identity s' ∧
    r.Moved c.wish (s.touch (h.clock + 1)) answer s'

theorem serves_of_grants {α : Type} {h : House} {c : Call} {tell : α → List Entry}
    {act : Session → Scene → Except Fault α × Session × Scene} (hact : r.Grants c.wish tell act) :
    h.Serves r c ((h.move c.identity act).1.map tell) (h.move c.identity act).2.store := by
  rcases h.move_cases c.identity act with ⟨hnone, hanswer, hstore⟩ | ⟨s, hs, hanswer, hstore⟩
  · exact .inl ⟨hnone, by rw [hanswer]; rfl, hstore⟩
  · exact .inr ⟨s, _, hs, hstore, by rw [hanswer]; exact hact ..⟩

/-- A call starts a game, finds no session, or does to the session what its wish can do. -/
theorem serve_cases (r : Runner) (h : House) (c : Call) :
    (∃ startAge, c.wish = .start startAge ∧ (h.serve r c).1 = .ok [] ∧
      (h.serve r c).2.store = h.store.put c.identity
        ((Session.create c.identity (h.clock + 1)).beginAt startAge (h.clock + 1))) ∨
    c.wish.isStart = false ∧ h.Serves r c (h.serve r c).1 (h.serve r c).2.store := by
  obtain ⟨identity, wish, chance⟩ := c
  -- the chance that a call brings changes neither the store nor the clock
  generalize hh : ({ h with scene := { h.scene with chance } } : House) = h₁
  have hserves : ∀ {c answer store}, h₁.Serves r c answer store → h.Serves r c answer store := by
    intro c answer store
    subst hh
    exact id
  cases wish with
  | start startAge =>
    subst hh
    exact .inl ⟨startAge, rfl, rfl, rfl⟩
  | allocateRandom =>
    refine .inr ⟨rfl, hserves ?_⟩
    simp only [serve, hh]
    exact serves_of_grants (c := ⟨identity, .allocateRandom, chance⟩) r.allocateRandom_grants
  | allocateManual raw =>
    refine .inr ⟨rfl, hserves ?_⟩
    simp only [serve, hh]
    exact serves_of_grants (c := ⟨identity, .allocateManual raw, chance⟩)
      (r.allocateManual_grants raw)
  | step =>
    refine .inr ⟨rfl, hserves ?_⟩
    simp only [serve, hh]
    exact serves_of_grants (c := ⟨identity, .step, chance⟩) r.step_grants
  | stepMany years =>
    refine .inr ⟨rfl, hserves ?_⟩
    simp only [serve, hh]
    have hmany := serves_of_grants (h := h₁) (c := ⟨identity, .stepMany years, chance⟩)
      (r.stepMany_grants years)
    rw [Except.map_id] at hmany
    exact hmany

/-- A call leaves the sessions of all others alone. -/
theorem find?_serve_of_ne (r : Runner) (h : House) {c : Call} {identity : String}
    (hne : identity ≠ c.identity) :
    (h.serve r c).2.store.find? identity = h.store.find? identity := by
  rcases h.serve_cases r c with ⟨startAge, -, -, hstore⟩ | ⟨-, ⟨-, -, hstore⟩ | ⟨s, s', -, hstore, -⟩⟩
  · rw [hstore, Store.find?_put_of_ne _ hne]
  · rw [hstore]
  · rw [hstore, Store.find?_put_of_ne _ hne]

end House

/-! ## What holds of every game -/

/-- What holds of a session that has just been started, and is kept by noting activity, by handing
out attributes and by a single step, holds of every live session and the entries of its game. -/
theorem Served.keeps {r : Runner} {chance : Chance} {log : List (Call × Answer)} {h : House}
    {P : Session → List Entry → Prop}
    (begun : ∀ identity startAge now, P ((Session.create identity now).beginAt startAge now) [])
    (touched : ∀ {s entries} now, P s entries → P (s.touch now) entries)
    (allocated : ∀ {s a entries}, s.attributes = none → a.history = [] → P s entries →
      P { s with attributes := some a, status := .active } entries)
    (stepped : ∀ {s s' e entries scene scene'}, r.step s scene = (.ok e, s', scene') →
      P s entries → P s' (entries ++ [e]))
    (hlog : Served r (.opened chance) log h) {identity : String} {s : Session}
    (hs : h.store.find? identity = some s) : P s (gameEntries identity log) := by
  have hsteps : ∀ {s s' entries more scene scene'}, r.Steps s scene more s' scene' →
      P s entries → P s' (entries ++ more) := by
    intro s s' entries more scene scene' hsteps
    induction hsteps generalizing entries with
    | refl => simp
    | @cons s s₁ s' scene scene₁ scene' e more hstep _ ih =>
      intro hP
      rw [List.append_cons]
      exact ih (stepped hstep hP)
  induction hlog generalizing s with
  | refl => simp [House.opened, Store.empty, Store.find?] at hs
  | @call log h c hlog ih =>
    rw [gameEntries_concat, entriesAfter]
    by_cases hid : c.identity = identity
    · subst hid
      rw [if_pos rfl]
      rcases h.serve_cases r c with
        ⟨startAge, hwish, -, hstore⟩ | ⟨hwish, ⟨hnone, -, hstore⟩ | ⟨s₀, s', hs₀, hstore, hmoved⟩⟩
      · rw [hstore, Store.find?_put_self] at hs
        obtain rfl := Option.some.inj hs
        rw [hwish]
        exact begun ..
      · rw [hstore, hnone] at hs
        simp at hs
      · rw [hstore, Store.find?_put_self] at hs
        obtain rfl := Option.some.inj hs
        have hP := touched (h.clock + 1) (ih hs₀)
        rw [hwish]
        generalize (h.serve r c).1 = answer at hmoved
        cases hmoved with
        | refused => simpa [Answer.entries] using hP
        | allocated unset history => simpa [Answer.entries] using allocated unset history hP
        | played active steps => exact hsteps steps hP
    · rw [if_neg hid]
      rw [h.find?_serve_of_ne r (Ne.symm hid)] at hs
      exact ih hs

end LifePath
