import LifePath.House

/-!
# Many years at once, and one after the other

`Runner.stepMany` lives years on copies of the age and the attributes and writes the session once,
at the end; `Runner.step` writes it after every year and reads it again before the next. The main
statement, at the end of this file, is that nobody can tell the two apart.

`step_cases` and `stepMany_cases` say once what either of them can do. What ties them together is
`Session.playing`. The copies that a batch has in hand after some years are at any time those of the
session that single steps would have left (`advanceMany_steps`), up to the year that ends the game,
and a batch that fails does so in the year in which the single step fails (`advanceMany_error`).
-/

namespace LifePath

/-- The session while its game is under way at an age and with attributes. -/
def Session.playing (s : Session) (age : Int) (a : Attributes) : Session :=
  { s with age, attributes := some a, status := .active }

namespace Runner

variable {r : Runner} {s s' s₁ : Session} {scene scene' scene₁ : Scene}

/-! ## Single steps -/

/-- Single steps one after the other, all of which succeed, with their entries in order. The
stream of chance goes on from each to the next. -/
inductive Steps (r : Runner) : Session → Scene → List Entry → Session → Scene → Prop where
  | refl (s : Session) (scene : Scene) : Steps r s scene [] s scene
  | cons {s s₁ s' : Session} {scene scene₁ scene' : Scene} {e : Entry} {entries : List Entry} :
      r.step s scene = (.ok e, s₁, scene₁) → Steps r s₁ scene₁ entries s' scene' →
      Steps r s scene (e :: entries) s' scene'

/-- A session with active attributes is playing with them. -/
theorem playing_of_activeAttributes {a : Attributes} (h : activeAttributes s = .ok a) :
    s.playing s.age a = s := by
  obtain ⟨identity, attributes, age, status, lastActive⟩ := s
  cases status <;> cases attributes <;> simp_all [activeAttributes, Session.playing]

theorem active_of_activeAttributes {a : Attributes} (h : activeAttributes s = .ok a) :
    s.status = .active ∧ s.attributes = some a := by
  rw [← playing_of_activeAttributes h]
  exact ⟨rfl, rfl⟩

/-- A step is refused, or its year fails, and the session comes back as it was; or the step writes
where its year has led. -/
theorem step_cases (r : Runner) (s : Session) (scene : Scene) :
    (∃ fault, activeAttributes s = .error fault ∧ r.step s scene = (.error fault, s, scene)) ∨
    ∃ a, activeAttributes s = .ok a ∧
      ((∃ fault scene₁, r.advance s.age a scene = (.error fault, scene₁) ∧
          r.step s scene = (.error fault, s, scene₁)) ∨
        ∃ year scene₁, r.advance s.age a scene = (.ok year, scene₁) ∧
          r.step s scene =
            (.ok year.entry, commitStep s year.age year.attributes year.entry scene₁)) := by
  cases ha : activeAttributes s with
  | error fault => exact .inl ⟨fault, rfl, by simp only [step, ha]⟩
  | ok a =>
    refine .inr ⟨a, rfl, ?_⟩
    rcases hyear : r.advance s.age a scene with ⟨fault | year, scene₁⟩
    · exact .inl ⟨fault, scene₁, rfl, by simp only [step, ha, hyear]⟩
    · exact .inr ⟨year, scene₁, rfl, by simp only [step, ha, hyear]⟩

/-- A step that fails gives the session back as it was. -/
theorem step_error_session {fault : Fault} (h : r.step s scene = (.error fault, s', scene')) :
    s' = s := by
  rcases r.step_cases s scene with
    ⟨f, -, hstep⟩ | ⟨a, -, ⟨f, scene₁, -, hstep⟩ | ⟨year, scene₁, -, hstep⟩⟩
  · exact congrArg (·.2.1) (h.symm.trans hstep)
  · exact congrArg (·.2.1) (h.symm.trans hstep)
  · simp [hstep] at h

/-- A step that succeeds has lived a year of a game under way and writes where that year has led. -/
theorem step_ok {e : Entry} (h : r.step s scene = (.ok e, s', scene')) :
    s.status = .active ∧ ∃ a year scene₁, s.attributes = some a ∧
      r.advance s.age a scene = (.ok year, scene₁) ∧ e = year.entry ∧
      s' = { s with
        age := year.age
        attributes := some year.attributes
        status := if year.entry.isEnd then .ended else .active } := by
  rcases r.step_cases s scene with
    ⟨f, -, hstep⟩ | ⟨a, ha, ⟨f, scene₁, -, hstep⟩ | ⟨year, scene₁, hyear, hstep⟩⟩
  · simp [hstep] at h
  · simp [hstep] at h
  · obtain ⟨hstatus, hattributes⟩ := active_of_activeAttributes ha
    rw [hstep, Prod.mk.injEq, Except.ok.injEq] at h
    obtain ⟨rfl, hcommit⟩ := h
    obtain rfl := congrArg Prod.fst hcommit
    refine ⟨hstatus, a, year, scene₁, hattributes, hyear, rfl, ?_⟩
    cases hend : year.entry.isEnd with
    | true => simp [commitStep, hend]
    | false => simp [commitStep, hend, hstatus]

theorem step_playing_error {age : Int} {a : Attributes} {fault : Fault}
    (h : r.advance age a scene = (.error fault, scene₁)) :
    r.step (s.playing age a) scene = (.error fault, s.playing age a, scene₁) := by
  simp only [step, Session.playing, activeAttributes, h]

theorem step_playing {age : Int} {a : Attributes} {year : Year}
    (h : r.advance age a scene = (.ok year, scene₁)) :
    r.step (s.playing age a) scene = (.ok year.entry,
      commitStep (s.playing age a) year.age year.attributes year.entry scene₁) := by
  simp only [step, Session.playing, activeAttributes, h]

/-- A year that does not end the game leaves the session playing. -/
theorem step_playing_goesOn {age : Int} {a : Attributes} {year : Year}
    (h : r.advance age a scene = (.ok year, scene₁)) (hend : year.entry.isEnd = false) :
    r.step (s.playing age a) scene =
      (.ok year.entry, s.playing year.age year.attributes, scene₁) := by
  rw [step_playing h]
  simp [commitStep, hend, Session.playing]

/-! ## The loop of a batch -/

/-- The session and the scene after a batch with these entries, which has brought the game to an
age and attributes. -/
def settle (s : Session) (age : Int) (a : Attributes) (entries : List Entry) (scene : Scene) :
    Session × Scene :=
  match entries.getLast? with
  | none => (s.playing age a, scene)
  | some last => commitStep (s.playing age a) age a last scene

/-- An entry that does not end the game makes no difference to what is written. -/
theorem settle_cons {age : Int} {a : Attributes} {e : Entry} (hend : e.isEnd = false)
    (entries : List Entry) :
    settle s age a (e :: entries) scene = settle s age a entries scene := by
  cases entries with
  | nil => simp [settle, commitStep, hend, Session.playing]
  | cons e' rest => simp [settle, List.getLast?_cons_cons]

/-- The attributes and the age that are written over do not matter. -/
theorem commitStep_playing (age age₁ : Int) (a a₁ : Attributes) (last : Entry) :
    commitStep (s.playing age₁ a₁) age a last scene
      = commitStep (s.playing age a) age a last scene := by
  unfold commitStep
  split <;> rfl

/-- A batch of one more year that succeeds has lived a year, and either that year has ended the
game or the rest of the batch has succeeded. -/
theorem advanceMany_ok {n : Nat} {age age' : Int} {a a' : Attributes} {entries : List Entry}
    (h : r.advanceMany (n + 1) age a scene = (.ok (entries, age', a'), scene')) :
    ∃ year scene₁, r.advance age a scene = (.ok year, scene₁) ∧
      ((year.entry.isEnd = true ∧ entries = [year.entry] ∧ age' = year.age ∧
          a' = year.attributes ∧ scene' = scene₁) ∨
        (year.entry.isEnd = false ∧ ∃ rest, entries = year.entry :: rest ∧
          r.advanceMany n year.age year.attributes scene₁ = (.ok (rest, age', a'), scene'))) := by
  unfold advanceMany at h
  split at h
  · simp at h
  · next year scene₁ hyear =>
    refine ⟨year, scene₁, hyear, ?_⟩
    split at h
    · next hend =>
      simp only [Prod.mk.injEq, Except.ok.injEq] at h
      obtain ⟨⟨rfl, rfl, rfl⟩, rfl⟩ := h
      exact .inl ⟨hend, rfl, rfl, rfl, rfl⟩
    · next hend =>
      split at h
      · simp at h
      · next rest age₁ a₁ scene₂ hrest =>
        simp only [Prod.mk.injEq, Except.ok.injEq] at h
        obtain ⟨⟨rfl, rfl, rfl⟩, rfl⟩ := h
        exact .inr ⟨by simpa using hend, rest, rfl, hrest⟩

/-- A batch that succeeds takes the steps of a session that is playing, and the session that they
leave is the one that the batch writes. -/
theorem advanceMany_steps (s : Session) :
    ∀ (n : Nat) {age age' : Int} {a a' : Attributes} {scene scene' : Scene} {entries : List Entry},
      r.advanceMany n age a scene = (.ok (entries, age', a'), scene') →
      r.Steps (s.playing age a) scene entries
        (settle s age' a' entries scene').1 (settle s age' a' entries scene').2 := by
  intro n
  induction n with
  | zero =>
    intro age age' a a' scene scene' entries h
    simp only [advanceMany, Prod.mk.injEq, Except.ok.injEq] at h
    obtain ⟨⟨rfl, rfl, rfl⟩, rfl⟩ := h
    exact .refl ..
  | succ n ih =>
    intro age age' a a' scene scene' entries h
    obtain ⟨year, scene₁, hyear, ⟨hend, rfl, rfl, rfl, rfl⟩ | ⟨hend, rest, rfl, hrest⟩⟩ :=
      advanceMany_ok h
    · -- the game ends: both write the session with this year's entry
      have hstep := step_playing (s := s) hyear
      rw [commitStep_playing] at hstep
      exact .cons hstep (.refl ..)
    · rw [settle_cons hend]
      exact .cons (step_playing_goesOn hyear hend) (ih hrest)

/-- A batch without entries has changed nothing. -/
theorem advanceMany_nil {n : Nat} {age age' : Int} {a a' : Attributes}
    (h : r.advanceMany n age a scene = (.ok ([], age', a'), scene')) :
    age' = age ∧ a' = a ∧ scene' = scene := by
  cases n with
  | zero =>
    simp only [advanceMany, Prod.mk.injEq, Except.ok.injEq, true_and] at h
    obtain ⟨⟨rfl, rfl⟩, rfl⟩ := h
    exact ⟨rfl, rfl, rfl⟩
  | succ n =>
    obtain ⟨year, scene₁, -, ⟨-, hnil, -⟩ | ⟨-, rest, hnil, -⟩⟩ := advanceMany_ok h
    · cases hnil
    · cases hnil

/-- The entries of a batch: only the last of them can end the game, and there are as many as were
asked for unless it does. -/
theorem advanceMany_entries :
    ∀ (n : Nat) {age age' : Int} {a a' : Attributes} {scene scene' : Scene} {entries : List Entry},
      r.advanceMany n age a scene = (.ok (entries, age', a'), scene') →
      (∀ e ∈ entries.dropLast, e.isEnd = false) ∧
        (entries.length = n ∨
          entries.length < n ∧ ∃ last, entries.getLast? = some last ∧ last.isEnd = true) := by
  intro n
  induction n with
  | zero =>
    intro age age' a a' scene scene' entries h
    simp only [advanceMany, Prod.mk.injEq, Except.ok.injEq] at h
    obtain ⟨⟨rfl, -, -⟩, -⟩ := h
    exact ⟨by simp, .inl rfl⟩
  | succ n ih =>
    intro age age' a a' scene scene' entries h
    obtain ⟨year, scene₁, -, ⟨hend, rfl, -⟩ | ⟨hend, rest, rfl, hrest⟩⟩ := advanceMany_ok h
    · refine ⟨by simp, ?_⟩
      -- the year asked for last may end the game as well
      cases n with
      | zero => exact .inl rfl
      | succ n => exact .inr ⟨by simp, year.entry, rfl, hend⟩
    · obtain ⟨hinit, hlen⟩ := ih hrest
      refine ⟨?_, ?_⟩
      · cases rest with
        | nil => simp
        | cons e rest =>
          intro e' he'
          rw [List.dropLast_cons_cons] at he'
          rcases List.mem_cons.mp he' with rfl | he'
          · exact hend
          · exact hinit e' he'
      · rcases hlen with hlen | ⟨hlen, last, hlast, hisEnd⟩
        · exact .inl (by simp [hlen])
        · refine .inr ⟨by simpa using hlen, last, ?_, hisEnd⟩
          rw [List.getLast?_cons, hlast]
          rfl

/-- A batch fails in the year in which single steps fail: those before it succeed without ending
the game, and the fault and the scene are the same. -/
theorem advanceMany_error (s : Session) :
    ∀ (n : Nat) {age : Int} {a : Attributes} {scene scene' : Scene} {fault : Fault},
      r.advanceMany n age a scene = (.error fault, scene') →
      ∃ entries s₁ scene₁, entries.length < n ∧
        r.Steps (s.playing age a) scene entries s₁ scene₁ ∧
        (∀ e ∈ entries, e.isEnd = false) ∧ r.step s₁ scene₁ = (.error fault, s₁, scene') := by
  intro n
  induction n with
  | zero => intro age a scene scene' fault h; simp [advanceMany] at h
  | succ n ih =>
    intro age a scene scene' fault h
    unfold advanceMany at h
    split at h
    · next fault₁ scene₁ hyear =>
      simp only [Prod.mk.injEq, Except.error.injEq] at h
      obtain ⟨rfl, rfl⟩ := h
      exact ⟨[], _, _, by simp, .refl .., by simp, step_playing_error hyear⟩
    · next year scene₁ hyear =>
      split at h
      · simp at h
      · next hend =>
        have hend : year.entry.isEnd = false := by simpa using hend
        split at h
        · next fault₁ scene₂ hrest =>
          simp only [Prod.mk.injEq, Except.error.injEq] at h
          obtain ⟨rfl, rfl⟩ := h
          obtain ⟨entries, s₁, scene₂, hlen, hsteps, hends, hstep⟩ := ih hrest
          refine ⟨year.entry :: entries, s₁, scene₂, by simpa using hlen,
            .cons (step_playing_goesOn hyear hend) hsteps, ?_, hstep⟩
          intro e he
          rcases List.mem_cons.mp he with rfl | he
          · exact hend
          · exact hends e he
        · simp at h

/-- A batch is refused, or its loop fails, and the session comes back as it was; or the batch
settles where its loop has led. -/
theorem stepMany_cases (r : Runner) (n : Nat) (s : Session) (scene : Scene) :
    (∃ fault, activeAttributes s = .error fault ∧
      r.stepMany n s scene = (.error fault, s, scene)) ∨
    ∃ a, activeAttributes s = .ok a ∧
      ((∃ fault scene₁, r.advanceMany n s.age a scene = (.error fault, scene₁) ∧
          r.stepMany n s scene = (.error fault, s, scene₁)) ∨
        ∃ entries age a' scene₁, r.advanceMany n s.age a scene = (.ok (entries, age, a'), scene₁) ∧
          r.stepMany n s scene = (.ok entries, settle s age a' entries scene₁)) := by
  cases ha : activeAttributes s with
  | error fault => exact .inl ⟨fault, rfl, by simp only [stepMany, ha]⟩
  | ok a =>
    refine .inr ⟨a, rfl, ?_⟩
    rcases hmany : r.advanceMany n s.age a scene with ⟨fault | ⟨entries, age, a'⟩, scene₁⟩
    · exact .inl ⟨fault, scene₁, rfl, by simp only [stepMany, ha, hmany]⟩
    · refine .inr ⟨entries, age, a', scene₁, rfl, ?_⟩
      have hs := playing_of_activeAttributes ha
      simp only [stepMany, ha, hmany]
      cases hlast : entries.getLast? with
      | none =>
        -- nothing is written, which is the same as writing what stands there
        rw [List.getLast?_eq_none_iff] at hlast
        subst hlast
        obtain ⟨rfl, rfl, rfl⟩ := advanceMany_nil hmany
        simp [settle, hs]
      | some last =>
        have hcommit : commitStep (s.playing s.age a) age a' last scene₁
            = commitStep (s.playing age a') age a' last scene₁ := commitStep_playing ..
        rw [hs] at hcommit
        simp only [settle, hlast, hcommit]

/-- A batch that fails gives the session back as it was, however many years it has played. -/
theorem stepMany_error_session {n : Nat} {fault : Fault}
    (h : r.stepMany n s scene = (.error fault, s', scene')) : s' = s := by
  rcases r.stepMany_cases n s scene with
    ⟨f, -, hmany⟩ | ⟨a, -, ⟨f, scene₁, -, hmany⟩ | ⟨entries, age, a', scene₁, -, hmany⟩⟩
  · exact congrArg (·.2.1) (h.symm.trans hmany)
  · exact congrArg (·.2.1) (h.symm.trans hmany)
  · simp [hmany] at h

/-- A batch that succeeds has gone through its loop with active attributes and writes where that has
led. -/
theorem settle_of_stepMany {n : Nat} {entries : List Entry}
    (h : r.stepMany n s scene = (.ok entries, s', scene')) :
    ∃ a age a' scene₁, activeAttributes s = .ok a ∧
      r.advanceMany n s.age a scene = (.ok (entries, age, a'), scene₁) ∧
      settle s age a' entries scene₁ = (s', scene') := by
  rcases r.stepMany_cases n s scene with
    ⟨f, -, hmany⟩ | ⟨a, ha, ⟨f, scene₁, -, hmany⟩ | ⟨entries₁, age, a', scene₁, hloop, hmany⟩⟩
  · simp [hmany] at h
  · simp [hmany] at h
  · rw [hmany, Prod.mk.injEq, Except.ok.injEq] at h
    obtain ⟨rfl, hsettle⟩ := h
    exact ⟨a, age, a', scene₁, ha, hloop, hsettle⟩

/-- A batch that succeeds takes single steps to the same session and scene. -/
theorem Steps.of_stepMany {n : Nat} {entries : List Entry}
    (h : r.stepMany n s scene = (.ok entries, s', scene')) :
    r.Steps s scene entries s' scene' := by
  obtain ⟨a, age, a', scene₁, ha, hmany, hsettle⟩ := settle_of_stepMany h
  have hsteps := advanceMany_steps s n hmany
  rw [playing_of_activeAttributes ha, hsettle] at hsteps
  exact hsteps

end Runner

/-- A move writes the session that its action gives back. -/
theorem House.move_eq {α : Type} {h : House} {identity : String} {s s' : Session} {scene : Scene}
    {act : Session → Scene → Except Fault α × Session × Scene} {outcome : Except Fault α}
    (hs : h.store.find? identity = some s)
    (hact : act (s.touch (h.clock + 1)) h.scene = (outcome, s', scene)) :
    h.move identity act = (outcome, ⟨h.store.put identity s', scene, h.clock + 1⟩) := by
  have hs' : h.tick.store.find? identity = some s := hs
  have hact' : act (s.touch h.tick.clock) h.tick.scene = (outcome, s', scene) := hact
  simp only [move, Store.withSession, hs', hact']
  rfl

/-- After a batch that fails the session is as it was, but for the time of its last activity. -/
theorem House.find?_stepMany_error {h : House} {r : Runner} {identity : String} {n : Nat}
    {s : Session} {fault : Fault} (hs : h.store.find? identity = some s)
    (he : (h.stepMany r identity n).1 = .error fault) :
    (h.stepMany r identity n).2.store.find? identity = some (s.touch h.tick.clock) := by
  rcases hact : r.stepMany n (s.touch (h.clock + 1)) h.scene with ⟨outcome, s', scene⟩
  have hmove : h.stepMany r identity n =
      (outcome, ⟨h.store.put identity s', scene, h.clock + 1⟩) := House.move_eq hs hact
  rw [hmove] at he ⊢
  obtain rfl : outcome = .error fault := he
  obtain rfl := Runner.stepMany_error_session hact
  exact Store.find?_put_self ..

namespace Runner

/-! ## The two agree -/

/-- **A batch is its single steps.** If it succeeds, the single steps succeed with the same entries
and leave the same session and scene; it stops short of the years asked for only at the end of the
game. If it fails, it gives the session back as it was; fewer single steps succeed, none of them
ending the game, and the next one fails with the same fault in the same scene. So whoever keeps the
session finds it as it was before. -/
theorem stepMany_agrees_with_steps (r : Runner) (n : Nat) (hn : 1 ≤ n) :
    (∀ (s : Session) (scene : Scene),
      match r.stepMany n s scene with
      | (.ok entries, s', scene') =>
        r.Steps s scene entries s' scene' ∧
          (∀ e ∈ entries.dropLast, e.isEnd = false) ∧
          (entries.length = n ∨
            entries.length < n ∧ ∃ last, entries.getLast? = some last ∧ last.isEnd = true)
      | (.error fault, s', scene') =>
        s' = s ∧ ∃ entries s₁ scene₁, entries.length < n ∧ r.Steps s scene entries s₁ scene₁ ∧
          (∀ e ∈ entries, e.isEnd = false) ∧ r.step s₁ scene₁ = (.error fault, s₁, scene')) ∧
    ∀ (h : House) (identity : String) (s : Session) (fault : Fault),
      h.store.find? identity = some s → (h.stepMany r identity n).1 = .error fault →
        (h.stepMany r identity n).2.store.find? identity = some (s.touch h.tick.clock) := by
  refine ⟨fun s scene => ?_, fun h identity s fault hs he => House.find?_stepMany_error hs he⟩
  rcases r.stepMany_cases n s scene with
    ⟨fault, ha, hbatch⟩ | ⟨a, ha, ⟨fault, scene', hmany, hbatch⟩ |
      ⟨entries, age, a', scene', hmany, hbatch⟩⟩
  · rw [hbatch]
    have hstep : r.step s scene = (.error fault, s, scene) := by simp only [step, ha]
    exact ⟨rfl, [], s, scene, hn, .refl .., by simp, hstep⟩
  · rw [hbatch]
    have herr := advanceMany_error s n hmany
    rw [playing_of_activeAttributes ha] at herr
    exact ⟨rfl, herr⟩
  · rw [hbatch]
    exact ⟨.of_stepMany hbatch, advanceMany_entries n hmany⟩

/-- A runner of a life of two years in which nothing happens. -/
def uneventful : Runner where
  events := ⟨[], by simp⟩
  ages := ⟨[⟨0, []⟩, ⟨1, []⟩], by decide⟩
  settings := { Settings.standard with maxAge := 1, emptyPool := .advanceAge }

/-- Of a batch of three years, two are lived, and each of them is a single step. -/
theorem stepMany_agrees_with_steps_uneventful :
    let s : Session := ⟨"p", some (.ofLife 1), 0, .active, 0⟩
    let scene : Scene := ⟨⟨[], 0⟩, #[]⟩
    let numbers : List Int := [0, 0, 0, 0, 0, 1]
    let entries : List Entry := [⟨0, [], numbers, false⟩, ⟨1, [], numbers, true⟩]
    let s' : Session := { s with age := 2, status := .ended }
    let scene' : Scene := ⟨scene.chance, #[.yearPasses 0, .yearPasses 1, .gameEnded "p" 2]⟩
    1 ≤ 3 ∧ uneventful.stepMany 3 s scene = (.ok entries, s', scene') ∧
      uneventful.Steps s scene entries s' scene' := by
  intro s scene numbers entries s' scene'
  have hmany : uneventful.stepMany 3 s scene = (.ok entries, s', scene') := by rfl
  have h := (stepMany_agrees_with_steps uneventful 3 (by decide)).1 s scene
  rw [hmany] at h
  exact ⟨by decide, hmany, h.1⟩

end Runner

end LifePath
