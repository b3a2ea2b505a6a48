import LifePath.Proofs.Catalog.References
import LifePath.Proofs.Story.Batch
import LifePath.Proofs.Story.Year

/-!
# What a year can fail with

A chain goes from one event of the catalog to another as long as no reference dangles, and tables
that were checked when they were loaded have none (`Closed`). The faults that are left are those of
the moment: the player asks too early or too late, there is no pool for the age or nobody in it, a
chain is too long, or a condition cannot be decided. `resolve_error` follows a chain event by event,
`advance_error` is about a year, and every move is made of years.
-/

namespace LifePath

/-! ## Conditions and branches -/

/-- A chain goes on only to one of the successors of its event. -/
theorem firstOpen_mem {source : Source} {next : Option String} {id : String} :
    ∀ {branches : List Branch}, firstOpen source next branches = .ok (some id) →
      id ∈ branches.map (·.event) ++ next.toList := by
  intro branches
  induction branches with
  | nil =>
    intro h
    obtain rfl : next = some id := Except.ok.inj h
    simp
  | cons b rest ih =>
    intro h
    rw [firstOpen] at h
    split at h
    · simp at h
    · obtain rfl : b.event = id := by simpa using h
      exact List.mem_cons_self ..
    · exact List.mem_cons_of_mem _ (ih h)

theorem Event.followUp_mem {source : Source} {e : Event} {id : String}
    (h : e.followUp source = .ok (some id)) : id ∈ e.successors := firstOpen_mem h

/-- The list of candidates is missing only for an event that is in no catalog or for a condition
that cannot be decided. -/
theorem candidates_error {events : EventCatalog} {source : Source} {fault : PoolFault} :
    ∀ {references : List Reference}, candidates events source references = .error fault →
      (∃ r ∈ references, events.get? r.event = none ∧ fault = .missingEvent r.event) ∨
        ∃ event f, fault = .failedCondition event f := by
  intro references
  induction references with
  | nil => intro h; simp [candidates] at h
  | cons r rest ih =>
    intro h
    rw [candidates] at h
    split at h
    · next hmissing =>
      obtain rfl := Except.error.inj h
      exact .inl ⟨r, List.mem_cons_self .., hmissing, rfl⟩
    · next e he =>
      split at h
      · next f hf =>
        obtain rfl := Except.error.inj h
        exact .inr ⟨e.id, f, rfl⟩
      · split at h
        · next fault' hrest =>
          obtain rfl := Except.error.inj h
          rcases ih hrest with ⟨r', hr', hmissing, rfl⟩ | hfailed
          · exact .inl ⟨r', List.mem_cons_of_mem _ hr', hmissing, rfl⟩
          · exact .inr hfailed
        · simp at h

namespace Runner

variable {r : Runner} {age : Int} {a : Attributes} {s s' : Session} {scene scene' : Scene}
  {fault : Fault}

/-! ## A year -/

/-- Without dangling references, a chain that begins with an event of the catalog can only be too
long or meet a condition that cannot be decided. -/
theorem resolve_error (hclosed : Closed r.events r.ages) :
    ∀ (left : Nat) {drawn : Bool} {id : String} {a : Attributes} {scene scene' : Scene},
      (r.events.get? id).isSome → r.resolve age left drawn id a scene = (.error fault, scene') →
      (∃ event, fault = .chainTooDeep event) ∨ ∃ f, fault = .condition f := by
  intro left
  induction left with
  | zero =>
    intro drawn id a scene scene' _ h
    simp only [resolve, Prod.mk.injEq, Except.error.injEq] at h
    exact .inl ⟨id, h.1.symm⟩
  | succ left ih =>
    intro drawn id a scene scene' hid h
    simp only [resolve] at h
    split at h
    · next hmissing =>
      rw [hmissing] at hid
      simp at hid
    · next e he =>
      split at h
      · next f _ =>
        simp only [Prod.mk.injEq, Except.error.injEq] at h
        exact .inr ⟨f, h.1.symm⟩
      · next next hnext =>
        cases next with
        | none => simp at h
        | some next =>
          simp only at h
          split at h
          · next fault₁ scene₁ hrest =>
            simp only [Prod.mk.injEq, Except.error.injEq] at h
            obtain ⟨rfl, rfl⟩ := h
            -- what follows is a successor, and those are in the catalog
            exact ih (hclosed.get?_successor he (Event.followUp_mem hnext)) hrest
          · simp at h

/-- The faults with which a year can fail if no reference dangles. -/
inductive YearFault (r : Runner) (age : Int) : Fault → Prop where
  | ageNotFound : r.ages.get? age = none → YearFault r age (.ageNotFound age)
  | noCandidates : r.settings.emptyPool = .fail → YearFault r age (.noCandidates age)
  | chainTooDeep (event : String) : YearFault r age (.chainTooDeep event)
  | condition (f : ConditionFault) : YearFault r age (.condition f)

theorem advance_error (hclosed : Closed r.events r.ages)
    (h : r.advance age a scene = (.error fault, scene')) : r.YearFault age fault := by
  unfold advance at h
  split at h
  · simp at h
  · rcases selectEvent_cases r.events r.ages age a scene with
      ⟨hnone, hsel⟩ | ⟨pool, hpool, ⟨f, hf, hsel⟩ | ⟨-, hsel⟩ | ⟨references, hcands, id, hid, hsel⟩⟩
    · simp only [hsel, Prod.mk.injEq, Except.error.injEq] at h
      obtain ⟨rfl, -⟩ := h
      exact .ageNotFound hnone
    · -- every event of the pool is in the catalog, so a condition is to blame
      rcases candidates_error hf with ⟨ref, href, hmissing, -⟩ | ⟨event, f, rfl⟩
      · have hknown := hclosed.get?_reference hpool href
        rw [hmissing] at hknown
        simp at hknown
      · simp only [hsel, PoolFault.toFault, Prod.mk.injEq, Except.error.injEq] at h
        obtain ⟨rfl, -⟩ := h
        exact .condition f
    · rw [hsel] at h
      cases hempty : r.settings.emptyPool with
      | fail =>
        simp only [hempty, Prod.mk.injEq, Except.error.injEq] at h
        obtain ⟨rfl, -⟩ := h
        exact .noCandidates hempty
      | advanceAge => simp [hempty] at h
    · rw [hsel] at h
      simp only at h
      split at h
      · next fault₁ scene₁ hchain =>
        simp only [Prod.mk.injEq, Except.error.injEq] at h
        obtain ⟨rfl, rfl⟩ := h
        obtain ⟨ref, href, rfl⟩ := List.mem_map.mp hid
        obtain ⟨-, e, he, -⟩ := candidates_ok hcands ref href
        have hid : (r.events.get? ref.event).isSome := by rw [he]; rfl
        rcases resolve_error hclosed _ hid hchain with ⟨event, rfl⟩ | ⟨f, rfl⟩
        · exact .chainTooDeep event
        · exact .condition f
      · simp at h

/-! ## Moves -/

/-- The faults with which a move can fail if no reference dangles. -/
def MoveFault (r : Runner) (fault : Fault) : Prop :=
  fault = .alreadyEnded ∨ fault = .notAllocated ∨ (∃ age, fault = .ageNotFound age) ∨
    (∃ event, fault = .chainTooDeep event) ∨ fault.isAboutCondition = true ∨
    (∃ age, fault = .noCandidates age) ∧ r.settings.emptyPool = .fail

theorem YearFault.moveFault (h : r.YearFault age fault) : r.MoveFault fault := by
  unfold MoveFault
  cases h with
  | ageNotFound => exact .inr (.inr (.inl ⟨age, rfl⟩))
  | noCandidates hempty => exact .inr (.inr (.inr (.inr (.inr ⟨⟨age, rfl⟩, hempty⟩))))
  | chainTooDeep event => exact .inr (.inr (.inr (.inl ⟨event, rfl⟩)))
  | condition f => exact .inr (.inr (.inr (.inr (.inl rfl))))

theorem activeAttributes_error (h : activeAttributes s = .error fault) : r.MoveFault fault := by
  unfold activeAttributes at h
  split at h
  · exact .inl (Except.error.inj h).symm
  · simp at h
  · exact .inr (.inl (Except.error.inj h).symm)

theorem step_error (hclosed : Closed r.events r.ages)
    (h : r.step s scene = (.error fault, s', scene')) : r.MoveFault fault := by
  rcases r.step_cases s scene with
    ⟨f, ha, hstep⟩ | ⟨a, -, ⟨f, scene₁, hyear, hstep⟩ | ⟨year, scene₁, -, hstep⟩⟩
  · obtain rfl : f = fault := Except.error.inj (congrArg (·.1) (hstep.symm.trans h))
    exact activeAttributes_error ha
  · obtain rfl : f = fault := Except.error.inj (congrArg (·.1) (hstep.symm.trans h))
    exact (advance_error hclosed hyear).moveFault
  · simp [hstep] at h

/-- A batch fails with a fault of one of its steps. -/
theorem stepMany_error (hclosed : Closed r.events r.ages) {n : Nat}
    (h : r.stepMany n s scene = (.error fault, s', scene')) : r.MoveFault fault := by
  rcases r.stepMany_cases n s scene with
    ⟨f, ha, hmany⟩ | ⟨a, -, ⟨f, scene₁, hloop, hmany⟩ | ⟨entries, age, a', scene₁, -, hmany⟩⟩
  · obtain rfl : f = fault := Except.error.inj (congrArg (·.1) (hmany.symm.trans h))
    exact activeAttributes_error ha
  · obtain rfl : f = fault := Except.error.inj (congrArg (·.1) (hmany.symm.trans h))
    obtain ⟨entries, s₁, scene₂, -, -, -, hstep⟩ := advanceMany_error s n hloop
    exact step_error hclosed hstep
  · simp [hmany] at h

theorem MoveFault.ne_eventNotFound (h : r.MoveFault fault) (id : String) :
    fault ≠ .eventNotFound id := by
  rintro rfl
  simp [MoveFault, Fault.isAboutCondition] at h

/-! ## Tables that were checked -/

/-- A runner that passes its checks has the tables and settings that it was given, and the tables
are closed. -/
theorem validated_ok {events : EventCatalog} {ages : AgeCatalog} {settings : Settings}
    (h : (validated events ages settings scene).1 = .ok r) :
    r = ⟨events, ages, settings⟩ ∧ settings.fault? = none ∧ Closed events ages := by
  unfold validated at h
  split at h
  · simp at h
  · next hsettings =>
    split at h
    · simp at h
    · next hdangling =>
      exact ⟨(Except.ok.inj h).symm, hsettings, danglingReference?_eq_none_iff.mp hdangling⟩

/-- **Checked tables have no dangling references to meet.** Whatever tables and settings have passed
the checks, no step and no batch of a session ever misses an event. What they can fail with is that
the game is over or has not got its attributes, that no pool belongs to the age, that a chain is too
long, that a condition cannot be decided, or, if the settings say that an empty pool is a failure,
that a pool has no candidates. -/
theorem validated_never_misses_event {events : EventCatalog} {ages : AgeCatalog}
    {settings : Settings} {scene₀ : Scene} {r : Runner}
    (h : (validated events ages settings scene₀).1 = .ok r) (s : Session) (scene : Scene)
    (fault : Fault) :
    ((r.step s scene).1 = .error fault →
        (∀ id, fault ≠ .eventNotFound id) ∧ r.MoveFault fault) ∧
      ∀ n, (r.stepMany n s scene).1 = .error fault →
        (∀ id, fault ≠ .eventNotFound id) ∧ r.MoveFault fault := by
  obtain ⟨rfl, -, hclosed⟩ := validated_ok h
  constructor
  · intro hstep
    have hfault := step_error hclosed (Prod.ext hstep rfl)
    exact ⟨hfault.ne_eventNotFound, hfault⟩
  · intro n hmany
    have hfault := stepMany_error hclosed (Prod.ext hmany rfl)
    exact ⟨hfault.ne_eventNotFound, hfault⟩

/-! ## A life on a treadmill -/

namespace Treadmill

/-- An event that follows on itself. -/
def events : EventCatalog := ⟨[{ Event.plain "1" "Again." with next := some "1" }], by decide⟩

/-- Nothing else can happen. -/
def ages : AgeCatalog := ⟨[⟨0, [⟨"1", Reference.plainWeight⟩]⟩], by decide⟩

def runner : Runner := ⟨events, ages, { Settings.standard with maxChain := 1 }⟩

def born : Session := ⟨"p", some (.ofLife 1), 0, .active, 0⟩

/-- The scene in which the game begins. -/
def opening : Scene := ⟨⟨[], 0⟩, #[]⟩

theorem runner_validated :
    (validated Treadmill.events Treadmill.ages runner.settings opening).1 = .ok runner := by
  rfl

/-- Every event is found, and yet the chain does not come to its end. -/
theorem step_tooDeep : (runner.step born opening).1 = .error (.chainTooDeep "1") := by
  have hover : runner.isOver 0 (.ofLife 1) = false := rfl
  have hpool : runner.ages.get? 0 = some ⟨0, [⟨"1", Reference.plainWeight⟩]⟩ := rfl
  have hcands : candidates runner.events ((Attributes.ofLife 1).sourceAt 0)
      [⟨"1", Reference.plainWeight⟩] = .ok [⟨"1", Reference.plainWeight⟩] := rfl
  have hdraw := selectEvent_single hpool hcands opening
  simp only [step, born, activeAttributes, advance, hover, hdraw]
  rfl

end Treadmill

open Treadmill in
theorem validated_never_misses_event_treadmill :
    (validated Treadmill.events Treadmill.ages runner.settings opening).1 = .ok runner ∧
      (runner.step born opening).1 = .error (.chainTooDeep "1") ∧
      (∀ id, Fault.chainTooDeep "1" ≠ .eventNotFound id) ∧ runner.MoveFault (.chainTooDeep "1") :=
  ⟨runner_validated, step_tooDeep,
    (validated_never_misses_event runner_validated born opening _).1 step_tooDeep⟩

end Runner

end LifePath
