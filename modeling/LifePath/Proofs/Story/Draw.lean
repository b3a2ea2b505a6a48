import LifePath.Proofs.Lookup
import LifePath.Proofs.Story.Year

/-!
# What a draw goes by

Whether an event can be drawn is asked of the event first and of its conditions after that, each
only if it still matters: `Event.CanBeDrawn` says what the answer must be, and `Event.Undecided`
that a condition which is come to cannot be decided. A draw fails where there is no pool, at the
first reference of the pool that is `Blocked`, by a missing event or an undecided condition, or for
lack of an event that can be drawn (`DrawFault`). What stands in front of the first blocked
reference does not matter, nor does what stands behind it.

What is not come to does not matter either: a draw from other tables is the same draw if their
events differ only in conditions that are not looked at (`Event.AsFarAsAsked`).
-/

namespace LifePath

/-! ## Conditions that may be absent -/

/-- An optional condition has the outcome that its absence has if it is absent or has it. -/
theorem holdsOr_eq_ok_iff {source : Source} {absent : Bool} {condition : Option String} :
    holdsOr source absent condition = .ok absent ↔
      ∀ text, condition = some text → checkCondition source text = .ok absent := by
  cases condition <;> simp [holdsOr]

/-- It fails only if it is there. -/
theorem holdsOr_eq_error_iff {source : Source} {absent : Bool} {condition : Option String}
    {fault : ConditionFault} :
    holdsOr source absent condition = .error fault ↔
      ∃ text, condition = some text ∧ checkCondition source text = .error fault := by
  cases condition <;> simp [holdsOr]

/-! ## One event -/

namespace Event

variable {source : Source} {e e' : Event} {fault : ConditionFault}

/-- The exclusion of an event is absent or does not hold. -/
def NotExcluded (source : Source) (e : Event) : Prop :=
  ∀ text, e.excludeIf = some text → checkCondition source text = .ok false

/-- An event that does not only follow, whose exclusion is absent or does not hold, and whose
inclusion is absent or holds. -/
structure CanBeDrawn (source : Source) (e : Event) : Prop where
  freely : e.onlyFollows = false
  notExcluded : e.NotExcluded source
  included : ∀ text, e.includeIf = some text → checkCondition source text = .ok true

/-- A condition that is come to cannot be decided. That is the exclusion of an event that does not
only follow, or the inclusion of one that moreover is not excluded. -/
inductive Undecided (source : Source) (e : Event) (fault : ConditionFault) : Prop where
  | exclusion {text : String} : e.onlyFollows = false → e.excludeIf = some text →
      checkCondition source text = .error fault → Undecided source e fault
  | inclusion {text : String} : e.onlyFollows = false → e.NotExcluded source →
      e.includeIf = some text → checkCondition source text = .error fault →
      Undecided source e fault

/-- Another event with the same id that differs at most in conditions that are not come to: in both
if it only follows, and in the inclusion unless it is found not to be excluded. -/
structure AsFarAsAsked (source : Source) (e e' : Event) : Prop where
  id : e'.id = e.id
  onlyFollows : e'.onlyFollows = e.onlyFollows
  exclusion : e.onlyFollows = false → e'.excludeIf = e.excludeIf
  inclusion : e.onlyFollows = false → e.NotExcluded source → e'.includeIf = e.includeIf

/-- An event can be drawn if it does not only follow, its exclusion is absent or does not hold, and
its inclusion is absent or holds. -/
theorem isEligible_eq_ok_true :
    e.isEligible source = .ok true ↔
      e.onlyFollows = false ∧ holdsOr source false e.excludeIf = .ok false ∧
        holdsOr source true e.includeIf = .ok true := by
  unfold isEligible
  split
  · next hfollows => simp [hfollows]
  · next hfollows =>
    split
    · next hexclude => simp [hexclude]
    · next hexclude => simp [hexclude]
    · next hexclude => simp [hexclude, hfollows]

theorem isEligible_iff_canBeDrawn : e.isEligible source = .ok true ↔ e.CanBeDrawn source := by
  rw [isEligible_eq_ok_true, holdsOr_eq_ok_iff, holdsOr_eq_ok_iff]
  constructor
  · intro h
    exact ⟨h.1, h.2.1, h.2.2⟩
  · intro h
    exact ⟨h.freely, h.notExcluded, h.included⟩

theorem isEligible_eq_error_iff :
    e.isEligible source = .error fault ↔ e.Undecided source fault := by
  constructor
  · intro h
    unfold isEligible at h
    split at h
    · simp at h
    · next hfollows =>
      have hfreely : e.onlyFollows = false := by simpa using hfollows
      split at h
      · next f hexclude =>
        obtain rfl := Except.error.inj h
        obtain ⟨text, htext, hcheck⟩ := holdsOr_eq_error_iff.mp hexclude
        exact .exclusion hfreely htext hcheck
      · simp at h
      · next hexclude =>
        obtain ⟨text, htext, hcheck⟩ := holdsOr_eq_error_iff.mp h
        exact .inclusion hfreely (holdsOr_eq_ok_iff.mp hexclude) htext hcheck
  · intro h
    cases h with
    | exclusion hfreely htext hcheck =>
      have hexclude : holdsOr source false e.excludeIf = .error fault :=
        holdsOr_eq_error_iff.mpr ⟨_, htext, hcheck⟩
      simp [isEligible, hfreely, hexclude]
    | inclusion hfreely hnot htext hcheck =>
      have hexclude := holdsOr_eq_ok_iff.mpr hnot
      have hinclude : holdsOr source true e.includeIf = .error fault :=
        holdsOr_eq_error_iff.mpr ⟨_, htext, hcheck⟩
      simp [isEligible, hfreely, hexclude, hinclude]

theorem AsFarAsAsked.isEligible_eq (h : e.AsFarAsAsked source e') :
    e'.isEligible source = e.isEligible source := by
  unfold isEligible
  rw [h.onlyFollows]
  cases hfollows : e.onlyFollows with
  | true => rfl
  | false =>
    rw [h.exclusion hfollows]
    cases hexclude : holdsOr source false e.excludeIf with
    | error fault => rfl
    | ok excluded =>
      cases excluded with
      | true => rfl
      | false => rw [h.inclusion hfollows (holdsOr_eq_ok_iff.mp hexclude)]

end Event

/-! ## A pool -/

namespace Reference

variable {events events' : EventCatalog} {source : Source} {r : Reference}
  {references before after : List Reference} {fault : Fault}

/-- A reference to an event of the catalog that can be drawn. -/
def IsOpen (events : EventCatalog) (source : Source) (r : Reference) : Prop :=
  ∃ e, events.get? r.event = some e ∧ e.CanBeDrawn source

/-- Of a reference it cannot be told whether it is open: its event is missing, or a condition that
is come to cannot be decided. -/
inductive Blocked (events : EventCatalog) (source : Source) (r : Reference) : Fault → Prop where
  | missing : events.get? r.event = none → Blocked events source r (.eventNotFound r.event)
  | undecided {e : Event} {fault : ConditionFault} : events.get? r.event = some e →
      e.Undecided source fault → Blocked events source r (.condition fault)

/-- None of the references is blocked. -/
def Clear (events : EventCatalog) (source : Source) (references : List Reference) : Prop :=
  ∀ r ∈ references, ∀ fault, ¬ r.Blocked events source fault

theorem candidates_cons_of_blocked (h : r.Blocked events source fault)
    (references : List Reference) :
    ∃ f, candidates events source (r :: references) = .error f ∧ f.toFault = fault := by
  cases h with
  | missing hnone => exact ⟨.missingEvent r.event, by simp [candidates, hnone], rfl⟩
  | @undecided e fault he hundecided =>
    have heligible := Event.isEligible_eq_error_iff.mpr hundecided
    exact ⟨.failedCondition e.id fault, by simp [candidates, he, heligible], rfl⟩

/-- A reference that is not blocked is passed over or put in front of the other candidates. -/
theorem candidates_cons_of_not_blocked (h : ∀ fault, ¬ r.Blocked events source fault) :
    ∃ eligible : Bool, (eligible = true ↔ r.IsOpen events source) ∧
      ∀ references, candidates events source (r :: references) =
        (candidates events source references).map fun others =>
          if eligible then r :: others else others := by
  cases he : events.get? r.event with
  | none => exact absurd (.missing he) (h _)
  | some e =>
    cases heligible : e.isEligible source with
    | error fault =>
      exact absurd (.undecided he (Event.isEligible_eq_error_iff.mp heligible)) (h _)
    | ok eligible =>
      refine ⟨eligible, ?_, fun references => ?_⟩
      · have hopen : r.IsOpen events source ↔ e.CanBeDrawn source := by simp [IsOpen, he]
        rw [hopen, ← Event.isEligible_iff_canBeDrawn, heligible]
        simp
      · rw [candidates, he]
        simp only [heligible]
        cases candidates events source references <;> rfl

/-- The first reference that is blocked decides the fault, whatever could be drawn before it. -/
theorem candidates_of_first_blocked (hbefore : Clear events source before)
    (h : r.Blocked events source fault) (after : List Reference) :
    ∃ f, candidates events source (before ++ r :: after) = .error f ∧ f.toFault = fault := by
  induction before with
  | nil => exact candidates_cons_of_blocked h after
  | cons first before ih =>
    obtain ⟨hfirst, hrest⟩ := List.forall_mem_cons.mp hbefore
    obtain ⟨f, herror, hf⟩ := ih hrest
    obtain ⟨eligible, -, hcons⟩ := candidates_cons_of_not_blocked hfirst
    exact ⟨f, by rw [List.cons_append, hcons, herror]; rfl, hf⟩

/-- If none is blocked, the candidates are those that are open. -/
theorem candidates_of_clear (h : Clear events source references) :
    ∃ found, candidates events source references = .ok found ∧
      ∀ r, r ∈ found ↔ r ∈ references ∧ r.IsOpen events source := by
  induction references with
  | nil => exact ⟨[], rfl, by simp⟩
  | cons first rest ih =>
    obtain ⟨hfirst, hrest⟩ := List.forall_mem_cons.mp h
    obtain ⟨found, hfound, hmem⟩ := ih hrest
    obtain ⟨eligible, hopen, hcons⟩ := candidates_cons_of_not_blocked hfirst
    refine ⟨if eligible then first :: found else found, by rw [hcons, hfound]; rfl, fun r => ?_⟩
    cases eligible with
    | true =>
      have hopen : first.IsOpen events source := hopen.mp rfl
      simp only [if_true, List.mem_cons, hmem]
      constructor
      · rintro (rfl | ⟨hr, hropen⟩)
        · exact ⟨.inl rfl, hopen⟩
        · exact ⟨.inr hr, hropen⟩
      · rintro ⟨rfl | hr, hropen⟩
        · exact .inl rfl
        · exact .inr ⟨hr, hropen⟩
    | false =>
      have hclosed : ¬ first.IsOpen events source := fun hfirst => by simpa using hopen.mpr hfirst
      simp only [Bool.false_eq_true, if_false, List.mem_cons, hmem]
      constructor
      · rintro ⟨hr, hropen⟩
        exact ⟨.inr hr, hropen⟩
      · rintro ⟨rfl | hr, hropen⟩
        · exact absurd hropen hclosed
        · exact ⟨hr, hropen⟩

theorem clear_or_first_blocked (events : EventCatalog) (source : Source)
    (references : List Reference) :
    Clear events source references ∨
      ∃ before r after fault, references = before ++ r :: after ∧ Clear events source before ∧
        r.Blocked events source fault := by
  rcases forall_or_first_not (fun r => ∀ fault, ¬ r.Blocked events source fault) references with
    hclear | ⟨before, r, after, hsplit, hbefore, hblocked⟩
  · exact .inl hclear
  · obtain ⟨fault, hblocked⟩ := Classical.not_forall_not.mp hblocked
    exact .inr ⟨before, r, after, fault, hsplit, hbefore, hblocked⟩

/-- Two catalogs have the same event under a reference, or events that differ only in what is not
asked, or neither has one. -/
def SameEvent (events events' : EventCatalog) (source : Source) (r : Reference) : Prop :=
  Option.Rel (Event.AsFarAsAsked source) (events.get? r.event) (events'.get? r.event)

theorem candidates_congr (h : ∀ r ∈ references, r.SameEvent events events' source) :
    candidates events' source references = candidates events source references := by
  induction references with
  | nil => rfl
  | cons first rest ih =>
    obtain ⟨hfirst, hrest⟩ := List.forall_mem_cons.mp h
    rw [candidates, candidates, ih hrest]
    unfold SameEvent at hfirst
    cases he : events.get? first.event with
    | none =>
      cases he' : events'.get? first.event with
      | none => rfl
      | some e' =>
        rw [he, he'] at hfirst
        cases hfirst
    | some e =>
      cases he' : events'.get? first.event with
      | none =>
        rw [he, he'] at hfirst
        cases hfirst
      | some e' =>
        rw [he, he'] at hfirst
        cases hfirst with
        | some hsame => simp only [hsame.isEligible_eq, hsame.id]

end Reference

/-! ## Main statement -/

open Reference

/-- The faults with which a draw fails: there is no pool for the age; a reference of the pool is
blocked and none before it is; or none is blocked and none is open. -/
inductive DrawFault (events : EventCatalog) (ages : AgeCatalog) (source : Source) (age : Int) :
    Fault → Prop where
  | noPool : ages.get? age = none → DrawFault events ages source age (.ageNotFound age)
  | blocked {pool : AgePool} {before after : List Reference} {r : Reference} {fault : Fault} :
      ages.get? age = some pool → pool.references = before ++ r :: after →
      Clear events source before → r.Blocked events source fault →
      DrawFault events ages source age fault
  | nobody {pool : AgePool} : ages.get? age = some pool → Clear events source pool.references →
      (∀ r ∈ pool.references, ¬ r.IsOpen events source) →
      DrawFault events ages source age (.noCandidates age)

variable {events : EventCatalog} {ages : AgeCatalog} {age : Int} {a : Attributes} {fault : Fault}

/-- A notice takes no chance. -/
theorem PoolFault.chance_tell (f : PoolFault) (scene : Scene) :
    (f.tell scene).chance = scene.chance := by
  cases f <;> rfl

theorem DrawFault.selectEvent_eq (h : DrawFault events ages (a.sourceAt age) age fault)
    (scene : Scene) : (selectEvent events ages age a scene).1 = .error fault := by
  unfold selectEvent
  cases h with
  | noPool hnone => simp only [hnone]
  | blocked hpool hsplit hbefore hblocked =>
    obtain ⟨f, herror, hf⟩ := candidates_of_first_blocked hbefore hblocked _
    rw [← hsplit] at herror
    simp only [hpool, herror, hf]
  | nobody hpool hclear hclosed =>
    obtain ⟨found, hfound, hmem⟩ := candidates_of_clear hclear
    obtain rfl : found = [] := by
      rw [List.eq_nil_iff_forall_not_mem]
      intro r hr
      obtain ⟨hr, hopen⟩ := (hmem r).mp hr
      exact hclosed r hr hopen
    simp only [hpool, hfound]
    rfl

/-- Something is drawn where no reference is blocked and one is open. -/
theorem exists_selectEvent_ok {pool : AgePool} {r : Reference} (hpool : ages.get? age = some pool)
    (hclear : Clear events (a.sourceAt age) pool.references) (hr : r ∈ pool.references)
    (hopen : r.IsOpen events (a.sourceAt age)) (scene : Scene) :
    ∃ id, (selectEvent events ages age a scene).1 = .ok id := by
  obtain ⟨found, hfound, hmem⟩ := candidates_of_clear hclear
  have hr : r ∈ found := (hmem r).mpr ⟨hr, hopen⟩
  rcases selectEvent_cases events ages age a scene with
    ⟨hnone, -⟩ | ⟨pool', hpool', hcases⟩
  · rw [hnone] at hpool
    cases hpool
  · obtain rfl : pool = pool' := Option.some.inj (hpool.symm.trans hpool')
    rw [hfound] at hcases
    rcases hcases with ⟨fault, herror, -⟩ | ⟨hempty, -⟩ | ⟨references, -, id, -, hdraw⟩
    · cases herror
    · obtain rfl := Except.ok.inj hempty
      cases hr
    · exact ⟨id, by rw [hdraw]⟩

theorem selectEvent_eq_error_iff (scene : Scene) :
    (selectEvent events ages age a scene).1 = .error fault ↔
      DrawFault events ages (a.sourceAt age) age fault := by
  refine ⟨fun herror => ?_, fun h => h.selectEvent_eq scene⟩
  -- one fault is named in any case, unless something is drawn
  have hcases : (∃ f, DrawFault events ages (a.sourceAt age) age f) ∨
      ∃ id, (selectEvent events ages age a scene).1 = .ok id := by
    cases hpool : ages.get? age with
    | none => exact .inl ⟨_, .noPool hpool⟩
    | some pool =>
      rcases clear_or_first_blocked events (a.sourceAt age) pool.references with
        hclear | ⟨before, r, after, f, hsplit, hbefore, hblocked⟩
      · by_cases hopen : ∃ r ∈ pool.references, r.IsOpen events (a.sourceAt age)
        · obtain ⟨r, hr, hopen⟩ := hopen
          exact .inr (exists_selectEvent_ok hpool hclear hr hopen scene)
        · exact .inl ⟨_, .nobody hpool hclear fun r hr hr' => hopen ⟨r, hr, hr'⟩⟩
      · exact .inl ⟨f, .blocked hpool hsplit hbefore hblocked⟩
  rcases hcases with ⟨f, hf⟩ | ⟨id, hok⟩
  · obtain rfl : f = fault := Except.error.inj ((hf.selectEvent_eq scene).symm.trans herror)
    exact hf
  · rw [hok] at herror
    cases herror

theorem selectEvent_congr {events' : EventCatalog}
    (h : ∀ pool, ages.get? age = some pool →
      ∀ r ∈ pool.references, r.SameEvent events events' (a.sourceAt age)) (scene : Scene) :
    selectEvent events' ages age a scene = selectEvent events ages age a scene := by
  unfold selectEvent
  cases hpool : ages.get? age with
  | none => rfl
  | some pool => simp only [candidates_congr (h pool hpool)]

/-- What is drawn is an event of the pool that can be drawn. It has been recorded, with one word of
chance. -/
theorem selectEvent_ok {scene : Scene} {id : String}
    (h : (selectEvent events ages age a scene).1 = .ok id) :
    (∃ pool, ages.get? age = some pool ∧ ∃ r ∈ pool.references, r.event = id ∧
      ∃ e, events.get? id = some e ∧ e.CanBeDrawn (a.sourceAt age)) ∧
    (selectEvent events ages age a scene).2.1 = a.record id ∧
    (selectEvent events ages age a scene).2.2.chance = scene.chance.next.2 := by
  rcases selectEvent_cases events ages age a scene with
    ⟨-, hdraw⟩ | ⟨pool, hpool, ⟨f, -, hdraw⟩ | ⟨-, hdraw⟩ |
      ⟨references, hcands, drawn, hdrawn, hdraw⟩⟩
  · simp [hdraw] at h
  · simp [hdraw] at h
  · simp [hdraw] at h
  · obtain rfl : drawn = id := by simpa [hdraw] using h
    obtain ⟨r, hr, rfl⟩ := List.mem_map.mp hdrawn
    obtain ⟨hmem, e, he, heligible⟩ := candidates_ok hcands r hr
    exact ⟨⟨pool, hpool, r, hmem, rfl, e, he, Event.isEligible_iff_canBeDrawn.mp heligible⟩,
      congrArg (·.2.1) hdraw, congrArg (·.2.2.chance) hdraw⟩

/-- A draw that fails gives the attributes back as they were and takes no chance. -/
theorem selectEvent_error {scene : Scene}
    (h : (selectEvent events ages age a scene).1 = .error fault) :
    (selectEvent events ages age a scene).2.1 = a ∧
      (selectEvent events ages age a scene).2.2.chance = scene.chance := by
  rcases selectEvent_cases events ages age a scene with
    ⟨-, hdraw⟩ | ⟨pool, -, ⟨f, -, hdraw⟩ | ⟨-, hdraw⟩ | ⟨references, -, id, -, hdraw⟩⟩
  · rw [hdraw]
    exact ⟨rfl, rfl⟩
  · rw [hdraw]
    exact ⟨rfl, f.chance_tell scene⟩
  · rw [hdraw]
    exact ⟨rfl, rfl⟩
  · simp [hdraw] at h

/-- **A draw gives an event that can be drawn, or the first fault.** Conditions see the attributes
before the draw, and the age.

* What is drawn stands in the pool of the age and is an event of the catalog that can be drawn. It
  is added to the history, nothing else changes, and one word of chance is taken.
* A draw fails exactly with the fault that `DrawFault` names. Then the attributes come back as they
  were, and no word of chance is taken.
* Conditions that are not come to, of events that only follow and of those that are excluded, make
  no difference: whatever else stands in their place, the draw is the same. -/
theorem draw_is_eligible_or_first_fault (events : EventCatalog) (ages : AgeCatalog) (age : Int)
    (a : Attributes) (scene : Scene) :
    let source := a.sourceAt age
    let draw := selectEvent events ages age a scene
    (∀ id, draw.1 = .ok id →
      (∃ pool, ages.get? age = some pool ∧ ∃ r ∈ pool.references, r.event = id ∧
        ∃ e, events.get? id = some e ∧ e.CanBeDrawn source) ∧
      draw.2.1 = { a with history := a.history ++ [id] } ∧
        draw.2.2.chance = scene.chance.next.2) ∧
    (∀ fault, draw.1 = .error fault ↔ DrawFault events ages source age fault) ∧
    (∀ fault, draw.1 = .error fault → draw.2.1 = a ∧ draw.2.2.chance = scene.chance) ∧
    ∀ events' : EventCatalog,
      (∀ pool, ages.get? age = some pool →
        ∀ r ∈ pool.references, r.SameEvent events events' source) →
      selectEvent events' ages age a scene = draw := by
  intro source draw
  exact ⟨fun id hok => selectEvent_ok hok, fun fault => selectEvent_eq_error_iff scene,
    fun fault herror => selectEvent_error herror, fun events' h => selectEvent_congr h scene⟩

/-- The second event of the pool asks for what nobody knows. That decides, although the first could
be drawn and the third is missing; the condition of the one that only follows is not come to. -/
theorem draw_is_eligible_or_first_fault_unknown :
    let follower := { Event.plain "0" "After." with onlyFollows := true, includeIf := some "?" }
    let unknown := { Event.plain "2" "Who?" with includeIf := some "XYZ>1" }
    let weighed (id : String) : Reference := ⟨id, Reference.plainWeight⟩
    let events : EventCatalog := ⟨[follower, Event.plain "1" "Here.", unknown], by decide⟩
    let ages : AgeCatalog := ⟨[⟨0, ["0", "1", "2", "3"].map weighed⟩], by decide⟩
    DrawFault events ages ((Attributes.ofLife 1).sourceAt 0) 0
        (.condition (.missingAttribute "XYZ")) ∧
      (selectEvent events ages 0 (.ofLife 1) ⟨⟨[], 0⟩, #[]⟩).2.1 = .ofLife 1 := by
  intro follower unknown weighed events ages
  have hdraw : (selectEvent events ages 0 (.ofLife 1) ⟨⟨[], 0⟩, #[]⟩).1 =
      .error (.condition (.missingAttribute "XYZ")) := by rfl
  obtain ⟨-, hfault, hunchanged, -⟩ :=
    draw_is_eligible_or_first_fault events ages 0 (.ofLife 1) ⟨⟨[], 0⟩, #[]⟩
  exact ⟨(hfault _).mp hdraw, (hunchanged _ hdraw).1⟩

end LifePath
