import LifePath.Proofs.Chance.Weighted
import LifePath.Story.Runner

/-!
# What a year can do

One statement for each of `selectEvent`, `resolve` and `advance` says everything that it can do,
its guards and its notices included. What is proved about years elsewhere rests on these and opens
none of the three again.
-/

namespace LifePath

theorem EventCatalog.get?_id {catalog : EventCatalog} {id : String} {e : Event}
    (h : catalog.get? id = some e) : e.id = id := by
  unfold EventCatalog.get? at h
  simpa using List.find?_some h

/-! ## The draw -/

/-- The candidates are references of the pool to events of the catalog that can be drawn. -/
theorem candidates_ok {events : EventCatalog} {source : Source} {references found : List Reference}
    (h : candidates events source references = .ok found) :
    ∀ r ∈ found, r ∈ references ∧
      ∃ e, events.get? r.event = some e ∧ e.isEligible source = .ok true := by
  induction references generalizing found with
  | nil =>
    obtain rfl := Except.ok.inj h
    simp
  | cons first rest ih =>
    rw [candidates] at h
    split at h
    · simp at h
    · next e he =>
      split at h
      · simp at h
      · next eligible heligible =>
        split at h
        · simp at h
        · next others hothers =>
          have hrest : ∀ r ∈ others, r ∈ first :: rest ∧
              ∃ e, events.get? r.event = some e ∧ e.isEligible source = .ok true := by
            intro r hr
            obtain ⟨hmem, heligible⟩ := ih hothers r hr
            exact ⟨List.mem_cons_of_mem _ hmem, heligible⟩
          obtain rfl := Except.ok.inj h
          cases eligible with
          | false => exact hrest
          | true =>
            intro r hr
            rcases List.mem_cons.mp hr with rfl | hr
            · exact ⟨List.mem_cons_self .., e, he, heligible⟩
            · exact hrest r hr

/-- Drawing fails without a pool, without a list of candidates and without candidates, each time
with a fault of its own and with the attributes as they were. Otherwise it gives one of the
candidates, which it has recorded, and takes one word of chance. -/
theorem selectEvent_cases (events : EventCatalog) (ages : AgeCatalog) (age : Int) (a : Attributes)
    (scene : Scene) :
    (ages.get? age = none ∧
      selectEvent events ages age a scene = (.error (.ageNotFound age), a, scene)) ∨
    ∃ pool, ages.get? age = some pool ∧
      ((∃ fault, candidates events (a.sourceAt age) pool.references = .error fault ∧
          selectEvent events ages age a scene = (.error fault.toFault, a, fault.tell scene)) ∨
        (candidates events (a.sourceAt age) pool.references = .ok [] ∧
          selectEvent events ages age a scene = (.error (.noCandidates age), a, scene)) ∨
        ∃ references, candidates events (a.sourceAt age) pool.references = .ok references ∧
          ∃ id ∈ references.map (·.event),
            selectEvent events ages age a scene =
              (.ok id, a.record id,
                { scene with chance := scene.chance.fraction.2 }.tell
                  (.eventSelected age id references.length))) := by
  unfold selectEvent
  cases hpool : ages.get? age with
  | none => exact .inl ⟨rfl, rfl⟩
  | some pool =>
    refine .inr ⟨pool, rfl, ?_⟩
    cases hcands : candidates events (a.sourceAt age) pool.references with
    | error fault =>
      refine .inl ⟨fault, rfl, ?_⟩
      simp only [hcands]
    | ok references =>
      simp only [hcands]
      by_cases hne : references = []
      · subst hne
        exact .inr (.inl ⟨rfl, by simp [drawItems, Chance.weighted?_nil]⟩)
      · have hitems : drawItems references ≠ [] := by simpa [drawItems] using hne
        obtain ⟨id, hid, hdraw⟩ := Chance.weighted?_of_ne_nil hitems scene.chance
        have hid : id ∈ references.map (·.event) := by simpa [drawItems] using hid
        exact .inr (.inr ⟨references, rfl, id, hid, by rw [hdraw]⟩)

/-- Of one candidate the draw can only give this one, whatever it weighs. -/
theorem selectEvent_single {events : EventCatalog} {ages : AgeCatalog} {age : Int} {a : Attributes}
    {pool : AgePool} {reference : Reference} (hpool : ages.get? age = some pool)
    (hcands : candidates events (a.sourceAt age) pool.references = .ok [reference])
    (scene : Scene) :
    selectEvent events ages age a scene =
      (.ok reference.event, a.record reference.event,
        { scene with chance := scene.chance.fraction.2 }.tell
          (.eventSelected age reference.event 1)) := by
  obtain ⟨id, hid, hdraw⟩ := Chance.weighted?_of_ne_nil
    (List.cons_ne_nil (reference.event, reference.weight) []) scene.chance
  obtain rfl : id = reference.event := by simpa using hid
  simp only [selectEvent, hpool, hcands, drawItems, List.map, hdraw, List.length_singleton]

/-- No fault of a pool passes for a pool without candidates. -/
theorem PoolFault.toFault_ne_noCandidates (fault : PoolFault) (age : Int) :
    fault.toFault ≠ .noCandidates age := by
  cases fault <;> simp [toFault]

namespace Runner

variable {r : Runner} {age : Int} {a : Attributes} {scene scene' : Scene}

/-! ## The chain -/

/-- A chain that finishes begins with an event of the catalog, whose changes apply after it is
decided what follows on it. Either nothing follows, or the rest of the chain does. -/
theorem resolve_ok {left : Nat} {drawn : Bool} {id : String} {chain : Chain}
    (h : r.resolve age left drawn id a scene = (.ok chain, scene')) :
    ∃ e before left', left = left' + 1 ∧ r.events.get? id = some e ∧
      before = (if drawn then a else a.record id) ∧
      ((e.followUp (before.sourceAt age) = .ok none ∧ scene' = scene ∧
          chain = ⟨[e.happening], addYears 0 (e.effect.years drawn), before.apply e.effect⟩) ∨
        ∃ next rest, e.followUp (before.sourceAt age) = .ok (some next) ∧
          r.resolve age left' false next (before.apply e.effect)
            (scene.tell (.followUpResolved e.id next)) = (.ok rest, scene') ∧
          chain = ⟨e.happening :: rest.happenings, addYears (e.effect.years drawn) rest.years,
            rest.attributes⟩) := by
  cases left with
  | zero => simp [resolve] at h
  | succ left =>
    simp only [resolve] at h
    split at h
    · simp at h
    · next e he =>
      generalize (if drawn then a else a.record id) = before at h ⊢
      refine ⟨e, before, left, rfl, he, rfl, ?_⟩
      split at h
      · simp at h
      · next hnext =>
        split at h
        · simp only [Prod.mk.injEq, Except.ok.injEq] at h
          obtain ⟨rfl, rfl⟩ := h
          exact .inl ⟨hnext, rfl, rfl⟩
        · next follower =>
          split at h
          · simp at h
          · next rest scene₁ hrest =>
            simp only [Prod.mk.injEq, Except.ok.injEq] at h
            obtain ⟨rfl, rfl⟩ := h
            exact .inr ⟨follower, rest, hnext, hrest, rfl⟩

/-! ## The year -/

/-- A year succeeds in three ways: the game is over already, the chain of a drawn event finishes,
or nothing can be drawn and the settings let the year pass. -/
theorem advance_ok {year : Year} (h : r.advance age a scene = (.ok year, scene')) :
    (r.isOver age a = true ∧ year = ⟨age, a, ⟨age, [], a.numbers, true⟩⟩ ∧ scene' = scene) ∨
    r.isOver age a = false ∧ ∃ pool, r.ages.get? age = some pool ∧
      ((∃ references chain, candidates r.events (a.sourceAt age) pool.references = .ok references ∧
          (∃ id ∈ references.map (·.event),
            r.resolve age (r.settings.maxChain + 1) true id (a.record id)
              ({ scene with chance := scene.chance.fraction.2 }.tell
                (.eventSelected age id references.length)) = (.ok chain, scene')) ∧
          year = r.finishYear age chain) ∨
        (candidates r.events (a.sourceAt age) pool.references = .ok [] ∧
          r.settings.emptyPool = .advanceAge ∧ year = r.finishYear age ⟨[], 1, a⟩ ∧
          scene' = scene.tell (.yearPasses age))) := by
  unfold advance at h
  split at h
  · next hover =>
    simp only [Prod.mk.injEq, Except.ok.injEq] at h
    exact .inl ⟨hover, h.1.symm, h.2.symm⟩
  · next hover =>
    refine .inr ⟨by simpa using hover, ?_⟩
    rcases selectEvent_cases r.events r.ages age a scene with
      ⟨-, hsel⟩ | ⟨pool, hpool, ⟨fault, -, hsel⟩ | ⟨hcands, hsel⟩ |
        ⟨references, hcands, id, hid, hsel⟩⟩
    · simp [hsel] at h
    · -- the fault of a pool is never excused
      rw [hsel] at h
      simp only at h
      split at h
      · next age₁ hfault _ => exact absurd hfault (fault.toFault_ne_noCandidates age₁)
      · simp at h
    · refine ⟨pool, hpool, .inr ⟨hcands, ?_⟩⟩
      rw [hsel] at h
      cases hempty : r.settings.emptyPool with
      | fail => simp [hempty] at h
      | advanceAge =>
        simp only [hempty, Prod.mk.injEq, Except.ok.injEq] at h
        exact ⟨rfl, h.1.symm, h.2.symm⟩
    · refine ⟨pool, hpool, .inl ?_⟩
      rw [hsel] at h
      simp only at h
      split at h
      · simp at h
      · next chain scene₁ hchain =>
        simp only [Prod.mk.injEq, Except.ok.injEq] at h
        obtain ⟨rfl, rfl⟩ := h
        exact ⟨references, chain, hcands, ⟨id, hid, hchain⟩, rfl⟩

end Runner

end LifePath
