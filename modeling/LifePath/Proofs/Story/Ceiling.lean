import LifePath.Proofs.Catalog.References
import LifePath.Proofs.Session.LifeCycle

/-!
# The ceiling of the age

A game that goes on comes nearer to its greatest age with every year. An event that can be drawn
takes a year if it says nothing about time, and at least one if its table keeps to `DrawsTakeTime`;
what follows on it can only add years, however negative the number it says, and a year without
candidates passes all the same. The sum of years is capped at the greatest 32-bit integer, but a
game whose ceiling is lower is over before the cap is met.

`advance_goesOn` says this of one year. `Steps.within_ceiling` is the induction over a run of steps,
with the years that are left up to the ceiling as its measure, and a batch is a run of steps.
-/

namespace LifePath

open LifePath.Decimal

/-- No event that can be drawn says that it takes less than a year. -/
def EventCatalog.DrawsTakeTime (events : EventCatalog) : Prop :=
  ∀ e ∈ events.events, e.onlyFollows = false → ∀ years, e.effect.age = some years → 1 ≤ years

theorem Effect.one_le_years {e : Effect} (h : ∀ years, e.age = some years → 1 ≤ years) :
    1 ≤ e.years true := by
  unfold years
  cases hage : e.age with
  | none => decide
  | some years =>
    have hyears := h years hage
    show 1 ≤ max years 0
    omega

namespace Runner

variable {r : Runner} {age : Int} {a : Attributes} {s s' : Session} {scene scene' : Scene}

/-- The years from an age up to the ceiling, the one at the ceiling included. -/
def yearsLeft (r : Runner) (age : Int) : Int := r.settings.maxAge - age + 1

theorem age_le_of_not_isOver (h : r.isOver age a = false) : age ≤ r.settings.maxAge := by
  unfold isOver Settings.isOver at h
  rw [Bool.or_eq_false_iff, decide_eq_false_iff_not, decide_eq_false_iff_not] at h
  omega

/-- A chain takes at least the years of the event that was drawn. -/
theorem one_le_resolve_years {left : Nat} {id : String} {chain : Chain} {e : Event}
    (he : r.events.get? id = some e) (hyears : 1 ≤ e.effect.years true)
    (h : r.resolve age left true id (a.record id) scene = (.ok chain, scene')) :
    1 ≤ chain.years := by
  obtain ⟨rest, -, -, hchain, -⟩ := resolve_lived (a := a) left (by simp) h
  rw [hchain, EventCatalog.yearsOf_cons, EventCatalog.effectOf_of_get? he]
  have hrest := r.events.yearsOf_nonneg rest false
  have hmax : (1 : Int) ≤ maxInt32 := by decide
  omega

/-- A year that does not end the game brings it nearer to the ceiling, and not past it. -/
theorem advance_goesOn (hmax : r.settings.maxAge < maxInt32) (htime : r.events.DrawsTakeTime)
    {year : Year} (h : r.advance age a scene = (.ok year, scene'))
    (hend : year.entry.isEnd = false) : age < year.age ∧ year.age ≤ r.settings.maxAge := by
  have hover : r.isOver year.age year.attributes = false := by rw [← advance_isEnd h, hend]
  have hle := age_le_of_not_isOver hover
  refine ⟨?_, hle⟩
  -- the age after the year is below the cap, so the years have been added in full
  have hadd : ∀ years, 1 ≤ years → year.age = addYears age years → age < year.age := by
    intro years hyears hage
    unfold addYears at hage
    omega
  rcases advance_ok h with
    ⟨hbefore, rfl, -⟩ | ⟨-, pool, -, ⟨references, chain, hcands, ⟨id, hid, hchain⟩, rfl⟩ |
      ⟨-, -, rfl, -⟩⟩
  · simp at hend
  · obtain ⟨reference, hreference, rfl⟩ := List.mem_map.mp hid
    obtain ⟨-, e, he, heligible⟩ := candidates_ok hcands reference hreference
    have hdrawn : e.onlyFollows = false := by
      cases hfollows : e.onlyFollows with
      | false => rfl
      | true => simp [Event.isEligible, hfollows] at heligible
    have hyears := Effect.one_le_years (htime e (EventCatalog.mem_of_get? he) hdrawn)
    exact hadd chain.years (one_le_resolve_years he hyears hchain) rfl
  · exact hadd 1 (by decide) rfl

/-- A run of steps has no more entries than there are years left, but for the one that ends a game
which is over already; and it has fewer if it has not ended the game. -/
theorem Steps.within_ceiling (hmax : r.settings.maxAge < maxInt32)
    (htime : r.events.DrawsTakeTime) {entries : List Entry}
    (h : r.Steps s scene entries s' scene') :
    (entries.length : Int) ≤ max 1 (r.yearsLeft s.age) ∧
      (s'.status = .active → entries ≠ [] → (entries.length : Int) < r.yearsLeft s.age) := by
  induction h with
  | refl => exact ⟨by rw [List.length_nil]; omega, fun _ hne => absurd rfl hne⟩
  | @cons s s₁ s' scene scene₁ scene' e entries hstep hrest ih =>
    obtain ⟨-, a, year, scene₂, -, hyear, rfl, rfl⟩ := step_ok hstep
    obtain ⟨hlength, hactive⟩ := ih
    rw [List.length_cons]
    cases hend : year.entry.isEnd with
    | true =>
      cases hrest with
      | refl =>
        refine ⟨by rw [List.length_nil]; omega, fun hstatus _ => ?_⟩
        simp [hend] at hstatus
      | cons hnext _ =>
        -- nobody takes a step in a game that has ended
        have hstatus := (step_ok hnext).1
        simp [hend] at hstatus
    | false =>
      obtain ⟨hlater, hle⟩ := advance_goesOn hmax htime hyear hend
      unfold yearsLeft at hlength hactive ⊢
      simp only at hlength hactive
      refine ⟨by omega, fun hstatus _ => ?_⟩
      by_cases hne : entries = []
      · rw [hne, List.length_nil]
        omega
      · have hfewer := hactive hstatus hne
        omega

/-- The entries of a batch that succeeds: as many as were asked for, or fewer if one ends the
game. -/
theorem stepMany_entries {n : Nat} {entries : List Entry}
    (h : r.stepMany n s scene = (.ok entries, s', scene')) :
    entries.length = n ∨ ∃ e ∈ entries, e.isEnd = true := by
  obtain ⟨a, age, a', scene₁, -, hmany, -⟩ := settle_of_stepMany h
  rcases (advanceMany_entries n hmany).2 with hlength | ⟨-, last, hlast, hisEnd⟩
  · exact .inl hlength
  · exact .inr ⟨last, List.mem_of_getLast? hlast, hisEnd⟩

/-- **Every game ends by its greatest age.** Let the greatest age be below the greatest 32-bit
integer, and let every event that can be drawn take at least a year or say nothing about time. A
batch of as many years as an active game has left, and of one year at least, fails or ends the game,
with no more entries than that. -/
theorem stepMany_ends_game {r : Runner} (hmax : r.settings.maxAge < maxInt32)
    (htime : r.events.DrawsTakeTime) {s : Session} (hactive : s.status = .active) {n : Nat}
    (hn : max 1 (r.settings.maxAge - s.age + 1) ≤ n) (scene : Scene) :
    (∃ fault, (r.stepMany n s scene).1 = .error fault) ∨
      ∃ entries s' scene', r.stepMany n s scene = (.ok entries, s', scene') ∧
        s'.status = .ended ∧ (entries.length : Int) ≤ max 1 (r.settings.maxAge - s.age + 1) := by
  rcases h : r.stepMany n s scene with ⟨fault | entries, s', scene'⟩
  · exact .inl ⟨fault, rfl⟩
  · have hsteps := Steps.of_stepMany h
    obtain ⟨hlength, hfewer⟩ := hsteps.within_ceiling hmax htime
    unfold yearsLeft at hlength hfewer
    refine .inr ⟨entries, s', scene', rfl, ?_, hlength⟩
    rcases hsteps.status hactive with ⟨hstatus, hgoesOn⟩ | ⟨hstatus, -⟩
    · -- a game that went on would have more years left than the batch was asked for
      rcases stepMany_entries h with hall | ⟨e, he, hend⟩
      · have hne : entries ≠ [] := by
          rintro rfl
          rw [List.length_nil] at hall
          omega
        have hlt := hfewer hstatus hne
        omega
      · rw [hgoesOn e he] at hend
        simp at hend
    · exact hstatus

/-! ## A life of naps -/

namespace Naps

/-- An event that can be drawn and says nothing about time, and one that follows on it and claims to
give years back. -/
def runner : Runner where
  events := ⟨
    [{ Event.plain "1" "You fall asleep." with next := some "2" },
     { Event.plain "2" "You dream of your youth." with
        effect := { Effect.none with age := some (-5) }, onlyFollows := true }],
    by decide⟩
  ages := ⟨[⟨0, [⟨"1", Reference.plainWeight⟩]⟩, ⟨1, [⟨"1", Reference.plainWeight⟩]⟩], by simp⟩
  settings := { Settings.standard with maxAge := 1 }

def born : Session := ⟨"p", some (.ofLife 1), 0, .active, 0⟩

def opening : Scene := ⟨⟨[], 0⟩, #[]⟩

theorem runner_drawsTakeTime : runner.events.DrawsTakeTime := by
  intro e he hdrawn years hyears
  rcases List.mem_cons.mp he with rfl | he
  · simp [Event.plain, Effect.none] at hyears
  · obtain rfl := List.mem_singleton.mp he
    simp at hdrawn

/-- A year of this life, in which the history does not matter. -/
theorem advance_ok_at {age : Int} (hage : age = 0 ∨ age = 1) (history : List String)
    (scene : Scene) :
    ∃ year scene', runner.advance age ⟨0, 0, 0, 0, 0, 1, history⟩ scene = (.ok year, scene') ∧
      year.age = age + 1 ∧ year.attributes = ⟨0, 0, 0, 0, 0, 1, history ++ ["1"] ++ ["2"]⟩ ∧
      year.entry.isEnd = decide (age = 1) := by
  have hpool : runner.ages.get? age = some ⟨age, [⟨"1", Reference.plainWeight⟩]⟩ := by
    rcases hage with rfl | rfl <;> rfl
  have hover : runner.isOver age ⟨0, 0, 0, 0, 0, 1, history⟩ = false := by
    rcases hage with rfl | rfl <;> rfl
  have hcands : candidates runner.events
      ((⟨0, 0, 0, 0, 0, 1, history⟩ : Attributes).sourceAt age)
      [⟨"1", Reference.plainWeight⟩] = .ok [⟨"1", Reference.plainWeight⟩] := rfl
  simp only [advance, hover, selectEvent_single hpool hcands]
  rcases hage with rfl | rfl <;> exact ⟨_, _, rfl, rfl, rfl, rfl⟩

theorem stepMany_ok (scene : Scene) :
    ∃ entries s' scene', runner.stepMany 2 born scene = (.ok entries, s', scene') := by
  obtain ⟨first, scene₁, hfirst, hage, hattr, hgoesOn⟩ :=
    advance_ok_at (.inl rfl) [] scene
  obtain ⟨second, scene₂, hsecond, -, -, hend⟩ :=
    advance_ok_at (.inr rfl) (["1"] ++ ["2"]) scene₁
  have hborn : runner.advance 0 (.ofLife 1) scene = (.ok first, scene₁) := hfirst
  have hnext : runner.advance first.age first.attributes scene₁ = (.ok second, scene₂) := by
    rw [hage, hattr]
    exact hsecond
  simp only [stepMany, activeAttributes, born, advanceMany, hborn, hgoesOn, hnext, hend]
  exact ⟨_, _, _, rfl⟩

end Naps

open Naps in
/-- Two years are left, and after two years the game is over. -/
theorem stepMany_ends_game_naps :
    runner.settings.maxAge < maxInt32 ∧ runner.events.DrawsTakeTime ∧ born.status = .active ∧
      max 1 (runner.settings.maxAge - born.age + 1) ≤ ((2 : Nat) : Int) ∧
      ∃ entries s' scene', runner.stepMany 2 born opening = (.ok entries, s', scene') ∧
        s'.status = .ended ∧ (entries.length : Int) ≤ 2 := by
  have hmax : runner.settings.maxAge < maxInt32 := by decide
  have hyears : max 1 (runner.settings.maxAge - born.age + 1) ≤ ((2 : Nat) : Int) := by decide
  refine ⟨hmax, runner_drawsTakeTime, rfl, hyears, ?_⟩
  obtain ⟨entries, s', scene', hok⟩ := stepMany_ok opening
  rcases stepMany_ends_game hmax runner_drawsTakeTime rfl hyears opening with
    ⟨fault, hfault⟩ | ⟨entries', s'', scene'', hok', hended, hlength⟩
  · rw [hok] at hfault
    simp at hfault
  · exact ⟨entries', s'', scene'', hok', hended, Int.le_trans hlength hyears⟩

end Runner

end LifePath
