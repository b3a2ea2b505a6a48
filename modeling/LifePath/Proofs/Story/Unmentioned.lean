import LifePath.Proofs.Attribute.Allocation
import LifePath.Proofs.Catalog.References
import LifePath.Proofs.Condition.Mention
import LifePath.Proofs.Story.Faults
import LifePath.Proofs.Story.Year
import Mathlib.Data.List.Forall2

/-!
# Attributes that no condition mentions

One of the five numbers that are handed out can take part in a story only through a condition: it is
not drawn with, and it does not end a game. If no condition of a table mentions it (`Ignores`), two
lives that differ in this number alone are told alike, year by year and fault by fault, and the
difference between them stays what it was.

`Attributes.alter` changes a number by a function. Each function of a year commutes with it, from
the outcome of a condition up to a batch, as long as it does not matter whether an effect is added
before or after (`Movable`). Adding a difference in 32 bits is such a function. Adding it in full is
not, but the two are the same wherever the sum is in range.
-/

namespace LifePath

open LifePath.Decimal

/-! ## A number that is altered -/

/-- The attributes with the number under a code altered. -/
def Attributes.alter (a : Attributes) (code : Code) (f : Int → Int) : Attributes :=
  a.set code (f ((a.number? code).getD 0))

/-- It does not matter whether something is added before or after a number is altered. -/
def Movable (f : Int → Int) : Prop :=
  ∀ n change, wrapInt32 (f n + change) = f (wrapInt32 (n + change))

theorem movable_add (d : Int) : Movable fun n => wrapInt32 (n + d) := by
  intro n change
  show wrapInt32 (wrapInt32 (n + d) + change) = wrapInt32 (wrapInt32 (n + change) + d)
  rw [wrapInt32_wrapInt32_add, wrapInt32_wrapInt32_add, Int.add_right_comm]

theorem Code.text_of_ofText? {text : String} {code : Code} (h : Code.ofText? text = some code) :
    code.text = text := by
  unfold Code.ofText? at h
  simpa using List.find?_some h

namespace Attributes

variable {a : Attributes} {code : Code} {f : Int → Int}

theorem number?_alter_of_ne {other : Code} (h : other ≠ code) :
    (a.alter code f).number? other = a.number? other := by
  cases code <;> cases other <;> simp_all [alter, set, number?]

theorem history_alter : (a.alter code f).history = a.history := history_set ..

theorem apply_alter (hf : Movable f) (e : Effect) :
    (a.alter code f).apply e = (a.apply e).alter code f := by
  cases code <;> simp [alter, set, number?, apply, hf _ _]

theorem record_alter (event : String) :
    (a.alter code f).record event = (a.record event).alter code f := by
  cases code <;> rfl

/-- Life is not among the numbers that are handed out. -/
theorem lif_alter (hcode : code ∈ Code.allocatable) : (a.alter code f).lif = a.lif := by
  have hne : Code.lif ≠ code := by
    rintro rfl
    exact absurd hcode (by decide)
  have hnumber := number?_alter_of_ne (a := a) (f := f) hne
  exact Option.some.inj hnumber

/-- The array of the numbers is altered in the place of the code. -/
theorem numbers_alter (hcode : code ∈ Code.allocatable) :
    (a.alter code f).numbers = a.numbers.modify (Code.allocatable.idxOf code) f := by
  simp only [Code.allocatable, List.mem_cons, List.not_mem_nil, or_false] at hcode
  rcases hcode with rfl | rfl | rfl | rfl | rfl <;> rfl

/-- Under any other code the source knows the same. -/
theorem sourceAt_alter {age : Int} {text : String} (hne : text ≠ code.text) :
    (a.alter code f).sourceAt age text = a.sourceAt age text := by
  unfold sourceAt
  split
  · rfl
  · unfold source
    cases hother : Code.ofText? text with
    | none => rfl
    | some other =>
      have hcode : other ≠ code := by
        rintro rfl
        exact hne (Code.text_of_ofText? hother).symm
      by_cases hhistory : other = .evt
      · subst hhistory
        show some (Value.list (a.alter code f).history) = some (Value.list a.history)
        rw [history_alter]
      · simp only [number?_alter_of_ne hcode]

end Attributes

/-! ## Conditions of a table -/

/-- All conditions of an event: when it cannot be drawn, when it can, and where it leads. -/
def Event.conditions (e : Event) : List String :=
  e.excludeIf.toList ++ e.includeIf.toList ++ e.branches.filterMap (·.condition)

/-- Whether no condition of any event mentions the attribute under a code. -/
def EventCatalog.Ignores (events : EventCatalog) (code : Code) : Prop :=
  ∀ e ∈ events.events, ∀ text ∈ e.conditions, ¬ Mentions text code.text

section

variable {a : Attributes} {code : Code} {f : Int → Int} {age : Int}

theorem holdsOr_alter {absent : Bool} {condition : Option String}
    (h : ∀ text ∈ condition, ¬ Mentions text code.text) :
    holdsOr ((a.alter code f).sourceAt age) absent condition =
      holdsOr (a.sourceAt age) absent condition := by
  cases condition with
  | none => rfl
  | some text =>
    apply checkCondition_congr
    intro other hmentions
    apply Attributes.sourceAt_alter
    rintro rfl
    exact h text rfl hmentions

variable {e : Event} (h : ∀ text ∈ e.conditions, ¬ Mentions text code.text)

include h

theorem Event.isEligible_alter :
    e.isEligible ((a.alter code f).sourceAt age) = e.isEligible (a.sourceAt age) := by
  have hexclude : ∀ text ∈ e.excludeIf, ¬ Mentions text code.text := by
    intro text htext
    exact h text (by simp [conditions, Option.mem_def.mp htext])
  have hinclude : ∀ text ∈ e.includeIf, ¬ Mentions text code.text := by
    intro text htext
    exact h text (by simp [conditions, Option.mem_def.mp htext])
  unfold isEligible
  rw [holdsOr_alter hexclude, holdsOr_alter hinclude]

theorem Event.followUp_alter :
    e.followUp ((a.alter code f).sourceAt age) = e.followUp (a.sourceAt age) := by
  have hbranches : ∀ b ∈ e.branches, ∀ text ∈ b.condition, ¬ Mentions text code.text := by
    intro b hb text htext
    apply h text
    unfold conditions
    exact List.mem_append_right _ (List.mem_filterMap.mpr ⟨b, hb, htext⟩)
  unfold followUp
  generalize e.branches = branches at hbranches
  induction branches with
  | nil => rfl
  | cons b rest ih =>
    rw [firstOpen, firstOpen, holdsOr_alter (hbranches b (List.mem_cons_self ..)),
      ih fun b' hb' => hbranches b' (List.mem_cons_of_mem _ hb')]

end

/-! ## A year -/

/-- The chain with the attributes afterwards altered. -/
def Chain.alter (chain : Chain) (code : Code) (f : Int → Int) : Chain :=
  { chain with attributes := chain.attributes.alter code f }

/-- The entry with the number in the place of a code altered. -/
def Entry.alter (e : Entry) (code : Code) (f : Int → Int) : Entry :=
  { e with numbers := e.numbers.modify (Code.allocatable.idxOf code) f }

/-- The year with the attributes afterwards, and the number that is told, altered. -/
def Year.alter (year : Year) (code : Code) (f : Int → Int) : Year :=
  { year with attributes := year.attributes.alter code f, entry := year.entry.alter code f }

/-- The session with a number altered, if it has its attributes. -/
def Session.alter (s : Session) (code : Code) (f : Int → Int) : Session :=
  { s with attributes := s.attributes.map (·.alter code f) }

section

variable {events : EventCatalog} {code : Code} {f : Int → Int} {a : Attributes} {age : Int}

theorem candidates_alter (h : events.Ignores code) (references : List Reference) :
    candidates events ((a.alter code f).sourceAt age) references =
      candidates events (a.sourceAt age) references := by
  induction references with
  | nil => rfl
  | cons reference rest ih =>
    rw [candidates, candidates, ih]
    cases he : events.get? reference.event with
    | none => rfl
    | some e => simp only [Event.isEligible_alter (h e (EventCatalog.mem_of_get? he))]

/-- The draw is among the same candidates, with the same word of chance. -/
theorem selectEvent_alter (h : events.Ignores code) (ages : AgeCatalog) (scene : Scene) :
    selectEvent events ages age (a.alter code f) scene =
      (selectEvent events ages age a scene).map id (·.map (·.alter code f) id) := by
  unfold selectEvent
  cases ages.get? age with
  | none => rfl
  | some pool =>
    simp only [candidates_alter h]
    cases candidates events (a.sourceAt age) pool.references with
    | error fault => rfl
    | ok references =>
      rcases hdraw : Chance.weighted? (drawItems references) scene.chance with ⟨_ | id, chance⟩
      · simp only [hdraw]
        rfl
      · simp only [hdraw, Attributes.record_alter]
        rfl

end

namespace Runner

variable {r : Runner} {code : Code} {f : Int → Int}

theorem isOver_alter (hcode : code ∈ Code.allocatable) (age : Int) (a : Attributes) :
    r.isOver age (a.alter code f) = r.isOver age a := by
  rw [isOver, isOver, Attributes.lif_alter hcode]

theorem resolve_alter (hf : Movable f) (h : r.events.Ignores code) (age : Int) :
    ∀ (left : Nat) (drawn : Bool) (event : String) (a : Attributes) (scene : Scene),
      r.resolve age left drawn event (a.alter code f) scene =
        (r.resolve age left drawn event a scene).map (·.map (·.alter code f)) id := by
  intro left
  induction left with
  | zero => intro drawn event a scene; rfl
  | succ left ih =>
    intro drawn event a scene
    simp only [resolve]
    cases he : r.events.get? event with
    | none => rfl
    | some e =>
      have hbefore : (if drawn then a.alter code f else (a.alter code f).record event) =
          (if drawn then a else a.record event).alter code f := by
        cases drawn with
        | false => exact Attributes.record_alter event
        | true => rfl
      generalize (if drawn then a else a.record event) = before at hbefore ⊢
      simp only [hbefore, Event.followUp_alter (h e (EventCatalog.mem_of_get? he))]
      cases e.followUp (before.sourceAt age) with
      | error fault => rfl
      | ok next =>
        simp only [Attributes.apply_alter hf]
        cases next with
        | none => rfl
        | some next =>
          simp only [ih]
          rcases r.resolve age left false next (before.apply e.effect)
            (tellFollowUp e.id (some next) scene) with ⟨fault | rest, scene'⟩
          · rfl
          · rfl

theorem finishYear_alter (hcode : code ∈ Code.allocatable) (age : Int) (chain : Chain) :
    r.finishYear age (chain.alter code f) = (r.finishYear age chain).alter code f := by
  simp only [finishYear, Chain.alter, Year.alter, Entry.alter, isOver_alter hcode,
    Attributes.numbers_alter hcode]

theorem advance_alter (hcode : code ∈ Code.allocatable) (hf : Movable f)
    (h : r.events.Ignores code) (age : Int) (a : Attributes) (scene : Scene) :
    r.advance age (a.alter code f) scene =
      (r.advance age a scene).map (·.map (·.alter code f)) id := by
  unfold advance
  rw [isOver_alter hcode, selectEvent_alter h]
  split
  · rw [Attributes.numbers_alter hcode]
    rfl
  · rcases selectEvent r.events r.ages age a scene with ⟨fault | event, a₁, scene₁⟩
    · -- an empty pool may let the year pass, with the attributes that come back
      have huneventful : r.finishYear age ⟨[], 1, a₁.alter code f⟩ =
          (r.finishYear age ⟨[], 1, a₁⟩).alter code f := finishYear_alter hcode age ⟨[], 1, a₁⟩
      simp only [Prod.map_apply, id]
      split
      · rw [huneventful]
        rfl
      · rfl
    · simp only [Prod.map_apply, id, resolve_alter hf h]
      rcases r.resolve age (r.settings.maxChain + 1) true event a₁ scene₁ with
        ⟨fault | chain, scene₂⟩
      · rfl
      · simp only [Prod.map_apply, Except.map, id, finishYear_alter hcode]

theorem advanceMany_alter (hcode : code ∈ Code.allocatable) (hf : Movable f)
    (h : r.events.Ignores code) :
    ∀ (n : Nat) (age : Int) (a : Attributes) (scene : Scene),
      r.advanceMany n age (a.alter code f) scene =
        (r.advanceMany n age a scene).map
          (·.map fun out => (out.1.map (·.alter code f), out.2.1, out.2.2.alter code f)) id := by
  intro n
  induction n with
  | zero => intro age a scene; rfl
  | succ n ih =>
    intro age a scene
    rw [advanceMany, advanceMany, advance_alter hcode hf h]
    rcases r.advance age a scene with ⟨fault | year, scene₁⟩
    · rfl
    · have hend : (year.alter code f).entry.isEnd = year.entry.isEnd := rfl
      simp only [Prod.map_apply, Except.map, id, hend]
      split
      · rfl
      · have hrest := ih year.age year.attributes scene₁
        simp only [Year.alter, hrest]
        rcases r.advanceMany n year.age year.attributes scene₁ with
          ⟨fault | ⟨entries, age', a'⟩, scene₂⟩
        · rfl
        · rfl

/-! ## A batch -/

theorem activeAttributes_alter (s : Session) :
    activeAttributes (s.alter code f) = (activeAttributes s).map (·.alter code f) := by
  obtain ⟨identity, attributes, age, status, lastActive⟩ := s
  cases status <;> cases attributes <;> rfl

theorem commitStep_alter (s : Session) (age : Int) (a : Attributes) (last : Entry)
    (scene : Scene) :
    commitStep (s.alter code f) age (a.alter code f) (last.alter code f) scene =
      (commitStep s age a last scene).map (·.alter code f) id := by
  have hend : (last.alter code f).isEnd = last.isEnd := rfl
  unfold commitStep
  rw [hend]
  split <;> rfl

theorem stepMany_alter (hcode : code ∈ Code.allocatable) (hf : Movable f)
    (h : r.events.Ignores code) (n : Nat) (s : Session) (scene : Scene) :
    r.stepMany n (s.alter code f) scene =
      (r.stepMany n s scene).map (·.map (·.map (·.alter code f))) (·.map (·.alter code f) id) := by
  have hage : (s.alter code f).age = s.age := rfl
  unfold stepMany
  rw [activeAttributes_alter, hage]
  cases activeAttributes s with
  | error fault => rfl
  | ok a =>
    simp only [Except.map, advanceMany_alter hcode hf h]
    rcases r.advanceMany n s.age a scene with ⟨fault | ⟨entries, age, a'⟩, scene₁⟩
    · rfl
    · simp only [Prod.map_apply, id, List.getLast?_map]
      cases entries.getLast? with
      | none => rfl
      | some last =>
        simp only [Option.map_some, commitStep_alter]
        rfl

end Runner

/-! ## A number that differs -/

/-- The session with a number moved by a difference, if it has its attributes. -/
def Session.shift (s : Session) (code : Code) (d : Int) : Session := s.alter code (· + d)

/-- The number under a code can be moved by a difference and is still a 32-bit integer. -/
def Session.HasRoom (code : Code) (d : Int) (s : Session) : Prop :=
  ∀ a, s.attributes = some a → ∀ n, a.number? code = some n → fitsInt32 (n + d) = true

/-- Two sessions that are the same but for the number under a code, which differs by `d`. -/
structure Session.DiffersIn (code : Code) (d : Int) (s s' : Session) : Prop where
  /-- in 32 bits -/
  wrapped : s' = s.alter code fun n => wrapInt32 (n + d)
  /-- in full unless that is out of range -/
  inFull : s.HasRoom code d → s' = s.shift code d

/-- Two entries that are told alike but for the number under a code, which differs by `d`. -/
structure Entry.DiffersIn (code : Code) (d : Int) (e e' : Entry) : Prop where
  age : e'.age = e.age
  happenings : e'.happenings = e.happenings
  text : e'.text = e.text
  isEnd : e'.isEnd = e.isEnd
  /-- in 32 bits -/
  numbers : e'.numbers =
    e.numbers.modify (Code.allocatable.idxOf code) fun n => wrapInt32 (n + d)
  /-- in full unless that is out of range -/
  inFull : (∀ n, e.numbers[Code.allocatable.idxOf code]? = some n → fitsInt32 (n + d) = true) →
    e'.numbers = e.numbers.modify (Code.allocatable.idxOf code) (· + d)

section

variable {code : Code} {d : Int}

theorem Attributes.alter_congr {a : Attributes} {f g : Int → Int}
    (h : ∀ n, a.number? code = some n → f n = g n) : a.alter code f = a.alter code g := by
  unfold alter
  cases hnumber : a.number? code with
  | none => cases code <;> simp_all [number?, set]
  | some n => rw [Option.getD_some, h n hnumber]

/-- Where there is room, adding in 32 bits is adding in full. -/
theorem Session.HasRoom.alter_eq {s : Session} (h : s.HasRoom code d) :
    (s.alter code fun n => wrapInt32 (n + d)) = s.shift code d := by
  unfold shift alter
  cases ha : s.attributes with
  | none => rfl
  | some a =>
    have hroom : a.alter code (fun n => wrapInt32 (n + d)) = a.alter code (· + d) :=
      Attributes.alter_congr fun n hn => wrapInt32_of_fits (h a ha n hn)
    rw [Option.map_some, Option.map_some, hroom]

theorem Session.differsIn_alter (s : Session) :
    s.DiffersIn code d (s.alter code fun n => wrapInt32 (n + d)) :=
  ⟨rfl, HasRoom.alter_eq⟩

theorem Entry.differsIn_alter (e : Entry) :
    e.DiffersIn code d (e.alter code fun n => wrapInt32 (n + d)) := by
  refine ⟨rfl, rfl, rfl, rfl, rfl, fun h => ?_⟩
  apply List.ext_getElem?
  intro i
  simp only [alter, List.getElem?_modify]
  split
  · next hi =>
    subst hi
    cases hn : e.numbers[Code.allocatable.idxOf code]? with
    | none => rfl
    | some n => exact congrArg some (wrapInt32_of_fits (h n hn))
  · rfl

end

namespace Runner

/-- **A number that no condition mentions has no influence on the story.** Take one of the five
numbers that are handed out, and two sessions that differ in it by `d` and in nothing else. If no
condition of an event of the table mentions the number, a batch either fails for both with the same
fault, and leaves both as they were, or gives both as many entries, which differ by `d` in this
number alone, and sessions that again differ by `d` in it and in nothing else: exactly by `d`
wherever that is in range. The chance that is left and the notices are the same. -/
theorem unmentioned_number_without_influence {r : Runner} {code : Code}
    (hcode : code ∈ Code.allocatable) (h : r.events.Ignores code) {d : Int} {s : Session}
    (hroom : s.HasRoom code d) (n : Nat) (scene : Scene) :
    match r.stepMany n s scene with
    | (.error fault, s', scene') => s' = s ∧
      r.stepMany n (s.shift code d) scene = (.error fault, s.shift code d, scene')
    | (.ok entries, s', scene') => ∃ entries' t',
      r.stepMany n (s.shift code d) scene = (.ok entries', t', scene') ∧
        List.Forall₂ (Entry.DiffersIn code d) entries entries' ∧ s'.DiffersIn code d t' := by
  have hshift := stepMany_alter hcode (movable_add d) h n s scene
  rw [hroom.alter_eq] at hshift
  rw [hshift]
  rcases hmany : r.stepMany n s scene with ⟨fault | entries, s', scene'⟩
  · obtain rfl := stepMany_error_session hmany
    rw [← hroom.alter_eq]
    exact ⟨rfl, rfl⟩
  · refine ⟨_, _, rfl, ?_, s'.differsIn_alter⟩
    rw [List.forall₂_map_right_iff, List.forall₂_same]
    exact fun e _ => e.differsIn_alter

/-! ## A plain life -/

namespace PlainLife

/-- An event with conditions on wits and strength, which changes the looks. -/
def learning : Event :=
  { Event.plain "1" "You learn to write." with
    includeIf := some "INT>=0"
    branches := [⟨some "STR>0", "2"⟩]
    effect := { Effect.none with chr := 2 } }

def events : EventCatalog :=
  ⟨[learning, { Event.plain "2" "You write home." with onlyFollows := true }], by decide⟩

def runner : Runner := ⟨events, Treadmill.ages, Settings.standard⟩

def born : Session := ⟨"p", some ⟨1, 0, 1, 0, 0, 1, []⟩, 0, .active, 0⟩

def opening : Scene := ⟨⟨[], 0⟩, #[]⟩

/-- A single comparison mentions its own attribute and no other. -/
theorem not_mentions {text code : String} {c : Comparison}
    (hleaf : Condition.read text = .leaf text)
    (hc : Comparison.read text = .ok c) (hne : c.code ≠ code) : ¬ Mentions text code := by
  rintro ⟨leaf, hmem, c', hc', hcode⟩
  rw [hleaf, Condition.leaves] at hmem
  obtain rfl := List.mem_singleton.mp hmem
  obtain rfl := Except.ok.inj (hc.symm.trans hc')
  exact hne hcode

theorem events_ignores_looks : runner.events.Ignores .chr := by
  intro e he text htext
  rcases List.mem_cons.mp he with rfl | he
  · have hconditions : learning.conditions = ["INT>=0", "STR>0"] := rfl
    rw [hconditions] at htext
    rcases List.mem_cons.mp htext with rfl | htext
    · exact not_mentions (c := ⟨"INT", .greaterEqual, .integer 0⟩) rfl rfl (by decide)
    · obtain rfl := List.mem_singleton.mp htext
      exact not_mentions (c := ⟨"STR", .greater, .integer 0⟩) rfl rfl (by decide)
  · obtain rfl := List.mem_singleton.mp he
    simp [Event.conditions, Event.plain] at htext

theorem stepMany_one :
    ∃ s' scene', runner.stepMany 1 born opening =
      (.ok [⟨0, [⟨"1", "You learn to write.", 0⟩, ⟨"2", "You write home.", 0⟩],
        [3, 0, 1, 0, 0, 1], false⟩], s', scene') := by
  have hpool : runner.ages.get? 0 = some ⟨0, [⟨"1", Reference.plainWeight⟩]⟩ := rfl
  have hover : runner.isOver 0 ⟨1, 0, 1, 0, 0, 1, []⟩ = false := rfl
  have hcands : candidates runner.events ((⟨1, 0, 1, 0, 0, 1, []⟩ : Attributes).sourceAt 0)
      [⟨"1", Reference.plainWeight⟩] = .ok [⟨"1", Reference.plainWeight⟩] := rfl
  simp only [stepMany, activeAttributes, born, advanceMany, advance, hover,
    selectEvent_single hpool hcands]
  exact ⟨_, _, rfl⟩

end PlainLife

open PlainLife in
/-- Five points of looks more change the first number by five and nothing else. -/
theorem unmentioned_number_without_influence_looks :
    Code.chr ∈ Code.allocatable ∧ runner.events.Ignores .chr ∧ born.HasRoom .chr 5 ∧
      ∃ entries s' scene', runner.stepMany 1 born opening = (.ok entries, s', scene') ∧
        ∃ e' t', runner.stepMany 1 (born.shift .chr 5) opening = (.ok [e'], t', scene') ∧
          e'.numbers = [8, 0, 1, 0, 0, 1] := by
  have hcode : Code.chr ∈ Code.allocatable := by decide
  have hroom : born.HasRoom .chr 5 := by
    rintro a ⟨⟩ n ⟨⟩
    decide
  obtain ⟨s', scene', hmany⟩ := stepMany_one
  have h := unmentioned_number_without_influence hcode events_ignores_looks hroom 1 opening
  rw [hmany] at h
  obtain ⟨entries', t', hshifted, hdiffer, -⟩ := h
  refine ⟨hcode, events_ignores_looks, hroom, _, s', scene', hmany, ?_⟩
  obtain ⟨e', rest, hdiffers, hrest, rfl⟩ := List.forall₂_cons_left_iff.mp hdiffer
  obtain rfl := List.forall₂_nil_left_iff.mp hrest
  refine ⟨e', t', hshifted, hdiffers.inFull ?_⟩
  rintro n ⟨⟩
  decide

end Runner

end LifePath
