import LifePath.Proofs.Lookup
import LifePath.Session.Interleaving

/-!
# Callers do not get into each other's way

A caller looks its slot up and waits for it without holding anything, so the slot can be taken off
the store before the caller has it. `Orderly` says what callers can rely on all the same: nobody
works on a session that was not live when its caller looked again, nobody works on a session
together with somebody else, and somebody can always go on.

`Turn` says once what a step of a caller can be, with all its conditions. From it comes what every
step keeps (`Sound`): slots are numbers of sessions, no two callers hold the same one, and a slot
that has been taken off the store is never put back, for a new session gets a new number.
-/

namespace LifePath

variable {α : Type}

/-- The slot that a phase is about. -/
def Phase.slot? : Phase α → Option Nat
  | .waiting slot => some slot
  | .checking slot => some slot
  | .working slot => some slot
  | _ => none

/-- Whether the caller has nothing left to do. -/
def Phase.isDone : Phase α → Bool
  | .answered _ => true
  | .served => true
  | _ => false

theorem Phase.slot?_of_held? {phase : Phase α} {slot : Nat} (h : phase.held? = some slot) :
    phase.slot? = some slot := by
  cases phase with
  | checking => exact h
  | working => exact h
  | _ => cases h

/-- Whether a caller with a request can be in a phase: only a session that is to be used is waited
for, and only the others are served without an answer. -/
def Request.Meets : Request α → Phase α → Prop
  | .use .., .served => False
  | .use .., _ => True
  | _, .looking => True
  | _, .served => True
  | _, _ => False

namespace Traffic

variable {t t' : Traffic α} {now : Int} {i j slot : Nat} {request : Request α}
  {phase phase' : Phase α} {live : List (String × Nat)} {sessions : List Session}

/-- A caller makes a request and is in a phase. -/
def At (t : Traffic α) (i : Nat) (request : Request α) (phase : Phase α) : Prop :=
  t.callers[i]? = some ⟨request, phase⟩

theorem At.unique {request' : Request α} (h : t.At i request phase) (h' : t.At i request' phase') :
    request = request' ∧ phase = phase' :=
  Caller.mk.inj (Option.some.inj (h.symm.trans h'))

/-- A caller holds a slot. -/
def Holds (t : Traffic α) (i slot : Nat) : Prop :=
  ∃ request phase, t.At i request phase ∧ phase.held? = some slot

/-! ## Steps -/

/-- What the next step of a caller can be: from one phase to another, with the live slots and the
sessions afterwards. -/
inductive Turn (now : Int) (t : Traffic α) :
    Request α → Phase α → Phase α → List (String × Nat) → List Session → Prop where
  | missed {identity : String} {act : Session → α × Session} :
      t.live.lookup identity = none →
      Turn now t (.use identity act) .looking (.answered (.error (.sessionNotFound identity)))
        t.live t.sessions
  | found {identity : String} {act : Session → α × Session} {slot : Nat} :
      t.live.lookup identity = some slot →
      Turn now t (.use identity act) .looking (.waiting slot) t.live t.sessions
  | lock {identity : String} {act : Session → α × Session} {slot : Nat} :
      t.isHeld slot = false →
      Turn now t (.use identity act) (.waiting slot) (.checking slot) t.live t.sessions
  | confirm {identity : String} {act : Session → α × Session} {slot : Nat} :
      t.live.lookup identity = some slot →
      Turn now t (.use identity act) (.checking slot) (.working slot) t.live t.sessions
  | retry {identity : String} {act : Session → α × Session} {slot : Nat} :
      t.live.lookup identity ≠ some slot →
      Turn now t (.use identity act) (.checking slot) .looking t.live t.sessions
  | work {identity : String} {act : Session → α × Session} {slot : Nat} {s : Session} :
      t.sessions[slot]? = some s →
      Turn now t (.use identity act) (.working slot) (.answered (.ok (act (s.touch now)).1))
        t.live (t.sessions.set slot (act (s.touch now)).2)
  | start {identity : String} {startAge : Int} :
      Turn now t (.start identity startAge) .looking .served
        ((identity, t.sessions.length) :: t.live.filter fun entry => entry.1 != identity)
        (t.sessions ++ [(Session.create identity now).beginAt startAge now])
  | finish {identity : String} :
      Turn now t (.finish identity) .looking .served
        (t.live.filter fun entry => entry.1 != identity) t.sessions
  | evict {timeout : Int} :
      Turn now t (.evict timeout) .looking .served
        (t.live.filter fun entry => !t.isEvictable timeout now entry.2) t.sessions

/-- A caller takes a step exactly if it has a turn. -/
theorem step?_eq_some_iff :
    t.step? now i = some t' ↔ ∃ request phase phase' live sessions, t.At i request phase ∧
      Turn now t request phase phase' live sessions ∧
      t' = ({ t with live, sessions } : Traffic α).moveTo i phase' := by
  unfold At
  constructor
  · intro h
    unfold step? at h
    cases hcaller : t.callers[i]? with
    | none => simp [hcaller] at h
    | some caller =>
      obtain ⟨request, phase⟩ := caller
      rw [hcaller] at h
      simp only [Option.bind_eq_bind, Option.bind_some] at h
      refine ⟨request, phase, ?_⟩
      split at h
      · split at h
        · next hlookup =>
          exact ⟨_, _, _, rfl, .missed hlookup, (Option.some.inj h).symm⟩
        · next slot hlookup =>
          exact ⟨_, _, _, rfl, .found hlookup, (Option.some.inj h).symm⟩
      · next slot =>
        split at h
        · simp at h
        · next hfree =>
          exact ⟨_, _, _, rfl, .lock (by simpa using hfree), (Option.some.inj h).symm⟩
      · split at h
        · next hlookup =>
          exact ⟨_, _, _, rfl, .confirm hlookup, (Option.some.inj h).symm⟩
        · next hlookup =>
          exact ⟨_, _, _, rfl, .retry hlookup, (Option.some.inj h).symm⟩
      · next identity act slot =>
        cases hs : t.sessions[slot]? with
        | none => simp [hs] at h
        | some s =>
          simp only [hs, Option.bind_some] at h
          exact ⟨_, _, _, rfl, .work hs, (Option.some.inj h).symm⟩
      · exact ⟨_, _, _, rfl, .start, (Option.some.inj h).symm⟩
      · exact ⟨_, _, _, rfl, .finish, (Option.some.inj h).symm⟩
      · exact ⟨_, _, _, rfl, .evict, (Option.some.inj h).symm⟩
      · simp at h
  · rintro ⟨request, phase, phase', live, sessions, hat, hturn, rfl⟩
    unfold step?
    simp only [hat, Option.bind_eq_bind, Option.bind_some]
    cases hturn with
    | missed hlookup => simp only [hlookup]
    | found hlookup => simp only [hlookup]
    | lock hfree => simp only [hfree]; rfl
    | confirm hlookup => simp only [hlookup]; rfl
    | retry hlookup => simp only [if_neg hlookup]
    | work hs => simp only [hs, Option.bind_some]
    | start => rfl
    | finish => rfl
    | evict => rfl

theorem at_moveTo : (t.moveTo i phase').At j request phase ↔
    (j = i ∧ phase = phase' ∧ ∃ before, t.At i request before) ∨
      (j ≠ i ∧ t.At j request phase) := by
  unfold At moveTo
  rw [List.getElem?_modify]
  by_cases hj : i = j
  · subst hj
    cases hcaller : t.callers[i]? with
    | none => simp
    | some caller =>
      obtain ⟨request₁, before⟩ := caller
      simp [and_comm, eq_comm]
  · simp [hj, Ne.symm hj]

/-- A step is a turn of one caller, and the others stay where they are. -/
theorem cases_of_step (h : t.step? now i = some t') :
    ∃ request phase phase', t.At i request phase ∧ t'.At i request phase' ∧
      Turn now t request phase phase' t'.live t'.sessions ∧
      ∀ j, j ≠ i → ∀ request₁ phase₁, t'.At j request₁ phase₁ ↔ t.At j request₁ phase₁ := by
  obtain ⟨request, phase, phase', live, sessions, hat, hturn, rfl⟩ := step?_eq_some_iff.mp h
  refine ⟨request, phase, phase', hat, at_moveTo.mpr (.inl ⟨rfl, rfl, phase, hat⟩), hturn, ?_⟩
  intro j hj request₁ phase₁
  rw [at_moveTo]
  simp only [hj, ne_eq, not_false_eq_true, true_and, false_and, false_or]
  rfl

theorem isHeld_eq_false : t.isHeld slot = false ↔ ∀ i, ¬ t.Holds i slot := by
  unfold isHeld Holds At
  rw [List.any_eq_false]
  constructor
  · rintro h i ⟨request, phase, hat, hheld⟩
    exact h _ (List.mem_of_getElem? hat) (by simpa using hheld)
  · intro h caller hmem hheld
    obtain ⟨i, hat⟩ := List.mem_iff_getElem?.mp hmem
    exact h i ⟨caller.request, caller.phase, hat, by simpa using hheld⟩

/-! ## What every step keeps -/

/-- What holds of a store and its callers however they have got there. -/
structure Sound (t : Traffic α) : Prop where
  /-- an identity has at most one live slot -/
  distinct : (t.live.map Prod.fst).Nodup
  /-- a live slot is the number of a session -/
  live_lt : ∀ entry ∈ t.live, entry.2 < t.sessions.length
  /-- so is a slot that a caller waits for or holds -/
  known : ∀ i request phase slot, t.At i request phase → phase.slot? = some slot →
    slot < t.sessions.length
  /-- a caller has got no further than its request takes it -/
  meets : ∀ i request phase, t.At i request phase → request.Meets phase
  /-- nobody holds a slot together with somebody else -/
  alone : ∀ i j slot, t.Holds i slot → t.Holds j slot → i = j

theorem Sound.ofStore (store : Store) (requests : List (Request α)) :
    Sound (Traffic.ofStore store requests) := by
  have hlooking : ∀ i request phase, (Traffic.ofStore store requests).At i request phase →
      phase = .looking := by
    intro i request phase h
    unfold At Traffic.ofStore at h
    simp only [List.getElem?_map, Option.map_eq_some_iff, Caller.mk.injEq] at h
    obtain ⟨-, -, -, rfl⟩ := h
    rfl
  constructor
  · simpa [Traffic.ofStore, List.zipIdx_map_fst] using store.distinct
  · rintro ⟨identity, slot⟩ hmem
    have hlt := List.snd_lt_add_of_mem_zipIdx hmem
    simpa [Traffic.ofStore] using hlt
  · intro i request phase slot hat hslot
    rw [hlooking i request phase hat] at hslot
    cases hslot
  · intro i request phase hat
    rw [hlooking i request phase hat]
    cases request <;> trivial
  · rintro i j slot ⟨request, phase, hat, hheld⟩ -
    rw [hlooking i request phase hat] at hheld
    cases hheld

namespace Turn

/-- No session goes away, for there may be callers who wait for it. -/
theorem length_le (h : Turn now t request phase phase' live sessions) :
    t.sessions.length ≤ sessions.length := by
  cases h <;> simp

theorem meets (h : Turn now t request phase phase' live sessions) : request.Meets phase' := by
  cases h <;> trivial

theorem distinct (ht : t.Sound) (h : Turn now t request phase phase' live sessions) :
    (live.map Prod.fst).Nodup := by
  have hfilter : ∀ test : String × Nat → Bool, ((t.live.filter test).map Prod.fst).Nodup :=
    fun test => ht.distinct.sublist (List.filter_sublist.map Prod.fst)
  cases h with
  | start =>
    rw [List.map_cons, List.nodup_cons]
    exact ⟨by simp, hfilter _⟩
  | finish => exact hfilter _
  | evict => exact hfilter _
  | _ => exact ht.distinct

theorem live_lt (ht : t.Sound) (h : Turn now t request phase phase' live sessions) :
    ∀ entry ∈ live, entry.2 < sessions.length := by
  have hold : ∀ entry ∈ t.live, entry.2 < sessions.length :=
    fun entry hmem => Nat.lt_of_lt_of_le (ht.live_lt entry hmem) h.length_le
  cases h with
  | start =>
    intro entry hmem
    rcases List.mem_cons.mp hmem with rfl | hmem
    · simp
    · exact hold entry (List.mem_filter.mp hmem).1
  | finish => exact fun entry hmem => hold entry (List.mem_filter.mp hmem).1
  | evict => exact fun entry hmem => hold entry (List.mem_filter.mp hmem).1
  | _ => exact hold

/-- A slot that a caller goes on with is one that it has, or the live one of its identity. -/
theorem slot_lt (ht : t.Sound) (hat : t.At i request phase)
    (h : Turn now t request phase phase' live sessions) (hslot : phase'.slot? = some slot) :
    slot < sessions.length := by
  refine Nat.lt_of_lt_of_le ?_ h.length_le
  cases h with
  | found hlookup =>
    obtain rfl := Option.some.inj hslot
    exact ht.live_lt _ (mem_of_lookup hlookup)
  | lock => exact ht.known _ _ _ _ hat hslot
  | confirm => exact ht.known _ _ _ _ hat hslot
  | _ => cases hslot

/-- A slot that a caller holds afterwards is one that it has held or that nobody has. -/
theorem held (h : Turn now t request phase phase' live sessions)
    (hheld : phase'.held? = some slot) : phase.held? = some slot ∨ t.isHeld slot = false := by
  cases h with
  | lock hfree =>
    obtain rfl := Option.some.inj hheld
    exact .inr hfree
  | confirm => exact .inl hheld
  | _ => cases hheld

/-- Only who has found the slot to be live gets to work on it. -/
theorem confirmed {identity : String} {act : Session → α × Session}
    (h : Turn now t (.use identity act) phase (.working slot) live sessions) :
    t.live.lookup identity = some slot := by
  cases h with
  | confirm hlookup => exact hlookup

/-- Only who has looked and found no session is told so. -/
theorem told {fault : Fault}
    (h : Turn now t request phase (.answered (.error fault)) live sessions) :
    ∃ identity act, request = .use identity act ∧ fault = .sessionNotFound identity ∧
      phase = .looking ∧ t.live.lookup identity = none := by
  cases h with
  | missed hlookup => exact ⟨_, _, rfl, rfl, rfl, hlookup⟩

/-- A slot that has been taken off the store is not put back. -/
theorem lookup_ne (ht : t.Sound) (h : Turn now t request phase phase' live sessions)
    {identity : String} (hslot : slot < t.sessions.length)
    (hne : t.live.lookup identity ≠ some slot) : live.lookup identity ≠ some slot := by
  have hfilter : ∀ test, (t.live.filter test).lookup identity ≠ some slot := by
    intro test heq
    rw [lookup_filter ht.distinct, Option.filter_eq_some_iff] at heq
    exact hne heq.1
  cases h with
  | @start starter startAge =>
    rw [List.lookup_cons]
    split
    · intro heq
      exact absurd (Option.some.inj heq) (Nat.ne_of_gt hslot)
    · exact hfilter _
  | finish => exact hfilter _
  | evict => exact hfilter _
  | _ => exact hne

end Turn

theorem Sound.step (ht : t.Sound) (h : t.step? now i = some t') : t'.Sound := by
  obtain ⟨request, phase, phase', hat, hat', hturn, hothers⟩ := cases_of_step h
  have holds_of_ne : ∀ {j slot}, j ≠ i → t'.Holds j slot → t.Holds j slot := by
    rintro j slot hj ⟨request₁, phase₁, hat₁, hheld⟩
    exact ⟨request₁, phase₁, (hothers j hj _ _).mp hat₁, hheld⟩
  -- what the caller holds now, nobody else has held
  have hnew : ∀ {j slot}, j ≠ i → t'.Holds i slot → ¬ t'.Holds j slot := by
    rintro j slot hj ⟨request₁, phase₁, hat₁, hheld⟩ hother
    obtain ⟨rfl, rfl⟩ := hat₁.unique hat'
    rcases hturn.held hheld with hheld | hfree
    · exact hj (ht.alone j i slot (holds_of_ne hj hother) ⟨_, _, hat, hheld⟩)
    · exact isHeld_eq_false.mp hfree j (holds_of_ne hj hother)
  constructor
  · exact hturn.distinct ht
  · exact hturn.live_lt ht
  · intro j request₁ phase₁ slot hat₁ hslot
    by_cases hj : j = i
    · subst hj
      obtain ⟨rfl, rfl⟩ := hat₁.unique hat'
      exact hturn.slot_lt ht hat hslot
    · exact Nat.lt_of_lt_of_le (ht.known j _ _ slot ((hothers j hj _ _).mp hat₁) hslot)
        hturn.length_le
  · intro j request₁ phase₁ hat₁
    by_cases hj : j = i
    · subst hj
      obtain ⟨rfl, rfl⟩ := hat₁.unique hat'
      exact hturn.meets
    · exact ht.meets j _ _ ((hothers j hj _ _).mp hat₁)
  · intro j k slot hholds hholds'
    by_cases hj : j = i
    · subst hj
      exact Classical.byContradiction fun hk => hnew (Ne.symm hk) hholds hholds'
    · by_cases hk : k = i
      · subst hk
        exact absurd hholds (hnew hj hholds')
      · exact ht.alone j k slot (holds_of_ne hj hholds) (holds_of_ne hk hholds')

/-! ## Runs -/

/-- Callers can get from one state to another by steps of theirs, in any order and at any times. -/
inductive Reaches (t : Traffic α) : Traffic α → Prop where
  | refl : Reaches t t
  | step {t₁ t₂ : Traffic α} {now : Int} {i : Nat} :
      Reaches t t₁ → t₁.step? now i = some t₂ → Reaches t t₂

theorem Sound.reaches (ht : t.Sound) (h : t.Reaches t') : t'.Sound := by
  induction h with
  | refl => exact ht
  | step _ hstep ih => exact ih.step hstep

theorem reaches_run {t₀ : Traffic α} (order : List Nat) (h : t₀.Reaches t) :
    t₀.Reaches (t.run now order) := by
  induction order generalizing t with
  | nil => exact h
  | cons i rest ih =>
    rw [run]
    apply ih
    cases hstep : t.step? now i with
    | none => exact h
    | some t₁ => exact h.step hstep

/-- A caller has a slot in hand that is no longer the one of its identity, and is not at work. -/
structure Late (t : Traffic α) (i : Nat) (identity : String) (act : Session → α × Session)
    (slot : Nat) : Prop where
  idle : ∃ phase, t.At i (.use identity act) phase ∧ phase ≠ .working slot
  known : slot < t.sessions.length
  replaced : t.live.lookup identity ≠ some slot

theorem Late.reaches {identity : String} {act : Session → α × Session} (ht : t.Sound)
    (hlate : t.Late i identity act slot) (h : t.Reaches t') : t'.Late i identity act slot := by
  induction h with
  | refl => exact hlate
  | @step t₁ t₂ now j hreaches hstep ih =>
    obtain ⟨request, phase, phase', hat, hat', hturn, hothers⟩ := cases_of_step hstep
    refine ⟨?_, Nat.lt_of_lt_of_le ih.known hturn.length_le,
      hturn.lookup_ne (ht.reaches hreaches) ih.known ih.replaced⟩
    obtain ⟨before, hbefore, hidle⟩ := ih.idle
    by_cases hj : i = j
    · subst hj
      obtain ⟨rfl, rfl⟩ := hat.unique hbefore
      refine ⟨phase', hat', ?_⟩
      rintro rfl
      exact ih.replaced hturn.confirmed
    · exact ⟨before, (hothers i hj _ _).mpr hbefore, hidle⟩

theorem told_of_reaches {t₀ : Traffic α} {fault : Fault} (h : t₀.Reaches t)
    (hfresh : ¬ t₀.At i request (.answered (.error fault)))
    (hat : t.At i request (.answered (.error fault))) :
    ∃ identity act t₁, request = .use identity act ∧ fault = .sessionNotFound identity ∧
      t₀.Reaches t₁ ∧ t₁.Reaches t ∧ t₁.At i request .looking ∧
      t₁.live.lookup identity = none := by
  induction h with
  | refl => exact absurd hat hfresh
  | @step t₁ t₂ now j hreaches hstep ih =>
    obtain ⟨request', phase, phase', hat₁, hat₂, hturn, hothers⟩ := cases_of_step hstep
    by_cases hj : i = j
    · -- the step that told it was its own, and it was looking then
      subst hj
      obtain ⟨rfl, rfl⟩ := hat.unique hat₂
      obtain ⟨identity, act, rfl, rfl, rfl, hlookup⟩ := hturn.told
      exact ⟨identity, act, t₁, rfl, rfl, hreaches, .step .refl hstep, hat₁, hlookup⟩
    · obtain ⟨identity, act, t', hrequest, hfault, hfrom, hto, hlook⟩ :=
        ih ((hothers i hj _ _).mp hat)
      exact ⟨identity, act, t', hrequest, hfault, hfrom, hto.step hstep, hlook⟩

/-! ## Progress -/

theorem Turn.step? (hat : t.At i request phase)
    (h : Turn now t request phase phase' live sessions) :
    t.step? now i = some (({ t with live, sessions } : Traffic α).moveTo i phase') :=
  step?_eq_some_iff.mpr ⟨_, _, _, _, _, hat, h, rfl⟩

theorem Turn.isSome_step? (hat : t.At i request phase)
    (h : Turn now t request phase phase' live sessions) : (t.step? now i).isSome := by
  rw [h.step? hat]
  rfl

/-- Nobody who holds a slot has to wait. -/
theorem Sound.step_of_holds (ht : t.Sound) (h : t.Holds i slot) (now : Int) :
    (t.step? now i).isSome := by
  obtain ⟨request, phase, hat, hheld⟩ := h
  have hmeets := ht.meets i request phase hat
  cases request with
  | use identity act =>
    cases phase with
    | checking slot =>
      by_cases hlookup : t.live.lookup identity = some slot
      · exact (Turn.confirm hlookup).isSome_step? hat
      · exact (Turn.retry hlookup).isSome_step? hat
    | working slot =>
      have hs := List.getElem?_eq_getElem (ht.known i _ _ slot hat rfl)
      exact (Turn.work hs).isSome_step? hat
    | _ => cases hheld
  | _ =>
    cases phase with
    | checking => exact hmeets.elim
    | working => exact hmeets.elim
    | _ => cases hheld

/-- Nobody who is about to look has to wait. -/
theorem step_of_looking (h : t.At i request .looking) (now : Int) : (t.step? now i).isSome := by
  cases request with
  | use identity act =>
    cases hlookup : t.live.lookup identity with
    | none => exact (Turn.missed hlookup).isSome_step? h
    | some slot => exact (Turn.found hlookup).isSome_step? h
  | start identity startAge => exact Turn.start.isSome_step? h
  | finish identity => exact Turn.finish.isSome_step? h
  | evict timeout => exact Turn.evict.isSome_step? h

theorem Sound.progress (ht : t.Sound) (hat : t.At i request phase)
    (hleft : phase.isDone = false) : ∃ j, ∀ now, (t.step? now j).isSome := by
  cases phase with
  | looking => exact ⟨i, step_of_looking hat⟩
  | waiting slot =>
    -- whoever holds the slot that is waited for can go on
    by_cases hheld : ∃ j, t.Holds j slot
    · obtain ⟨j, hholds⟩ := hheld
      exact ⟨j, ht.step_of_holds hholds⟩
    · have hfree := isHeld_eq_false.mpr (not_exists.mp hheld)
      have hmeets := ht.meets i request _ hat
      cases request with
      | use identity act =>
        exact ⟨i, fun now => (Turn.lock hfree).isSome_step? hat⟩
      | _ => exact hmeets.elim
  | checking slot => exact ⟨i, ht.step_of_holds ⟨request, _, hat, rfl⟩⟩
  | working slot => exact ⟨i, ht.step_of_holds ⟨request, _, hat, rfl⟩⟩
  | answered => cases hleft
  | served => cases hleft

/-! ## Main statement -/

/-- What callers can rely on in a state that they have come to from another. -/
structure Orderly (t₀ t : Traffic α) : Prop where
  /-- a caller gets to work on the slot that is live for its identity at that moment -/
  begins : ∀ now i t' identity act slot, t.step? now i = some t' →
    t'.At i (.use identity act) (.working slot) → t.live.lookup identity = some slot
  /-- its work is done on the session in that slot -/
  works : ∀ i identity act slot, t.At i (.use identity act) (.working slot) →
    ∃ s, t.sessions[slot]? = some s ∧ ∀ now,
      t.step? now i = some (({ t with
        sessions := t.sessions.set slot (act (s.touch now)).2 } : Traffic α).moveTo i
          (.answered (.ok (act (s.touch now)).1)))
  /-- nobody is at work on a session together with somebody else -/
  alone : ∀ i j slot request request', t.At i request (.working slot) →
    t.At j request' (.working slot) → i = j
  /-- while a caller is at work, the others leave it and its session as they are -/
  undisturbed : ∀ now i j t' request slot, t.At i request (.working slot) → j ≠ i →
    t.step? now j = some t' →
    t'.At i request (.working slot) ∧ t'.sessions[slot]? = t.sessions[slot]?
  /-- an eviction leaves the sessions in the store that somebody is at work on -/
  spared : ∀ now i j t' request slot timeout, t.At i request (.working slot) →
    t.At j (.evict timeout) .looking → t.step? now j = some t' →
    ∀ identity, (identity, slot) ∈ t.live → (identity, slot) ∈ t'.live
  /-- a caller whose slot is not the live one any more never gets to work on it, but starts over
  when it looks again -/
  retries : ∀ i identity act slot,
    t.At i (.use identity act) (.waiting slot) ∨ t.At i (.use identity act) (.checking slot) →
    t.live.lookup identity ≠ some slot → ∀ t', t.Reaches t' →
    ¬ t'.At i (.use identity act) (.working slot) ∧
      (t'.At i (.use identity act) (.checking slot) →
        ∀ now, t'.step? now i = some (t'.moveTo i .looking))
  /-- a caller who is told that there is no session has looked and found none -/
  told : ∀ i request fault, t.At i request (.answered (.error fault)) →
    ∃ identity act t₁, request = .use identity act ∧ fault = .sessionNotFound identity ∧
      t₀.Reaches t₁ ∧ t₁.Reaches t ∧ t₁.At i request .looking ∧
      t₁.live.lookup identity = none
  /-- as long as somebody is not done, somebody can go on -/
  progress : (∃ i request phase, t.At i request phase ∧ phase.isDone = false) →
    ∃ j, ∀ now, (t.step? now j).isSome

/-- A step of a caller leaves the sessions alone whose slots somebody else holds. -/
theorem Sound.session_of_step (ht : t.Sound) (h : t.step? now j = some t')
    (hholds : t.Holds i slot) (hj : j ≠ i) : t'.sessions[slot]? = t.sessions[slot]? := by
  obtain ⟨request, phase, phase', hat, -, hturn, -⟩ := cases_of_step h
  have hlt : slot < t.sessions.length := by
    obtain ⟨_, _, hat, hheld⟩ := hholds
    exact ht.known i _ _ slot hat (Phase.slot?_of_held? hheld)
  obtain ⟨live', sessions', callers'⟩ := t'
  simp only at hturn ⊢
  cases hturn with
  | @work identity act slot₁ s hs =>
    -- it has changed the session that it held itself
    refine List.getElem?_set_ne ?_
    rintro rfl
    exact hj (ht.alone j i slot₁ ⟨_, _, hat, rfl⟩ hholds)
  | start => rw [List.getElem?_append_left hlt]
  | _ => rfl

/-- An eviction leaves the slots in the store that somebody holds. -/
theorem live_of_evict {timeout : Int} (hat : t.At j (.evict timeout) .looking)
    (h : t.step? now j = some t') (hholds : t.Holds i slot) {identity : String}
    (hmem : (identity, slot) ∈ t.live) : (identity, slot) ∈ t'.live := by
  have hheld : t.isHeld slot = true := by
    rw [← Bool.not_eq_false, isHeld_eq_false]
    exact fun hnobody => hnobody i hholds
  obtain rfl := Option.some.inj (h.symm.trans (Turn.evict.step? hat))
  exact List.mem_filter.mpr ⟨hmem, by simp [isEvictable, hheld]⟩

/-- **Callers do not get into each other's way.** Any number of callers make any requests of a
store and take their steps in any order and at any times. Then they can rely on `Orderly` wherever
they have come to. -/
theorem callers_are_orderly (store : Store) (requests : List (Request α)) {t : Traffic α}
    (h : (Traffic.ofStore store requests).Reaches t) :
    Orderly (.ofStore store requests) t := by
  have ht : t.Sound := (Sound.ofStore store requests).reaches h
  constructor
  case begins =>
    intro now i t' identity act slot hstep hworking
    obtain ⟨request, phase, phase', -, hat', hturn, -⟩ := cases_of_step hstep
    obtain ⟨rfl, rfl⟩ := hworking.unique hat'
    exact hturn.confirmed
  case works =>
    intro i identity act slot hat
    have hs := List.getElem?_eq_getElem (ht.known i _ _ slot hat rfl)
    exact ⟨_, hs, fun now => (Turn.work hs).step? hat⟩
  case alone =>
    intro i j slot request request' hat hat'
    exact ht.alone i j slot ⟨_, _, hat, rfl⟩ ⟨_, _, hat', rfl⟩
  case undisturbed =>
    intro now i j t' request slot hat hj hstep
    obtain ⟨-, -, -, -, -, -, hothers⟩ := cases_of_step hstep
    exact ⟨(hothers i (Ne.symm hj) _ _).mpr hat,
      ht.session_of_step hstep ⟨_, _, hat, rfl⟩ hj⟩
  case spared =>
    intro now i j t' request slot timeout hat hevict hstep identity hmem
    exact live_of_evict hevict hstep ⟨_, _, hat, rfl⟩ hmem
  case retries =>
    intro i identity act slot hat hreplaced t' hreaches
    have hlate : t.Late i identity act slot := by
      rcases hat with hat | hat
      · exact ⟨⟨_, hat, by simp⟩, ht.known i _ _ slot hat rfl, hreplaced⟩
      · exact ⟨⟨_, hat, by simp⟩, ht.known i _ _ slot hat rfl, hreplaced⟩
    have hlate' := hlate.reaches ht hreaches
    refine ⟨fun hworking => ?_, fun hchecking now => (Turn.retry hlate'.replaced).step? hchecking⟩
    obtain ⟨phase, hidle, hne⟩ := hlate'.idle
    exact hne (hidle.unique hworking).2
  case told =>
    intro i request fault hat
    refine told_of_reaches h ?_ hat
    simp [At, Traffic.ofStore]
  case progress =>
    rintro ⟨i, request, phase, hat, hleft⟩
    exact ht.progress hat hleft

/-- One caller is at work on a session and another waits for it when the session's game is started
anew; the one who waits does not work on the old session. -/
theorem callers_are_orderly_restarted :
    let use : Request Int := .use "p" fun s => (s.age, s)
    let store := (Store.empty.start "p" 3 0).2
    let t := (Traffic.ofStore store [use, use, .start "p" 7]).run 1 [0, 0, 0, 1, 2]
    (Traffic.ofStore store [use, use, .start "p" 7]).Reaches t ∧
      t.At 0 use (.working 0) ∧ t.At 1 use (.waiting 0) ∧ t.live = [("p", 1)] ∧
      (∀ t', t.Reaches t' → ¬ t'.At 1 use (.working 0)) ∧
      (t.run 2 [0, 1, 1, 1, 1, 1, 1]).answer? 1 matches some (.ok 7) := by
  intro use store t
  have hreaches : (Traffic.ofStore store [use, use, .start "p" 7]).Reaches t :=
    reaches_run _ .refl
  have hwaiting : t.At 1 use (.waiting 0) := by rfl
  have hlive : t.live = [("p", 1)] := by rfl
  have hreplaced : t.live.lookup "p" ≠ some 0 := by
    rw [hlive]
    decide
  have horderly := callers_are_orderly store _ hreaches
  refine ⟨hreaches, by rfl, hwaiting, hlive, fun t' ht' => ?_, by decide +kernel⟩
  exact (horderly.retries 1 "p" _ 0 (.inl hwaiting) hreplaced t' ht').1

end Traffic

end LifePath
