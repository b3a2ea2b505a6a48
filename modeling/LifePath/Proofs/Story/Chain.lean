import LifePath.Proofs.Lookup
import LifePath.Proofs.Story.Record

/-!
# Where a chain of events leads

A chain begins with the event that was drawn, and each event decides what follows on it while its
own changes are still to come. `Trail` says where a chain has got to: from event to event, each of
them in the catalog and leading on by its first open branch. `ChainEnd` says how it comes to its
end there: nothing follows, or it is too long, or the event is missing, or a branch cannot be
decided.

A trail can only go one way (`Trail.unique`), so a catalog in which events lead back to themselves
is no different: the chain is cut off after so many events. `resolve_trail` follows `resolve` along
the trail, with the events behind it in the attributes that the next conditions see.
-/

namespace LifePath

open LifePath.Decimal

/-! ## What follows on an event -/

namespace Branch

/-- A branch without a condition is open, and one with a condition if that holds. -/
def IsOpen (source : Source) (b : Branch) : Prop :=
  ∀ text, b.condition = some text → checkCondition source text = .ok true

/-- The condition of a branch does not hold. -/
def IsClosed (source : Source) (b : Branch) : Prop :=
  ∃ text, b.condition = some text ∧ checkCondition source text = .ok false

/-- The condition of a branch cannot be decided. -/
def Fails (source : Source) (b : Branch) (fault : ConditionFault) : Prop :=
  ∃ text, b.condition = some text ∧ checkCondition source text = .error fault

variable {source : Source} {b : Branch} {next : Option String} {rest : List Branch}

theorem firstOpen_of_isOpen (h : b.IsOpen source) :
    firstOpen source next (b :: rest) = .ok (some b.event) := by
  cases hcondition : b.condition with
  | none => simp [firstOpen, holdsOr, hcondition]
  | some text => simp [firstOpen, holdsOr, hcondition, h text hcondition]

theorem firstOpen_of_fails {fault : ConditionFault} (h : b.Fails source fault) :
    firstOpen source next (b :: rest) = .error fault := by
  obtain ⟨text, hcondition, hfault⟩ := h
  simp [firstOpen, holdsOr, hcondition, hfault]

/-- Closed branches are passed over. -/
theorem firstOpen_append {before : List Branch} (h : ∀ b ∈ before, b.IsClosed source) :
    firstOpen source next (before ++ rest) = firstOpen source next rest := by
  induction before with
  | nil => rfl
  | cons b before ih =>
    obtain ⟨⟨text, hcondition, hclosed⟩, hbefore⟩ := List.forall_mem_cons.mp h
    rw [List.cons_append, firstOpen, hcondition, holdsOr, hclosed]
    exact ih hbefore

theorem cases (source : Source) (b : Branch) :
    b.IsClosed source ∨ b.IsOpen source ∨ ∃ fault, b.Fails source fault := by
  cases hcondition : b.condition with
  | none => exact .inr (.inl fun text h => by rw [hcondition] at h; cases h)
  | some text =>
    cases hcheck : checkCondition source text with
    | error fault => exact .inr (.inr ⟨fault, text, hcondition, hcheck⟩)
    | ok holds =>
      cases holds with
      | false => exact .inl ⟨text, hcondition, hcheck⟩
      | true =>
        refine .inr (.inl fun other h => ?_)
        rw [hcondition] at h
        obtain rfl := Option.some.inj h
        exact hcheck

end Branch

namespace Event

variable {source : Source} {e : Event} {next : Option String} {fault : ConditionFault}

/-- An event leads on by the first of its branches that is open; if all are closed, to what follows
anyway, if anything does. -/
inductive LeadsTo (source : Source) (e : Event) : Option String → Prop where
  | branch {before after : List Branch} {b : Branch} :
      e.branches = before ++ b :: after → (∀ c ∈ before, c.IsClosed source) → b.IsOpen source →
      LeadsTo source e (some b.event)
  | anyway : (∀ b ∈ e.branches, b.IsClosed source) → LeadsTo source e e.next

/-- Before any branch of an event is open, one cannot be decided. -/
def Stumbles (source : Source) (e : Event) (fault : ConditionFault) : Prop :=
  ∃ before b after, e.branches = before ++ b :: after ∧ (∀ c ∈ before, c.IsClosed source) ∧
    b.Fails source fault

theorem LeadsTo.followUp_eq (h : e.LeadsTo source next) : e.followUp source = .ok next := by
  unfold followUp
  cases h with
  | branch hbranches hbefore hopen =>
    rw [hbranches, Branch.firstOpen_append hbefore, Branch.firstOpen_of_isOpen hopen]
  | anyway hclosed =>
    rw [← List.append_nil e.branches, Branch.firstOpen_append hclosed]
    rfl

theorem Stumbles.followUp_eq (h : e.Stumbles source fault) : e.followUp source = .error fault := by
  obtain ⟨before, b, after, hbranches, hbefore, hfails⟩ := h
  rw [followUp, hbranches, Branch.firstOpen_append hbefore, Branch.firstOpen_of_fails hfails]

theorem leadsTo_or_stumbles (source : Source) (e : Event) :
    (∃ next, e.LeadsTo source next) ∨ ∃ fault, e.Stumbles source fault := by
  rcases forall_or_first_not (fun b : Branch => b.IsClosed source) e.branches with
    hall | ⟨before, b, after, hsplit, hbefore, hb⟩
  · exact .inl ⟨_, .anyway hall⟩
  · rcases b.cases source with hclosed | hopen | ⟨fault, hfails⟩
    · exact absurd hclosed hb
    · exact .inl ⟨_, .branch hsplit hbefore hopen⟩
    · exact .inr ⟨fault, before, b, after, hsplit, hbefore, hfails⟩

theorem followUp_eq_ok_iff : e.followUp source = .ok next ↔ e.LeadsTo source next := by
  refine ⟨fun h => ?_, LeadsTo.followUp_eq⟩
  rcases e.leadsTo_or_stumbles source with ⟨other, hleads⟩ | ⟨fault, hstumbles⟩
  · obtain rfl : other = next := Except.ok.inj (hleads.followUp_eq.symm.trans h)
    exact hleads
  · cases hstumbles.followUp_eq.symm.trans h

theorem followUp_eq_error_iff : e.followUp source = .error fault ↔ e.Stumbles source fault := by
  refine ⟨fun h => ?_, Stumbles.followUp_eq⟩
  rcases e.leadsTo_or_stumbles source with ⟨next, hleads⟩ | ⟨other, hstumbles⟩
  · cases hleads.followUp_eq.symm.trans h
  · obtain rfl : other = fault := Except.error.inj (hstumbles.followUp_eq.symm.trans h)
    exact hstumbles

end Event

/-- The ids of the events that a chain tells. -/
def Chain.eventIds (chain : Chain) : List String := chain.happenings.map (·.event)

namespace Runner

variable {r : Runner} {age : Int} {a : Attributes} {first id id' : String} {ids ids' : List String}
  {limit : Nat} {outcome outcome' : Except Fault (List String)}

/-! ## Trails -/

/-- What the conditions of an event see if these events have happened before it: the age, all their
ids and its own at the end of the history, and the changes that they made one after the other, in 32
bits, but not its own. -/
def seen (r : Runner) (age : Int) (a : Attributes) (ids : List String) (id : String) : Source :=
  ((a.lived r.events ids).record id).sourceAt age

/-- Events have happened one after the other, each following on the one before it, and now an event
follows that may be missing. -/
inductive Trail (r : Runner) (age : Int) (a : Attributes) (first : String) :
    List String → String → Prop where
  | start : Trail r age a first [] first
  | next {ids : List String} {id next : String} {e : Event} :
      Trail r age a first ids id → r.events.get? id = some e →
      e.LeadsTo (r.seen age a ids id) (some next) → Trail r age a first (ids ++ [id]) next

/-- A trail can only go one way. -/
theorem Trail.unique (h : r.Trail age a first ids id) (h' : r.Trail age a first ids' id')
    (hlength : ids.length = ids'.length) : ids = ids' ∧ id = id' := by
  induction h generalizing ids' id' with
  | start =>
    cases h' with
    | start => exact ⟨rfl, rfl⟩
    | next => simp at hlength
  | next _ he hleads ih =>
    cases h' with
    | start => simp at hlength
    | next h' he' hleads' =>
      obtain ⟨rfl, rfl⟩ := ih h' (by simpa using hlength)
      obtain rfl := Option.some.inj (he.symm.trans he')
      have hsame := hleads.followUp_eq.symm.trans hleads'.followUp_eq
      exact ⟨rfl, Option.some.inj (Except.ok.inj hsame)⟩

/-- If one trail is longer than another, the shorter one leads on. -/
theorem Trail.leads_on (h : r.Trail age a first ids id) (h' : r.Trail age a first ids' id')
    (hlength : ids.length < ids'.length) :
    ∃ e next, r.events.get? id = some e ∧ e.LeadsTo (r.seen age a ids id) (some next) := by
  induction h' with
  | start => simp at hlength
  | @next before last next e h' he hleads ih =>
    rw [List.length_append, List.length_singleton] at hlength
    rcases Nat.lt_or_eq_of_le (Nat.le_of_lt_succ hlength) with hlt | heq
    · exact ih hlt
    · obtain ⟨rfl, rfl⟩ := h.unique h' heq
      exact ⟨e, next, he, hleads⟩

/-- How a chain comes to its end when these events have happened and another follows, if `limit`
events may follow on the first. -/
inductive ChainEnd (r : Runner) (age : Int) (a : Attributes) (limit : Nat) (ids : List String)
    (id : String) : Except Fault (List String) → Prop where
  | finished {e : Event} : ids.length ≤ limit → r.events.get? id = some e →
      e.LeadsTo (r.seen age a ids id) none → ChainEnd r age a limit ids id (.ok (ids ++ [id]))
  | tooDeep : ids.length = limit + 1 →
      ChainEnd r age a limit ids id (.error (.chainTooDeep id))
  | missing : ids.length ≤ limit → r.events.get? id = none →
      ChainEnd r age a limit ids id (.error (.eventNotFound id))
  | stumbled {e : Event} {fault : ConditionFault} : ids.length ≤ limit →
      r.events.get? id = some e → e.Stumbles (r.seen age a ids id) fault →
      ChainEnd r age a limit ids id (.error (.condition fault))

theorem ChainEnd.length_le (h : r.ChainEnd age a limit ids id outcome) :
    ids.length ≤ limit + 1 := by
  cases h <;> omega

/-- Where a chain ends it does not lead on. -/
theorem ChainEnd.not_leads_on (h : r.ChainEnd age a limit ids id outcome)
    (hlength : ids.length ≤ limit) {e : Event} {next : String} (he : r.events.get? id = some e)
    (hleads : e.LeadsTo (r.seen age a ids id) (some next)) : False := by
  cases h with
  | tooDeep => omega
  | missing _ hmissing => cases hmissing.symm.trans he
  | finished _ he' hnone =>
    obtain rfl := Option.some.inj (he'.symm.trans he)
    cases hnone.followUp_eq.symm.trans hleads.followUp_eq
  | stumbled _ he' hstumbles =>
    obtain rfl := Option.some.inj (he'.symm.trans he)
    cases hstumbles.followUp_eq.symm.trans hleads.followUp_eq

/-- What comes of a chain that ends at a place. -/
def endAt (r : Runner) (age : Int) (a : Attributes) (limit : Nat) (ids : List String)
    (id : String) : Except Fault (List String) :=
  if limit < ids.length then .error (.chainTooDeep id)
  else match r.events.get? id with
    | none => .error (.eventNotFound id)
    | some e =>
      match e.followUp (r.seen age a ids id) with
      | .error fault => .error (.condition fault)
      | .ok _ => .ok (ids ++ [id])

theorem ChainEnd.eq_endAt (h : r.ChainEnd age a limit ids id outcome) :
    outcome = r.endAt age a limit ids id := by
  unfold endAt
  cases h with
  | finished hlength he hnone =>
    simp only [if_neg (Nat.not_lt.mpr hlength), he, hnone.followUp_eq]
  | tooDeep hlength => rw [if_pos (by omega)]
  | missing hlength hmissing => simp only [if_neg (Nat.not_lt.mpr hlength), hmissing]
  | stumbled hlength he hstumbles =>
    simp only [if_neg (Nat.not_lt.mpr hlength), he, hstumbles.followUp_eq]

/-- Where and how a chain ends is settled by where it begins. -/
theorem ChainEnd.unique_of_trail (htrail : r.Trail age a first ids id)
    (h : r.ChainEnd age a limit ids id outcome) (htrail' : r.Trail age a first ids' id')
    (h' : r.ChainEnd age a limit ids' id' outcome') : outcome = outcome' := by
  -- if one trail were shorter, it would lead on from where it ends
  rcases Nat.lt_trichotomy ids.length ids'.length with hlt | heq | hgt
  · obtain ⟨e, next, he, hleads⟩ := htrail.leads_on htrail' hlt
    have hle := h'.length_le
    exact (h.not_leads_on (by omega) he hleads).elim
  · obtain ⟨rfl, rfl⟩ := htrail.unique htrail' heq
    rw [h.eq_endAt, h'.eq_endAt]
  · obtain ⟨e, next, he, hleads⟩ := htrail'.leads_on htrail hgt
    have hle := h.length_le
    exact (h'.not_leads_on (by omega) he hleads).elim

/-! ## Following a chain -/

/-- Following a chain from some way along its trail goes on to where it ends. -/
theorem resolve_trail :
    ∀ (left : Nat) (scene : Scene) {drawn : Bool} {id : String} {b : Attributes}
      {ids : List String}, r.Trail age a first ids id → ids.length + left = limit + 1 →
      (if drawn then b else b.record id) = (a.lived r.events ids).record id →
      ∃ ids' last, r.Trail age a first ids' last ∧ r.ChainEnd age a limit ids' last
        ((r.resolve age left drawn id b scene).1.map fun chain => ids ++ chain.eventIds) := by
  intro left
  induction left with
  | zero =>
    intro scene drawn id b ids htrail hlength _
    exact ⟨ids, id, htrail, .tooDeep (by simpa using hlength)⟩
  | succ left ih =>
    intro scene drawn id b ids htrail hlength hb
    have hle : ids.length ≤ limit := by omega
    cases he : r.events.get? id with
    | none =>
      simp only [resolve, he]
      exact ⟨ids, id, htrail, .missing hle he⟩
    | some e =>
      have hid : e.happening.event = id := EventCatalog.get?_id he
      simp only [resolve, he, hb]
      cases hnext : e.followUp (r.seen age a ids id) with
      | error fault =>
        rw [seen] at hnext
        simp only [hnext]
        exact ⟨ids, id, htrail, .stumbled hle he (Event.followUp_eq_error_iff.mp hnext)⟩
      | ok next =>
        have hleads := Event.followUp_eq_ok_iff.mp hnext
        rw [seen] at hnext
        cases next with
        | none =>
          simp only [hnext, Except.map, Chain.eventIds, List.map_singleton, hid]
          exact ⟨ids, id, htrail, .finished hle he hleads⟩
        | some next =>
          simp only [hnext]
          generalize hbehind : ((a.lived r.events ids).record id).apply e.effect = behind
          -- the events behind the next one are those behind this one, and this one
          have hlived : (if false then behind else behind.record next) =
              (a.lived r.events (ids ++ [id])).record next := by
            rw [Attributes.lived_concat, EventCatalog.effectOf_of_get? he, hbehind]
            rfl
          have hleft : (ids ++ [id]).length + left = limit + 1 := by
            rw [List.length_append, List.length_singleton]
            omega
          obtain ⟨ids', last, htrail', hend⟩ :=
            ih (tellFollowUp e.id (some next) scene) (htrail.next he hleads) hleft hlived
          refine ⟨ids', last, htrail', ?_⟩
          rcases hrest : r.resolve age left false next behind
            (tellFollowUp e.id (some next) scene) with ⟨fault | chain, scene'⟩
          · rw [hrest] at hend
            exact hend
          · rw [hrest] at hend
            simpa [Except.map, Chain.eventIds, hid] using hend

/-! ## Main statement -/

/-- **A chain is followed exactly as far as it leads.** Let the attributes of a game end with the
event that was drawn in their history. Whatever the catalog holds, what comes of following the
chain is the end of the one trail there is: the ids of its events if after at most `maxChain`
events nothing follows; that it is too long if another event follows on the last that is allowed,
whether there is such an event or not; or the fault of the first event that is missing or that
stumbles over a branch. The attributes afterwards have lived through the events of the chain, and
the branches after one that is open have no part in any of it. -/
theorem chain_follows_trail (r : Runner) (age : Int) (a : Attributes) (first : String)
    (scene : Scene) :
    let result := (r.resolve age (r.settings.maxChain + 1) true first (a.record first) scene).1
    (∀ outcome, result.map Chain.eventIds = outcome ↔
      ∃ ids id, r.Trail age a first ids id ∧
        r.ChainEnd age a r.settings.maxChain ids id outcome) ∧
    (∀ chain, result = .ok chain → chain.attributes = a.lived r.events chain.eventIds) ∧
    ∀ (source : Source) (e : Event) (before after : List Branch) (b : Branch),
      (∀ c ∈ before, c.IsClosed source) → b.IsOpen source →
      Event.followUp source { e with branches := before ++ b :: after } = .ok (some b.event) := by
  intro result
  have hstart : r.Trail age a first [] first := .start
  have hdrawn : (if true then a.record first else (a.record first).record first) =
      (a.lived r.events []).record first := by rw [Attributes.lived_nil, if_pos rfl]
  obtain ⟨ids, id, htrail, hend⟩ :=
    resolve_trail (r.settings.maxChain + 1) scene hstart (Nat.zero_add _) hdrawn
  refine ⟨fun outcome => ⟨?_, ?_⟩, ?_, ?_⟩
  · rintro rfl
    exact ⟨ids, id, htrail, by simpa using hend⟩
  · rintro ⟨ids', id', htrail', hend'⟩
    have hsame := ChainEnd.unique_of_trail htrail hend htrail' hend'
    simpa using hsame
  · intro chain hchain
    obtain ⟨rest, hids, hattributes, -⟩ := resolve_lived _ rfl (Prod.ext hchain rfl)
    rw [hattributes, Chain.eventIds, hids]
  · intro source e before after b hclosed hopen
    exact (Event.LeadsTo.branch rfl hclosed hopen).followUp_eq

/-- Life has come to the greatest 32-bit integer, and one point more makes it the least. -/
def overflowing : Runner where
  events := ⟨
    [{ Event.plain "1" "One more." with effect := { Effect.none with lif := 1 }, next := some "2" },
     { Event.plain "2" "Still here?" with branches := [⟨some "LIF>0", "3"⟩], next := some "4" },
     Event.plain "3" "Yes.", Event.plain "4" "No."],
    by decide⟩
  ages := ⟨[], by decide⟩
  settings := Settings.standard

example :
    (overflowing.resolve 0 9 true "1" ((Attributes.ofLife maxInt32).record "1")
      ⟨⟨[], 0⟩, #[]⟩).1.map Chain.eventIds = .ok ["1", "2", "4"] := by rfl

/-! ## A chain that leads out of the catalog -/

namespace Cliff

/-- An event on which one follows that is in no catalog. -/
def step : Event := { Event.plain "1" "One more step." with next := some "2" }

def runner (maxChain : Nat) : Runner :=
  ⟨⟨[step], by decide⟩, ⟨[], by decide⟩, { Settings.standard with maxChain }⟩

/-- The scene in which the step is taken. -/
def opening : Scene := ⟨⟨[], 0⟩, #[]⟩

theorem trail (maxChain : Nat) (a : Attributes) : (runner maxChain).Trail 0 a "1" ["1"] "2" :=
  .next .start rfl (.anyway (e := step) (by simp [step, Event.plain]))

end Cliff

open Cliff in
/-- How long a chain may be is looked at before the next event is, missing or not. -/
theorem chain_follows_trail_cliff :
    ((runner 0).resolve 0 1 true "1" ((Attributes.ofLife 1).record "1") opening).1.map
        Chain.eventIds = .error (.chainTooDeep "2") ∧
      ((runner 1).resolve 0 2 true "1" ((Attributes.ofLife 1).record "1") opening).1.map
        Chain.eventIds = .error (.eventNotFound "2") := by
  have hdeep := (chain_follows_trail (runner 0) 0 (.ofLife 1) "1" opening).1
  have hmissing := (chain_follows_trail (runner 1) 0 (.ofLife 1) "1" opening).1
  exact ⟨(hdeep _).mpr ⟨["1"], "2", trail 0 _, .tooDeep rfl⟩,
    (hmissing _).mpr ⟨["1"], "2", trail 1 _, .missing (Nat.le_refl 1) rfl⟩⟩

end Runner

end LifePath
