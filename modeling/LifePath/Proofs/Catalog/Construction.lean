import LifePath.Proofs.Catalog.References
import Mathlib.Data.List.Nodup

/-!
# Catalogs of records

The catalogs of events and of ages are made in the same way. One pass goes over the records and
remembers the keys it has seen (`firstRefusal?`); a record is refused for a flaw of its own, or else
because its key has been seen. Making a catalog in this way is exact (`MakesExactly`): it succeeds
for flawless records with different keys, the catalog then has each record under its own key and
nothing else, whatever the order of the records, and otherwise the first record that is refused
decides the fault.

For events there are no flaws, and the flaw of a pool is its first weight that is not finite or is
below zero. Tables that are made in this way are closed if every reference is the id of a record.
-/

namespace LifePath

/-! ## One pass over records with keys -/

section

variable {α κ φ γ : Type} [DecidableEq κ] {key : α → κ} {flaw? : α → Option φ}
  {repeated : κ → φ} {seen : List κ} {records : List α}

/-- What is wrong with a record behind records with these keys: a flaw of its own, or else that its
key is among them. -/
def refusal? (key : α → κ) (flaw? : α → Option φ) (repeated : κ → φ) (seen : List κ) (a : α) :
    Option φ :=
  (flaw? a).or (if key a ∈ seen then some (repeated (key a)) else none)

/-- What is wrong with the first record that is refused. -/
def firstRefusal? (key : α → κ) (flaw? : α → Option φ) (repeated : κ → φ) (seen : List κ) :
    List α → Option φ
  | [] => none
  | a :: rest =>
    (refusal? key flaw? repeated seen a).or (firstRefusal? key flaw? repeated (key a :: seen) rest)

theorem refusal?_eq_none_iff {a : α} :
    refusal? key flaw? repeated seen a = none ↔ flaw? a = none ∧ key a ∉ seen := by
  unfold refusal?
  by_cases h : key a ∈ seen <;> simp [h]

theorem refusal?_eq_some_iff {a : α} {fault : φ} :
    refusal? key flaw? repeated seen a = some fault ↔
      flaw? a = some fault ∨ flaw? a = none ∧ key a ∈ seen ∧ fault = repeated (key a) := by
  unfold refusal?
  rw [Option.or_eq_some_iff]
  by_cases h : key a ∈ seen <;> simp [h, eq_comm]

/-- Nothing is refused exactly if no record has a flaw and no key occurs twice or has been seen. -/
theorem firstRefusal?_eq_none_iff :
    firstRefusal? key flaw? repeated seen records = none ↔
      (∀ a ∈ records, flaw? a = none) ∧ (records.map key).Nodup ∧ ∀ a ∈ records, key a ∉ seen := by
  -- The keys seen grow along the list: that no key is among those seen before it is what makes the
  -- keys different.
  induction records generalizing seen with
  | nil => simp [firstRefusal?]
  | cons a rest ih =>
    rw [firstRefusal?, Option.or_eq_none_iff, refusal?_eq_none_iff, ih, List.map_cons,
      List.nodup_cons, List.mem_map]
    constructor
    · rintro ⟨⟨hflaw, hseen⟩, hflaws, hnodup, hnew⟩
      refine ⟨List.forall_mem_cons.mpr ⟨hflaw, hflaws⟩, ⟨?_, hnodup⟩,
        List.forall_mem_cons.mpr ⟨hseen, fun b hb hmem => hnew b hb (List.mem_cons_of_mem _ hmem)⟩⟩
      rintro ⟨b, hb, heq⟩
      exact hnew b hb (heq ▸ List.mem_cons_self ..)
    · rintro ⟨hflaws, ⟨hnot, hnodup⟩, hnew⟩
      obtain ⟨hflaw, hflaws⟩ := List.forall_mem_cons.mp hflaws
      obtain ⟨hseen, hnew⟩ := List.forall_mem_cons.mp hnew
      refine ⟨⟨hflaw, hseen⟩, hflaws, hnodup, fun b hb hmem => ?_⟩
      rcases List.mem_cons.mp hmem with heq | hmem
      · exact hnot ⟨b, hb, heq⟩
      · exact hnew b hb hmem

/-- The fault is that of a record in front of which nothing is refused. -/
theorem firstRefusal?_eq_some_iff {fault : φ} :
    firstRefusal? key flaw? repeated seen records = some fault ↔
      ∃ before a after, records = before ++ a :: after ∧
        firstRefusal? key flaw? repeated seen before = none ∧
        refusal? key flaw? repeated ((before.map key).reverse ++ seen) a = some fault := by
  induction records generalizing seen with
  | nil => simp [firstRefusal?]
  | cons b rest ih =>
    rw [firstRefusal?, Option.or_eq_some_iff, ih]
    -- Either the first record is refused, or it is not and goes in front of the others.
    constructor
    · rintro (h | ⟨hnone, before, a, after, rfl, hbefore, ha⟩)
      · exact ⟨[], b, rest, rfl, rfl, h⟩
      · refine ⟨b :: before, a, after, rfl, ?_, by simpa using ha⟩
        rw [firstRefusal?, hnone, hbefore]
        rfl
    · rintro ⟨before, a, after, hsplit, hbefore, ha⟩
      cases before with
      | nil =>
        obtain ⟨rfl, rfl⟩ := List.cons.inj hsplit
        exact .inl ha
      | cons c before =>
        obtain ⟨rfl, rfl⟩ := List.cons.inj hsplit
        rw [firstRefusal?, Option.or_eq_none_iff] at hbefore
        exact .inr ⟨hbefore.1, before, a, after, rfl, hbefore.2, by simpa using ha⟩

/-! ## What it means to make a catalog exactly -/

/-- A way to make catalogs of records. -/
structure MakesExactly (make : List α → Except φ γ) (size : γ → Nat) (get? : γ → κ → Option α)
    (key : α → κ) (flaw? : α → Option φ) (repeated : κ → φ) : Prop where
  /-- it succeeds for flawless records with different keys -/
  succeeds : ∀ records, (∃ catalog, make records = .ok catalog) ↔
    (∀ a ∈ records, flaw? a = none) ∧ (records.map key).Nodup
  /-- the catalog is as great as the list -/
  size_eq : ∀ records catalog, make records = .ok catalog → size catalog = records.length
  /-- what is found under a key is the record whose own key it is -/
  found : ∀ records catalog, make records = .ok catalog →
    ∀ k a, get? catalog k = some a ↔ a ∈ records ∧ key a = k
  /-- nothing is found under a key that no record has -/
  missed : ∀ records catalog, make records = .ok catalog →
    ∀ k, get? catalog k = none ↔ k ∉ records.map key
  /-- the same catalog is made whatever the order of the records -/
  order : ∀ records other catalog, make records = .ok catalog → records.Perm other →
    ∃ catalog', make other = .ok catalog' ∧ size catalog' = size catalog ∧
      get? catalog' = get? catalog
  /-- the first record that is refused decides the fault, and its flaw goes before its key -/
  fails : ∀ records fault, make records = .error fault ↔
    ∃ before a after, records = before ++ a :: after ∧
      (∀ b ∈ before, flaw? b = none) ∧ (before.map key).Nodup ∧
      (flaw? a = some fault ∨
        flaw? a = none ∧ key a ∈ before.map key ∧ fault = repeated (key a))

/-- Where keys are different, what is found under a key is the record whose own key it is. -/
theorem find?_key_eq_some_iff (hdistinct : (records.map key).Nodup) {k : κ} {a : α} :
    records.find? (fun b => key b == k) = some a ↔ a ∈ records ∧ key a = k := by
  constructor
  · intro h
    exact ⟨List.mem_of_find?_eq_some h, by simpa using List.find?_some h⟩
  · rintro ⟨hmem, rfl⟩
    cases hfind : records.find? fun b => key b == key a with
    | none =>
      have hne := List.find?_eq_none.mp hfind a hmem
      simp at hne
    | some b =>
      -- Two records with one key are the same.
      have hkey : key b = key a := by simpa using List.find?_some hfind
      rw [List.inj_on_of_nodup_map hdistinct (List.mem_of_find?_eq_some hfind) hmem hkey]

/-- A way to make catalogs by a pass over the records. -/
structure MakesByPass (make : List α → Except φ γ) (size : γ → Nat) (get? : γ → κ → Option α)
    (contents : γ → List α) (key : α → κ) (flaw? : α → Option φ) (repeated : κ → φ) : Prop where
  /-- records are taken in as they are, if none is refused -/
  outcome : ∀ records,
    (∃ fault, firstRefusal? key flaw? repeated [] records = some fault ∧
      make records = .error fault) ∨
    (firstRefusal? key flaw? repeated [] records = none ∧
      ∃ catalog, make records = .ok catalog ∧ contents catalog = records)
  size_eq : ∀ catalog, size catalog = (contents catalog).length
  get?_eq : ∀ catalog k, get? catalog k = (contents catalog).find? fun a => key a == k

namespace MakesByPass

variable {make : List α → Except φ γ} {size : γ → Nat} {get? : γ → κ → Option α}
  {contents : γ → List α} {catalog : γ}

theorem contents_eq (h : MakesByPass make size get? contents key flaw? repeated)
    (hmake : make records = .ok catalog) : contents catalog = records := by
  rcases h.outcome records with ⟨fault, -, herror⟩ | ⟨-, c, hc, hcontents⟩
  · rw [herror] at hmake
    cases hmake
  · rw [hc] at hmake
    obtain rfl := Except.ok.inj hmake
    exact hcontents

theorem ok_iff (h : MakesByPass make size get? contents key flaw? repeated) :
    (∃ catalog, make records = .ok catalog) ↔
      firstRefusal? key flaw? repeated [] records = none := by
  rcases h.outcome records with ⟨fault, hsome, herror⟩ | ⟨hnone, c, hc, -⟩
  · rw [hsome, herror]
    exact ⟨fun ⟨_, hok⟩ => (nomatch hok), fun hnone => (nomatch hnone)⟩
  · exact ⟨fun _ => hnone, fun _ => ⟨c, hc⟩⟩

theorem error_iff (h : MakesByPass make size get? contents key flaw? repeated) {fault : φ} :
    make records = .error fault ↔
      firstRefusal? key flaw? repeated [] records = some fault := by
  rcases h.outcome records with ⟨other, hsome, herror⟩ | ⟨hnone, c, hc, -⟩
  · rw [hsome, herror, Except.error.injEq, Option.some.injEq]
  · rw [hnone, hc]
    exact ⟨fun herror => (nomatch herror), fun hsome => (nomatch hsome)⟩

theorem succeeds (h : MakesByPass make size get? contents key flaw? repeated) :
    (∃ catalog, make records = .ok catalog) ↔
      (∀ a ∈ records, flaw? a = none) ∧ (records.map key).Nodup := by
  rw [h.ok_iff, firstRefusal?_eq_none_iff]
  simp

theorem found (h : MakesByPass make size get? contents key flaw? repeated)
    (hmake : make records = .ok catalog) {k : κ} {a : α} :
    get? catalog k = some a ↔ a ∈ records ∧ key a = k := by
  rw [h.get?_eq, h.contents_eq hmake]
  exact find?_key_eq_some_iff (h.succeeds.mp ⟨catalog, hmake⟩).2

/-- The order of the records does not matter. -/
theorem order (h : MakesByPass make size get? contents key flaw? repeated) {other : List α}
    (hmake : make records = .ok catalog) (hperm : records.Perm other) :
    ∃ catalog', make other = .ok catalog' ∧ size catalog' = size catalog ∧
      get? catalog' = get? catalog := by
  obtain ⟨hflaws, hnodup⟩ := h.succeeds.mp ⟨catalog, hmake⟩
  obtain ⟨catalog', hmake'⟩ := h.succeeds.mpr
    ⟨fun a ha => hflaws a (hperm.mem_iff.mpr ha), (hperm.map key).nodup_iff.mp hnodup⟩
  refine ⟨catalog', hmake', ?_, ?_⟩
  · rw [h.size_eq, h.size_eq, h.contents_eq hmake, h.contents_eq hmake', hperm.length_eq]
  · funext k
    apply Option.ext
    intro a
    rw [h.found hmake, h.found hmake', hperm.mem_iff]

theorem makesExactly (h : MakesByPass make size get? contents key flaw? repeated) :
    MakesExactly make size get? key flaw? repeated where
  succeeds _ := h.succeeds
  size_eq _ catalog hmake := by rw [h.size_eq, h.contents_eq hmake]
  found _ _ hmake _ _ := h.found hmake
  missed _ _ hmake k := by
    rw [h.get?_eq, h.contents_eq hmake]
    simp
  order _ _ _ hmake hperm := h.order hmake hperm
  fails records fault := by
    rw [h.error_iff, firstRefusal?_eq_some_iff]
    simp only [firstRefusal?_eq_none_iff, refusal?_eq_some_iff, List.append_nil, List.mem_reverse,
      List.not_mem_nil, not_false_eq_true, implies_true, and_true, and_assoc]

end MakesByPass

end

/-! ## Events and ages -/

theorem EventCatalog.firstFault?_eq (seen : List String) (events : List Event) :
    firstFault? seen events = firstRefusal? (·.id) (fun _ => none) .duplicateEvent seen events := by
  induction events generalizing seen with
  | nil => rfl
  | cons e rest ih =>
    rw [firstFault?, firstRefusal?, refusal?, ih]
    by_cases h : e.id ∈ seen <;> simp [h]

theorem AgeCatalog.firstFault?_eq (seen : List Int) (pools : List AgePool) :
    firstFault? seen pools = firstRefusal? (·.age) badWeight? .duplicateAge seen pools := by
  induction pools generalizing seen with
  | nil => rfl
  | cons pool rest ih =>
    rw [firstFault?, firstRefusal?, refusal?, ih]
    cases badWeight? pool with
    | some fault => rfl
    | none => by_cases h : pool.age ∈ seen <;> simp [h]

theorem EventCatalog.makesByPass :
    MakesByPass ofList size get? events (·.id) (fun _ => none) .duplicateEvent := by
  refine ⟨fun records => ?_, fun _ => rfl, fun _ _ => rfl⟩
  rw [← firstFault?_eq, ofList]
  split
  · next fault h => exact .inl ⟨fault, h, rfl⟩
  · next h => exact .inr ⟨h, _, rfl, rfl⟩

theorem AgeCatalog.makesByPass :
    MakesByPass ofList size get? pools (·.age) badWeight? .duplicateAge := by
  refine ⟨fun records => ?_, fun _ => rfl, fun _ _ => rfl⟩
  rw [← firstFault?_eq, ofList]
  split
  · next fault h => exact .inl ⟨fault, h, rfl⟩
  · next h => exact .inr ⟨h, _, rfl, rfl⟩

/-- Whether a weight is finite and not below zero. -/
def Reference.IsFit (r : Reference) : Prop :=
  Decimal.isFinite r.weight = true ∧ ¬ r.weight < 0.0

theorem Reference.isFit_iff {r : Reference} : r.IsFit ↔ r.hasGoodWeight = true := by
  simp [IsFit, hasGoodWeight]

theorem AgeCatalog.badWeight?_eq_none_iff {pool : AgePool} :
    badWeight? pool = none ↔ ∀ r ∈ pool.references, r.IsFit := by
  simp [badWeight?, Reference.isFit_iff]

/-- The fault tells the first weight that is not fit. -/
theorem AgeCatalog.badWeight?_eq_some_iff {pool : AgePool} {fault : CatalogFault} :
    badWeight? pool = some fault ↔
      ∃ before r after, pool.references = before ++ r :: after ∧ (∀ x ∈ before, x.IsFit) ∧
        ¬ r.IsFit ∧ fault = .badWeight pool.age r.event r.weight := by
  simp only [badWeight?, Option.map_eq_some_iff, List.find?_eq_some_iff_append,
    Reference.isFit_iff]
  constructor
  · rintro ⟨r, ⟨hbad, before, after, hsplit, hbefore⟩, rfl⟩
    exact ⟨before, r, after, hsplit, by simpa using hbefore, by simpa using hbad, rfl⟩
  · rintro ⟨before, r, after, hsplit, hbefore, hbad, rfl⟩
    exact ⟨r, ⟨by simpa using hbad, before, after, hsplit, by simpa using hbefore⟩, rfl⟩

/-! ## References -/

/-- Every reference of the pools and of the events is the id of a record. -/
structure ReferencesKnown (records : List Event) (pools : List AgePool) : Prop where
  pools : ∀ pool ∈ pools, ∀ r ∈ pool.references, r.event ∈ records.map (·.id)
  branches : ∀ e ∈ records, ∀ b ∈ e.branches, b.event ∈ records.map (·.id)
  next : ∀ e ∈ records, ∀ id, e.next = some id → id ∈ records.map (·.id)

section

variable {records : List Event} {pools : List AgePool} {events : EventCatalog} {ages : AgeCatalog}

/-- Tables made of records are closed exactly if the references in the records are known. -/
theorem closed_iff_referencesKnown (hevents : EventCatalog.ofList records = .ok events)
    (hages : AgeCatalog.ofList pools = .ok ages) : Closed events ages ↔ ReferencesKnown records pools := by
  have hknown : ∀ id, (events.get? id).isSome ↔ id ∈ records.map (·.id) := by
    intro id
    rw [Option.isSome_iff_ne_none, ne_eq,
      EventCatalog.makesByPass.makesExactly.missed records events hevents, not_not]
  have hrecords : events.events = records := EventCatalog.makesByPass.contents_eq hevents
  have hpools : ages.pools = pools := AgeCatalog.makesByPass.contents_eq hages
  constructor
  · intro h
    refine ⟨fun pool hpool r hr => ?_, fun e he b hb => ?_, fun e he id hnext => ?_⟩
    · exact (hknown _).mp (h.pools pool (hpools ▸ hpool) r hr)
    · refine (hknown _).mp (h.successors e (hrecords ▸ he) _ ?_)
      exact List.mem_append_left _ (List.mem_map_of_mem hb)
    · refine (hknown _).mp (h.successors e (hrecords ▸ he) id ?_)
      exact List.mem_append_right _ (by simp [hnext])
  · intro h
    refine ⟨fun pool hpool r hr => ?_, fun e he id hid => ?_⟩
    · exact (hknown _).mpr (h.pools pool (hpools ▸ hpool) r hr)
    · rw [hrecords] at he
      rcases List.mem_append.mp hid with hbranch | hnext
      · obtain ⟨b, hb, rfl⟩ := List.mem_map.mp hbranch
        exact (hknown _).mpr (h.branches e he b hb)
      · exact (hknown _).mpr (h.next e he id (by simpa using hnext))

end

/-- **Catalogs are made exactly, and their references are checked exactly.** Events make a catalog
exactly if their ids are different, and pools do exactly if their ages are different and all their
weights are finite and not below zero. The catalog has each record under its own key and nothing
else, in whatever order the records came; otherwise the first record that repeats a key or, among
pools, has an unfit weight decides the fault, and of that pool the first unfit weight. Of catalogs
that were made, no reference dangles exactly if each of them is the id of an event. -/
theorem catalogs_made_exactly :
    MakesExactly EventCatalog.ofList EventCatalog.size EventCatalog.get? (·.id) (fun _ => none)
        .duplicateEvent ∧
      MakesExactly AgeCatalog.ofList AgeCatalog.size AgeCatalog.get? (·.age) AgeCatalog.badWeight?
        .duplicateAge ∧
      (∀ pool, AgeCatalog.badWeight? pool = none ↔ ∀ r ∈ pool.references, r.IsFit) ∧
      (∀ pool fault, AgeCatalog.badWeight? pool = some fault ↔
        ∃ before r after, pool.references = before ++ r :: after ∧ (∀ x ∈ before, x.IsFit) ∧
          ¬ r.IsFit ∧ fault = .badWeight pool.age r.event r.weight) ∧
      ∀ records pools events ages, EventCatalog.ofList records = .ok events →
        AgeCatalog.ofList pools = .ok ages →
          (danglingReference? events ages = none ↔ ReferencesKnown records pools) := by
  refine ⟨EventCatalog.makesByPass.makesExactly, AgeCatalog.makesByPass.makesExactly,
    fun _ => AgeCatalog.badWeight?_eq_none_iff, fun _ _ => AgeCatalog.badWeight?_eq_some_iff, ?_⟩
  intro records pools events ages hevents hages
  rw [danglingReference?_eq_none_iff]
  exact closed_iff_referencesKnown hevents hages

/-- Two events that lead to each other make closed tables with the pool that refers to one of them,
in either order. -/
theorem catalogs_made_exactly_circle :
    let born : Event := { Event.plain "1" "You are born." with next := some "2" }
    let cried : Event := { Event.plain "2" "You cry." with branches := [⟨some "CHR>5", "1"⟩] }
    let pool : AgePool := ⟨0, [⟨"1", 2.5⟩, ⟨"2", 0.0⟩]⟩
    ∃ events events' ages, EventCatalog.ofList [born, cried] = .ok events ∧
      EventCatalog.ofList [cried, born] = .ok events' ∧ AgeCatalog.ofList [pool] = .ok ages ∧
      events'.get? = events.get? ∧ events.get? "2" = some cried ∧
      danglingReference? events ages = none := by
  intro born cried pool
  obtain ⟨hevents, hages, hnone, -, hclosed⟩ := catalogs_made_exactly
  obtain ⟨events, hmake⟩ := (hevents.succeeds [born, cried]).mpr (by decide +kernel)
  obtain ⟨ages, hpool⟩ := (hages.succeeds [pool]).mpr (by decide +kernel)
  obtain ⟨events', hother, -, hsame⟩ := hevents.order _ _ _ hmake (List.Perm.swap ..)
  refine ⟨events, events', ages, hmake, hother, hpool, hsame, ?_, ?_⟩
  · exact (hevents.found _ _ hmake "2" cried).mpr ⟨by simp, rfl⟩
  · refine (hclosed _ _ _ _ hmake hpool).mpr ⟨?_, ?_, ?_⟩ <;> simp [born, cried, pool, Event.plain]

end LifePath
