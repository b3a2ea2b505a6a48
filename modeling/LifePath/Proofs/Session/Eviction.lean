import LifePath.Proofs.Lookup
import LifePath.Session.Store
import Mathlib.Data.List.Basic
import Mathlib.Data.List.Induction

/-!
# Eviction removes the idle games

What the store holds after calls one after the other can be told from the calls alone, for each
identity by itself: its game is live if it was started and neither finished nor evicted since
(`IsLive`), and it was last active when its game was last started or used (`lastActivity?`). An
eviction goes by nothing else.

`StoreCall.onSession` is what a call does to the session of one identity. The store as a whole does
no more than that to each of them (`find?_run`), so the induction over a history is about one
session (`Follows`).
-/

namespace LifePath

variable {α : Type}

/-- A call of the store that is over before the next one begins. What is done with a session leaves
the time of its last activity alone. -/
inductive StoreCall (α : Type) where
  | start (identity : String) (startAge : Int)
  | use (identity : String) (act : Session → α × Session)
      (leaves : ∀ s, (act s).2.lastActive = s.lastActive)
  | find (identity : String)
  | finish (identity : String)
  | evict (timeout : Int)

namespace StoreCall

/-- The store after a call at a time. -/
def run (now : Int) (store : Store) : StoreCall α → Store
  | .start identity startAge => (store.start identity startAge now).2
  | .use identity act _ => (store.withSession identity now act).2
  | .find _ => store
  | .finish identity => (store.finish identity).2
  | .evict timeout => (store.evictIdle timeout now []).2

/-- What a call at a time does to the session of an identity. -/
def onSession (identity : String) (now : Int) (session? : Option Session) :
    StoreCall α → Option Session
  | .start other startAge =>
    if other = identity then some ((Session.create identity now).beginAt startAge now)
    else session?
  | .use other act _ =>
    if other = identity then session?.map fun s => (act (s.touch now)).2 else session?
  | .find _ => session?
  | .finish other => if other = identity then none else session?
  | .evict timeout => session?.filter fun s => !Store.isStale timeout now s

/-- Whether a call names an identity; an eviction names none. -/
def Names (identity : String) : StoreCall α → Prop
  | .start other _ => other = identity
  | .use other _ _ => other = identity
  | .find other => other = identity
  | .finish other => other = identity
  | .evict _ => False

end StoreCall

/-! ## The store as one session for each identity -/

namespace Store

theorem find?_remove_self (store : Store) (identity : String) :
    (store.remove identity).find? identity = none := by
  rw [find?, List.lookup_eq_none_iff]
  intro entry hmem
  have hnot := store.not_mem_remove identity
  rw [bne_iff_ne]
  rintro rfl
  exact hnot (List.mem_map.mpr ⟨entry, hmem, rfl⟩)

theorem find?_keep (store : Store) (test : String × Session → Bool) (identity : String) :
    (store.keep test).find? identity =
      (store.find? identity).filter fun s => test (identity, s) :=
  lookup_filter store.distinct test identity

/-- A call does to the session of each identity what it does to a session alone. -/
theorem find?_run (store : Store) (now : Int) (call : StoreCall α) (identity : String) :
    (call.run now store).find? identity = call.onSession identity now (store.find? identity) := by
  cases call with
  | start other startAge =>
    simp only [StoreCall.run, start, StoreCall.onSession]
    by_cases hid : other = identity
    · subst hid
      rw [if_pos rfl, find?_put_self]
    · rw [if_neg hid, find?_put_of_ne store (Ne.symm hid)]
  | use other act leaves =>
    simp only [StoreCall.run, withSession, StoreCall.onSession]
    by_cases hid : other = identity
    · subst hid
      rw [if_pos rfl]
      cases hs : store.find? other with
      | none => exact hs
      | some s => exact find?_put_self ..
    · rw [if_neg hid]
      cases hs : store.find? other with
      | none => rfl
      | some s => exact find?_put_of_ne store (Ne.symm hid) _
  | find other => rfl
  | finish other =>
    simp only [StoreCall.run, finish, StoreCall.onSession]
    by_cases hid : other = identity
    · subst hid
      rw [if_pos rfl, find?_remove_self]
    · rw [if_neg hid, find?_remove_of_ne store (Ne.symm hid)]
  | evict timeout =>
    simp only [StoreCall.run, evictIdle, StoreCall.onSession]
    rw [find?_keep]
    simp

/-- A call that is no eviction leaves the sessions alone that it does not name. -/
theorem find?_run_of_not_names (store : Store) (now : Int) {call : StoreCall α}
    {identity : String} (hnames : ¬ call.Names identity)
    (hevict : ∀ timeout, call ≠ .evict timeout) :
    (call.run now store).find? identity = store.find? identity := by
  rw [find?_run]
  cases call with
  | evict timeout => exact absurd rfl (hevict timeout)
  | find => rfl
  | _ => exact if_neg hnames

theorem find?_evictIdle (store : Store) (timeout now : Int) (identity : String) :
    (store.evictIdle timeout now []).2.find? identity =
      (store.find? identity).filter fun s => !isStale timeout now s :=
  store.find?_run now (.evict timeout : StoreCall Unit) identity

theorem filter_isStale (timeout now : Int) (s : Session) :
    (some s).filter (fun s => !isStale timeout now s) =
      if timeout < now - s.lastActive then none else some s := by
  by_cases h : timeout < now - s.lastActive <;> simp [isStale, Session.idleFor, h]

/-- The number that an eviction tells is that of the sessions that it removes. -/
theorem evictIdle_count (store : Store) (timeout now : Int) :
    (store.evictIdle timeout now []).1 =
      (store.entries.filter fun entry => isStale timeout now entry.2).length := by
  have hsplit := List.length_eq_length_filter_add (l := store.entries)
    fun entry => isStale timeout now entry.2
  simp only [evictIdle, size, keep, List.contains_nil, Bool.false_or]
  omega

end Store

/-! ## What calls say of an identity -/

namespace StoreCall

/-- Whether a call starts the game of an identity. -/
def Starts (identity : String) (call : StoreCall α) : Prop :=
  ∃ startAge, call = .start identity startAge

/-- Whether a call counts as activity of an identity, whether it finds a session or not. -/
def isActivity (identity : String) : StoreCall α → Bool
  | .start other _ => other == identity
  | .use other _ _ => other == identity
  | _ => false

/-- Whether a call at a time ends the game of an identity that was last active at another: it
finishes it, or it evicts what has been idle for longer than a timeout, and this has. -/
def Ends (identity : String) (now : Int) (active? : Option Int) : StoreCall α → Prop
  | .finish other => other = identity
  | .evict timeout => ∃ active, active? = some active ∧ timeout < now - active
  | _ => False

end StoreCall

/-- The time of the latest activity of an identity. -/
def lastActivity? (identity : String) (history : List (Int × StoreCall α)) : Option Int :=
  (history.reverse.find? fun event => event.2.isActivity identity).map Prod.fst

/-- The game of an identity has been started and, since it was last started, neither finished nor
evicted. -/
def IsLive (identity : String) (history : List (Int × StoreCall α)) : Prop :=
  ∃ before start after, history = before ++ start :: after ∧ start.2.Starts identity ∧
    (∀ event ∈ after, ¬ event.2.Starts identity) ∧
    ∀ between event rest, after = between ++ event :: rest →
      ¬ event.2.Ends identity event.1 (lastActivity? identity (before ++ start :: between))

/-- The store after calls one after the other. -/
def Store.after (history : List (Int × StoreCall α)) : Store :=
  history.foldl (fun store event => event.2.run event.1 store) .empty

section

variable {identity : String} {history : List (Int × StoreCall α)} {event : Int × StoreCall α}

theorem Store.after_concat (history : List (Int × StoreCall α)) (event : Int × StoreCall α) :
    Store.after (history ++ [event]) = event.2.run event.1 (Store.after history) := by
  rw [Store.after, List.foldl_append]
  rfl

theorem lastActivity?_concat :
    lastActivity? identity (history ++ [event]) =
      if event.2.isActivity identity then some event.1 else lastActivity? identity history := by
  rw [lastActivity?, List.reverse_append, List.reverse_singleton, List.singleton_append,
    List.find?_cons]
  cases event.2.isActivity identity <;> rfl

/-- Only a start starts a game. -/
theorem StoreCall.not_starts {call : StoreCall α}
    (h : ∀ other startAge, call ≠ .start other startAge) : ¬ call.Starts identity := by
  rintro ⟨startAge, rfl⟩
  exact h identity startAge rfl

theorem isLive_of_starts (h : event.2.Starts identity) : IsLive identity (history ++ [event]) := by
  refine ⟨history, event, [], rfl, h, by simp, ?_⟩
  intro between last rest heq
  simp at heq

/-- A game stays live over a call that does not end it. -/
theorem isLive_concat (h : ¬ event.2.Starts identity) :
    IsLive identity (history ++ [event]) ↔ IsLive identity history ∧
      ¬ event.2.Ends identity event.1 (lastActivity? identity history) := by
  constructor
  · rintro ⟨before, start, after, heq, hstarts, hnone, hends⟩
    -- the last call is the start itself or one after it
    rcases List.eq_nil_or_concat' after with rfl | ⟨after, last, rfl⟩
    · obtain ⟨-, hlast⟩ := List.append_inj' heq rfl
      obtain rfl : event = start := by simpa using hlast
      exact absurd hstarts h
    · rw [← List.cons_append, ← List.append_assoc] at heq
      obtain ⟨rfl, hlast⟩ := List.append_inj' heq rfl
      obtain rfl : event = last := by simpa using hlast
      refine ⟨⟨before, start, after, rfl, hstarts, ?_, ?_⟩, hends after event [] rfl⟩
      · exact fun call hmem => hnone call (List.mem_append_left _ hmem)
      · rintro between call rest rfl
        exact hends between call (rest ++ [event]) (by simp)
  · rintro ⟨⟨before, start, after, rfl, hstarts, hnone, hends⟩, hlast⟩
    refine ⟨before, start, after ++ [event], by simp, hstarts, ?_, ?_⟩
    · intro call hmem
      rcases List.mem_append.mp hmem with hmem | hmem
      · exact hnone call hmem
      · obtain rfl : call = event := by simpa using hmem
        exact h
    · intro between call rest heq
      rcases List.eq_nil_or_concat' rest with rfl | ⟨rest, other, rfl⟩
      · obtain ⟨rfl, hcall⟩ := List.append_inj' heq rfl
        obtain rfl : event = call := by simpa using hcall
        exact hlast
      · rw [← List.cons_append, ← List.append_assoc] at heq
        obtain ⟨rfl, -⟩ := List.append_inj' heq rfl
        exact hends between call rest rfl

/-! ## One session over a history -/

/-- A session, or none, is as the calls say. -/
structure Follows (identity : String) (history : List (Int × StoreCall α))
    (session? : Option Session) : Prop where
  live : session?.isSome ↔ IsLive identity history
  active : ∀ s, session? = some s → lastActivity? identity history = some s.lastActive

variable {session? : Option Session}

/-- A call that is no activity of an identity does not change when it was last active. -/
theorem Follows.concat_idle (h : Follows identity history session?)
    (hstart : ¬ event.2.Starts identity) (hidle : event.2.isActivity identity = false)
    (hends : event.2.Ends identity event.1 (lastActivity? identity history) → session? = none) :
    Follows identity (history ++ [event]) session? := by
  constructor
  · rw [isLive_concat hstart, h.live]
    constructor
    · intro hlive
      refine ⟨hlive, fun hend => ?_⟩
      rw [← h.live, hends hend] at hlive
      cases hlive
    · exact And.left
  · intro s hs
    rw [lastActivity?_concat, hidle]
    exact h.active s hs

theorem follows_none_of_ends (hstart : ¬ event.2.Starts identity)
    (hends : event.2.Ends identity event.1 (lastActivity? identity history)) :
    Follows identity (history ++ [event]) none := by
  constructor
  · rw [isLive_concat hstart]
    simp [hends]
  · intro s hs
    cases hs

/-- A start puts a new session in the place of whatever was there. -/
theorem follows_of_start (history : List (Int × StoreCall α)) (now startAge : Int) :
    Follows identity (history ++ [(now, .start identity startAge)])
      (some ((Session.create identity now).beginAt startAge now)) := by
  constructor
  · have hlive : IsLive identity (history ++ [(now, .start identity startAge)]) :=
      isLive_of_starts ⟨startAge, rfl⟩
    simp [hlive]
  · rintro s ⟨⟩
    simp [lastActivity?_concat, StoreCall.isActivity, Session.beginAt]

/-- A session stays live while it is used and is last active then. -/
theorem Follows.use (h : Follows identity history session?) (now : Int)
    (act : Session → α × Session) (leaves : ∀ s, (act s).2.lastActive = s.lastActive) :
    Follows identity (history ++ [(now, .use identity act leaves)])
      (session?.map fun s => (act (s.touch now)).2) := by
  have hstart : ¬ (StoreCall.use identity act leaves).Starts identity := StoreCall.not_starts nofun
  constructor
  · rw [isLive_concat hstart, ← h.live]
    simp [StoreCall.Ends]
  · intro s hs
    obtain ⟨s₀, -, rfl⟩ := Option.map_eq_some_iff.mp hs
    simp [lastActivity?_concat, StoreCall.isActivity, leaves, Session.touch]

/-- A session is idle for as long as the calls say, so an eviction removes it exactly if they say
that this is too long. -/
theorem Follows.evict (h : Follows identity history session?) (now timeout : Int) :
    Follows identity (history ++ [(now, .evict timeout)])
      (session?.filter fun s => !Store.isStale timeout now s) := by
  have hstart : ¬ (StoreCall.evict timeout : StoreCall α).Starts identity :=
    StoreCall.not_starts nofun
  cases session? with
  | none => exact h.concat_idle hstart rfl fun _ => rfl
  | some s =>
    have hactive := h.active s rfl
    rw [Store.filter_isStale]
    split
    · next hstale => exact follows_none_of_ends hstart ⟨_, hactive, hstale⟩
    · next hstays =>
      refine h.concat_idle hstart rfl ?_
      rintro ⟨active, heq, hlt⟩
      rw [hactive] at heq
      obtain rfl := Option.some.inj heq
      exact absurd hlt hstays

/-- A session follows its history over every call. -/
theorem Follows.concat (h : Follows identity history session?) (event : Int × StoreCall α) :
    Follows identity (history ++ [event]) (event.2.onSession identity event.1 session?) := by
  obtain ⟨now, call⟩ := event
  cases call with
  | start other startAge =>
    rw [StoreCall.onSession]
    split
    · next hid =>
      subst hid
      exact follows_of_start history now startAge
    · next hid =>
      refine h.concat_idle ?_ (by simpa [StoreCall.isActivity] using hid) False.elim
      rintro ⟨startAge, ⟨⟩⟩
      exact hid rfl
  | use other act leaves =>
    rw [StoreCall.onSession]
    split
    · next hid =>
      subst hid
      exact h.use now act leaves
    · next hid =>
      exact h.concat_idle (StoreCall.not_starts nofun) (by simpa [StoreCall.isActivity] using hid)
        False.elim
  | find other => exact h.concat_idle (StoreCall.not_starts nofun) rfl False.elim
  | finish other =>
    rw [StoreCall.onSession]
    split
    · next hid => exact follows_none_of_ends (StoreCall.not_starts nofun) hid
    · next hid =>
      exact h.concat_idle (StoreCall.not_starts nofun) rfl fun heq => absurd heq hid
  | evict timeout => exact h.evict now timeout

theorem follows_after (identity : String) (history : List (Int × StoreCall α)) :
    Follows identity history ((Store.after history).find? identity) := by
  induction history using List.reverseRecOn with
  | nil =>
    constructor
    · simp [Store.after, Store.find?, Store.empty, IsLive]
    · intro s hs
      cases hs
  | append_singleton history event ih =>
    rw [Store.after_concat, Store.find?_run]
    exact ih.concat event

end

/-! ## Main statement -/

/-- **An eviction removes the idle games and no others.** After calls one after the other, at any
times and whatever was done with the sessions:

* the game of an identity is live exactly if it has been started and, since it was last started,
  neither finished nor evicted;
* the session of a live game was last active when its game was last started or used;
* an eviction removes exactly the sessions whose last activity is longer ago than the timeout,
  tells their number, and leaves every other session as it is;
* so does any other call with the sessions of the identities that it does not name. -/
theorem eviction_removes_idle (history : List (Int × StoreCall α)) :
    let store := Store.after history
    (∀ identity, (store.find? identity).isSome ↔ IsLive identity history) ∧
    (∀ identity s, store.find? identity = some s →
      lastActivity? identity history = some s.lastActive) ∧
    (∀ timeout now,
      (∀ identity s, store.find? identity = some s →
        (store.evictIdle timeout now []).2.find? identity =
          if timeout < now - s.lastActive then none else some s) ∧
      (∀ identity, store.find? identity = none →
        (store.evictIdle timeout now []).2.find? identity = none) ∧
      (store.evictIdle timeout now []).1 =
        (store.entries.filter fun entry => timeout < now - entry.2.lastActive).length) ∧
    ∀ (call : StoreCall α) (now : Int) (identity : String), ¬ call.Names identity →
      (∀ timeout, call ≠ .evict timeout) →
      (call.run now store).find? identity = store.find? identity := by
  intro store
  refine ⟨fun identity => (follows_after identity history).live,
    fun identity => (follows_after identity history).active, ?_, ?_⟩
  · intro timeout now
    refine ⟨fun identity s hs => ?_, fun identity hnone => ?_, store.evictIdle_count timeout now⟩
    · rw [store.find?_evictIdle, hs]
      by_cases hstale : timeout < now - s.lastActive
      · simp [Store.isStale, Session.idleFor, hstale]
      · simp [Store.isStale, Session.idleFor, hstale]
    · rw [store.find?_evictIdle, hnone]
      rfl
  · intro call now identity hnames hevict
    exact store.find?_run_of_not_names now hnames hevict

/-- Looking a game up does not count: used at 5, it has been idle for 5 at 10, which is not yet too
long, and for 6 at 11. -/
example :
    let history : List (Int × StoreCall Unit) :=
      [(0, .start "p" 3), (5, .use "p" (fun s => ((), s)) fun _ => rfl), (8, .find "p")]
    ((Store.after history).evictIdle 5 10 []).1 = 0 ∧
      ((Store.after history).evictIdle 5 11 []).1 = 1 := by decide +kernel

end LifePath
