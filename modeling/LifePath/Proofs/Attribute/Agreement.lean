import LifePath.Proofs.Attribute.Dealing
import LifePath.Proofs.Text.Blank

/-!
# The two ways of handing out attributes

By chance and by hand the same attributes can be handed out, except that a player need not spend the
whole budget. Both ways keep to what is `Legal`. What is dealt can be written down by hand
(`manual_of_legal`), and what a player wrote who spent everything can be dealt for some words of
chance (`exists_words_random`).
-/

namespace LifePath.Attributes

open LifePath.Text LifePath.Decimal

/-- The five numbers that are handed out, in the order in which a player names them. -/
def shares (a : Attributes) : List Int := Code.allocatable.filterMap a.number?

/-- The five numbers as a player writes them. -/
def sharesText (a : Attributes) : String := String.intercalate " " (a.shares.map intText)

/-- Attributes that a game can begin with: nothing has happened, life is what the settings say, and
no number that is handed out is below zero or above the cap. -/
structure Legal (s : Settings) (a : Attributes) : Prop where
  lif : a.lif = s.initialLife
  history : a.history = []
  shares : ∀ n ∈ a.shares, 0 ≤ n ∧ n ≤ s.cap

theorem allocatedTotal_eq_sum (a : Attributes) : a.allocatedTotal = a.shares.sum := by
  have hshares : a.shares = [a.chr, a.int, a.str, a.mny, a.spr] := rfl
  simp only [hshares, List.sum_cons, List.sum_nil, allocatedTotal]
  omega

/-! ## By chance -/

variable {s : Settings}

/-- Fair shares of the budget make legal attributes that spend it. -/
theorem legal_of_fair {shares : Code → Int} (h : Fair s.cap s.budget Code.allocatable shares) :
    Legal s ((ofLife s.initialLife).assign shares Code.allocatable) ∧
      ((ofLife s.initialLife).assign shares Code.allocatable).allocatedTotal = s.budget := by
  have hshares : ((ofLife s.initialLife).assign shares Code.allocatable).shares =
      Code.allocatable.map shares := rfl
  refine ⟨⟨rfl, rfl, ?_⟩, ?_⟩
  · rw [hshares, List.forall_mem_map]
    exact fun code hcode => ⟨h.nonneg code hcode, h.le_cap code hcode⟩
  · rw [allocatedTotal_eq_sum, hshares, h.sum]

/-- Legal attributes that spend the budget have fair shares of it. -/
theorem exists_fair_of_legal {a : Attributes} (h : Legal s a)
    (htotal : a.allocatedTotal = s.budget) :
    ∃ shares, a = (ofLife s.initialLife).assign shares Code.allocatable ∧
      Fair s.cap s.budget Code.allocatable shares := by
  obtain ⟨hlif, hhistory, hbounds⟩ := h
  have hshares : a.shares = Code.allocatable.map fun code => (a.number? code).getD 0 := rfl
  rw [hshares, List.forall_mem_map] at hbounds
  refine ⟨fun code => (a.number? code).getD 0, ?_, fun code hcode => (hbounds code hcode).1,
    fun code hcode => (hbounds code hcode).2, ?_⟩
  · rw [← hlif]
    obtain ⟨chr, int, str, mny, spr, lif, history⟩ := a
    obtain rfl : history = [] := hhistory
    rfl
  · rw [← htotal, allocatedTotal_eq_sum, hshares]

/-- Whatever is drawn, the attributes are legal and spend the budget. -/
theorem random_legal (hs : s.fault? = none) (hmax : s.cap ≤ maxInt32) (c : Chance) :
    Legal s (random s c).1 ∧ (random s c).1.allocatedTotal = s.budget := by
  obtain ⟨hbudget, hcap, hle⟩ := Settings.budget_of_fault? hs
  have hperm := c.shuffle_perm Code.allocatable
  have hnodup : (c.shuffle Code.allocatable).1.Nodup := hperm.nodup_iff.mpr (by decide)
  have hlength : (c.shuffle Code.allocatable).1.length = 5 := hperm.length_eq
  have hne : (c.shuffle Code.allocatable).1 ≠ [] := List.ne_nil_of_length_eq_add_one hlength
  obtain ⟨shares, hdeal, hfair⟩ := exists_fair_deal hcap hmax _ s.budget (ofLife s.initialLife)
    (c.shuffle Code.allocatable).2 hne hnodup (by rw [hlength]; exact ⟨hbudget, hle⟩)
  rw [random, hdeal, assign_perm hperm]
  exact legal_of_fair (hfair.perm hperm)

/-- Legal attributes that spend the budget are drawn for some words, whatever comes after them. -/
theorem exists_words_random (hmax : s.cap ≤ maxInt32) {a : Attributes} (h : Legal s a)
    (htotal : a.allocatedTotal = s.budget) :
    ∃ words, ∀ seed, (random s ⟨words, seed⟩).1 = a := by
  obtain ⟨shares, ha, hfair⟩ := exists_fair_of_legal h htotal
  obtain ⟨words, hshuffle⟩ := Chance.exists_words_shuffle Code.allocatable (by decide)
  obtain ⟨words', hdeal⟩ := exists_words_deal hmax _ s.budget (ofLife s.initialLife) hfair
  refine ⟨words ++ words', fun seed => ?_⟩
  have hseed := hdeal [] seed
  rw [List.append_nil] at hseed
  rw [random, hshuffle, hseed, ha]

/-! ## By hand -/

theorem nonneg_of_readNat {digits : List Char} {n : Int}
    (h : ((readNat digits).map fun m => (m : Int)) = some n) : 0 ≤ n := by
  cases hread : readNat digits with
  | none => simp [hread] at h
  | some m =>
    have hm : (m : Int) = n := by simpa [hread] using h
    omega

/-- Nothing but digits stands for no number below zero. -/
theorem readInt32_nonneg {run : List Char} {n : Int} (hrun : run.all isDecimalDigit = true)
    (h : readInt32 run = some n) : 0 ≤ n := by
  have hread : readInt run = some n := (Option.filter_eq_some_iff.mp h).1
  unfold readInt at hread
  split at hread
  · -- a minus is no digit
    rw [List.all_cons, Bool.and_eq_true] at hrun
    have hminus : isDecimalDigit '-' = false := by decide
    rw [hminus] at hrun
    simp at hrun
  · exact nonneg_of_readNat hread
  · exact nonneg_of_readNat hread

/-- As many numbers are read as there are runs of digits, and none is below zero. -/
theorem readRuns_ok {runs : List (List Char)}
    (hruns : ∀ run ∈ runs, run.all isDecimalDigit = true) :
    ∀ {values : List Int}, readRuns runs = .ok values →
      values.length = runs.length ∧ ∀ n ∈ values, 0 ≤ n := by
  induction runs with
  | nil =>
    intro values h
    obtain rfl := Except.ok.inj h
    simp
  | cons run rest ih =>
    intro values h
    obtain ⟨hrun, hrest⟩ := List.forall_mem_cons.mp hruns
    rw [readRuns] at h
    split at h
    · simp at h
    · next n hn =>
      cases hothers : readRuns rest with
      | error fault =>
        rw [hothers] at h
        simp [Except.map] at h
      | ok others =>
        rw [hothers] at h
        obtain rfl := Except.ok.inj h
        obtain ⟨hlength, hnonneg⟩ := ih hrest hothers
        exact ⟨by simp [hlength], List.forall_mem_cons.mpr ⟨readInt32_nonneg hrun hn, hnonneg⟩⟩

/-- Values are set up to the first above the cap; if all are set, none is. -/
theorem setEach_ok {cap : Int} {values : List (Code × Int)} :
    ∀ {a a' : Attributes}, setEach cap a values = .ok a' →
      (∀ p ∈ values, p.2 ≤ cap) ∧ a' = values.foldl (fun a p => a.set p.1 p.2) a := by
  induction values with
  | nil =>
    intro a a' h
    obtain rfl := Except.ok.inj h
    simp
  | cons value rest ih =>
    obtain ⟨code, n⟩ := value
    intro a a' h
    rw [setEach] at h
    split at h
    · simp at h
    · next hcap =>
      obtain ⟨hrest, rfl⟩ := ih h
      exact ⟨List.forall_mem_cons.mpr ⟨Int.not_lt.mp hcap, hrest⟩, rfl⟩

theorem setEach_of_le {cap : Int} {values : List (Code × Int)} (h : ∀ p ∈ values, p.2 ≤ cap) :
    ∀ a : Attributes, setEach cap a values = .ok (values.foldl (fun a p => a.set p.1 p.2) a) := by
  induction values with
  | nil => intro a; rfl
  | cons value rest ih =>
    intro a
    obtain ⟨hvalue, hrest⟩ := List.forall_mem_cons.mp h
    rw [setEach, if_neg (Int.not_lt.mpr hvalue), ih hrest]
    rfl

theorem digitRuns?_some {raw : List Char} {runs : List (List Char)}
    (h : digitRuns? raw = some runs) :
    runs.length = 5 ∧ ∀ run ∈ runs, run.all isDecimalDigit = true := by
  rw [digitRuns?] at h
  split at h
  · next hshape =>
    obtain rfl := Option.some.inj h
    simpa using hshape
  · simp at h

/-- What a player writes and is not refused makes legal attributes. -/
theorem manual_legal {raw : String} {a : Attributes} (h : manual s raw = .ok a) : Legal s a := by
  rw [manual] at h
  split at h
  · simp at h
  · next runs hruns =>
    obtain ⟨hfive, hdigits⟩ := digitRuns?_some hruns
    split at h
    · simp at h
    · next values hvalues =>
      obtain ⟨hlength, hnonneg⟩ := readRuns_ok hdigits hvalues
      simp only at h
      split at h
      · simp at h
      · obtain ⟨hcap, rfl⟩ := setEach_ok h
        match values, hlength.trans hfive with
        | [chr, int, str, mny, spr], _ =>
          have hle : ∀ n ∈ (Code.allocatable.zip [chr, int, str, mny, spr]).map Prod.snd,
              n ≤ s.cap :=
            List.forall_mem_map.mpr hcap
          exact ⟨rfl, rfl, fun n hn => ⟨hnonneg n hn, hle n hn⟩⟩

/-! ### Writing numbers down -/

/-- Words with a blank between them are found again. -/
theorem words_intercalate {blank : Char} (hblank : isBlank blank = true) :
    ∀ ws : List (List Char), (∀ w ∈ ws, w ≠ [] ∧ ∀ c ∈ w, isBlank c = false) →
      words ([blank].intercalate ws) = ws
  | [], _ => rfl
  | [w], h => by
    obtain ⟨hne, hw⟩ := h w (List.mem_singleton_self w)
    rw [List.intercalate_singleton, words, List.splitOnP_eq_singleton hw]
    simp [hne]
  | w :: next :: rest, h => by
    obtain ⟨hne, hw⟩ := h w (List.mem_cons_self ..)
    have ih := words_intercalate hblank (next :: rest)
      fun w' hw' => h w' (List.mem_cons_of_mem _ hw')
    rw [words] at ih
    rw [List.intercalate_cons_cons, words, List.append_assoc, List.singleton_append,
      List.splitOnP_append_cons_of_forall_mem hw _ hblank,
      List.filter_cons_of_pos (by simpa using hne), ih]

theorem intDigits_of_nonneg {n : Int} (h : 0 ≤ n) : intDigits n = Nat.toDigits 10 n.natAbs :=
  if_neg (Int.not_lt.mpr h)

theorem isDigit_of_mem_intDigits {n : Int} (h : 0 ≤ n) {c : Char} (hc : c ∈ intDigits n) :
    c.isDigit = true := by
  rw [intDigits_of_nonneg h] at hc
  exact isDigit_of_mem_toDigits hc

/-- Five numbers that are not negative are found again in the text in which they are written. -/
theorem digitRuns?_written {values : List Int} (hlength : values.length = 5)
    (hnonneg : ∀ n ∈ values, 0 ≤ n) :
    digitRuns? (String.intercalate " " (values.map intText)).toList =
      some (values.map intDigits) := by
  have htext : (String.intercalate " " (values.map intText)).toList =
      [' '].intercalate (values.map intDigits) := by
    simp [String.toList_intercalate, intText, Function.comp_def]
  have hwords : words ([' '].intercalate (values.map intDigits)) = values.map intDigits := by
    refine words_intercalate (by decide) _ ?_
    rw [List.forall_mem_map]
    intro n hn
    refine ⟨?_, fun c hc => isBlank_of_isDigit (isDigit_of_mem_intDigits (hnonneg n hn) hc)⟩
    rw [intDigits_of_nonneg (hnonneg n hn)]
    exact Nat.toDigits_ne_nil
  have hdigits : ∀ n ∈ values, (intDigits n).all isDecimalDigit = true := by
    intro n hn
    rw [List.all_eq_true]
    exact fun c hc => isDecimalDigit_of_isDigit (isDigit_of_mem_intDigits (hnonneg n hn) hc)
  rw [digitRuns?, htext, hwords]
  exact if_pos (by simpa [hlength] using hdigits)

theorem readRuns_written {values : List Int} (h : ∀ n ∈ values, fitsInt32 n = true) :
    readRuns (values.map intDigits) = .ok values := by
  induction values with
  | nil => rfl
  | cons n rest ih =>
    obtain ⟨hn, hrest⟩ := List.forall_mem_cons.mp h
    rw [List.map_cons, readRuns, readInt32_intDigits hn]
    simp only [ih hrest]
    rfl

/-- Legal attributes within the budget are accepted when they are written down. -/
theorem manual_of_legal (hmax : s.cap ≤ maxInt32) {a : Attributes} (h : Legal s a)
    (htotal : a.allocatedTotal ≤ s.budget) : manual s a.sharesText = .ok a := by
  obtain ⟨hlif, hhistory, hbounds⟩ := h
  have hfits : ∀ n ∈ a.shares, fitsInt32 n = true := by
    intro n hn
    have hn := hbounds n hn
    unfold maxInt32 at hmax
    unfold fitsInt32 minInt32 maxInt32
    rw [Bool.and_eq_true, decide_eq_true_eq, decide_eq_true_eq]
    omega
  have hsum : a.shares.foldl (· + ·) 0 = a.allocatedTotal := by
    rw [allocatedTotal_eq_sum, List.sum_eq_foldl]
  have hset : setEach s.cap (ofLife s.initialLife) (Code.allocatable.zip a.shares) = .ok a := by
    rw [setEach_of_le]
    · obtain ⟨chr, int, str, mny, spr, lif, history⟩ := a
      obtain rfl : lif = s.initialLife := hlif
      obtain rfl : history = [] := hhistory
      rfl
    · intro p hp
      exact (hbounds p.2 (List.of_mem_zip hp).2).2
  rw [manual, sharesText, digitRuns?_written rfl fun n hn => (hbounds n hn).1]
  simp only [readRuns_written hfits, hsum]
  rw [if_neg (by omega), hset]

/-! ## Both ways -/

/-- **By chance and by hand come the same attributes.** Let the settings be fit for use, with five
times the cap a 32-bit integer. The attributes that chance can hand out are exactly those that are
accepted from what some player wrote and that spend the whole budget. What is dealt is accepted in
writing and gives the same attributes; and what is accepted and spends the budget is dealt for some
words of chance, whatever comes after them. -/
theorem random_agrees_with_manual {s : Settings} (hs : s.fault? = none)
    (hmax : s.cap * 5 ≤ maxInt32) :
    (∀ a, (∃ c, (random s c).1 = a) ↔
      (∃ raw, manual s raw = .ok a) ∧ a.allocatedTotal = s.budget) ∧
    (∀ c, manual s (random s c).1.sharesText = .ok (random s c).1) ∧
    ∀ raw a, manual s raw = .ok a → a.allocatedTotal = s.budget →
      ∃ words, ∀ seed, (random s ⟨words, seed⟩).1 = a := by
  have hcap : s.cap ≤ maxInt32 := by
    have := (Settings.budget_of_fault? hs).2.1
    omega
  have hwritten : ∀ c, manual s (random s c).1.sharesText = .ok (random s c).1 := by
    intro c
    obtain ⟨hlegal, htotal⟩ := random_legal hs hcap c
    exact manual_of_legal hcap hlegal (Int.le_of_eq htotal)
  have hdealt : ∀ raw a, manual s raw = .ok a → a.allocatedTotal = s.budget →
      ∃ words, ∀ seed, (random s ⟨words, seed⟩).1 = a :=
    fun raw a h htotal => exists_words_random hcap (manual_legal h) htotal
  refine ⟨fun a => ⟨?_, ?_⟩, hwritten, hdealt⟩
  · rintro ⟨c, rfl⟩
    exact ⟨⟨_, hwritten c⟩, (random_legal hs hcap c).2⟩
  · rintro ⟨⟨raw, h⟩, htotal⟩
    obtain ⟨words, hwords⟩ := hdealt raw a h htotal
    exact ⟨⟨words, 0⟩, hwords 0⟩

/-- Where the budget is all but exhausted by the caps, the one attribute that gets less can be any
of the five. -/
theorem random_agrees_with_manual_allButOne :
    let s := { Settings.standard with budget := 20, cap := 5 }
    s.fault? = none ∧ s.cap * 5 ≤ maxInt32 ∧
      manual s " 5 5 5 0\n05 " = .ok ⟨5, 5, 5, 0, 5, 1, []⟩ ∧
      ∃ words, ∀ seed, (random s ⟨words, seed⟩).1 = ⟨5, 5, 5, 0, 5, 1, []⟩ := by
  intro s
  have hs : s.fault? = none := rfl
  have hmax : s.cap * 5 ≤ maxInt32 := by decide
  have hmanual : manual s " 5 5 5 0\n05 " = .ok ⟨5, 5, 5, 0, 5, 1, []⟩ := rfl
  exact ⟨hs, hmax, hmanual, (random_agrees_with_manual hs hmax).2.2 _ _ hmanual rfl⟩

end LifePath.Attributes
