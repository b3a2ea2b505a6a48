import LifePath.Attribute.Allocation
import LifePath.Proofs.Chance.Uniform
import Mathlib

/-!
# What a random deal can give

Dealing gives each attribute a share of what remains. `leastShare` and `greatestShare` are chosen so
that the rest can always be dealt: whatever is drawn between them leaves no more than the cap for
each attribute still to come, and no less than nothing. So a deal of what can be dealt is fair
(`exists_fair_deal`), and for every fair deal there are words of chance that give it
(`exists_words_deal`). What cannot be dealt under the cap is still spent to the last point
(`exists_shares_deal`). The order in which the shares are set does not matter (`assign_perm`).
-/

namespace LifePath

open LifePath.Decimal LifePath.Chance

/-- Settings that are fit for use have a budget that five attributes can take in. -/
theorem Settings.budget_of_fault? {s : Settings} (h : s.fault? = none) :
    0 ≤ s.budget ∧ 0 ≤ s.cap ∧ s.budget ≤ s.cap * 5 := by
  unfold fault? at h
  split at h
  · simp at h
  · split at h
    · simp at h
    · next hcap =>
      have hwrap := wrapInt32_le (n := s.cap * 5) (by omega)
      split at h
      · simp at h
      · omega

namespace Attributes

/-! ## Shares -/

/-- Sets attributes to their shares, in the given order. -/
def assign (a : Attributes) (shares : Code → Int) (codes : List Code) : Attributes :=
  codes.foldl (fun a code => a.set code (shares code)) a

theorem assign_cons (a : Attributes) (shares : Code → Int) (code : Code) (rest : List Code) :
    a.assign shares (code :: rest) = (a.set code (shares code)).assign shares rest := rfl

theorem assign_congr {shares shares' : Code → Int} {codes : List Code} :
    ∀ a : Attributes, (∀ code ∈ codes, shares code = shares' code) →
      a.assign shares codes = a.assign shares' codes := by
  induction codes with
  | nil => intro a _; rfl
  | cons code rest ih =>
    intro a h
    obtain ⟨hcode, hrest⟩ := List.forall_mem_cons.mp h
    rw [assign_cons, assign_cons, hcode, ih _ hrest]

theorem set_comm (a : Attributes) {code other : Code} (h : code ≠ other) (n m : Int) :
    (a.set code n).set other m = (a.set other m).set code n := by
  cases code <;> cases other <;> first | rfl | exact absurd rfl h

/-- Shares can be set in any order. -/
theorem assign_perm {codes codes' : List Code} (h : codes.Perm codes') (shares : Code → Int)
    (a : Attributes) : a.assign shares codes = a.assign shares codes' := by
  unfold assign
  apply h.foldl_eq'
  intro code _ other _ a
  by_cases hne : code = other
  · rw [hne]
  · exact a.set_comm hne ..

/-- Shares that are no more than the cap and no less than nothing, and come to a total. -/
structure Fair (cap total : Int) (codes : List Code) (shares : Code → Int) : Prop where
  nonneg : ∀ code ∈ codes, 0 ≤ shares code
  le_cap : ∀ code ∈ codes, shares code ≤ cap
  sum : (codes.map shares).sum = total

namespace Fair

variable {cap total : Int} {codes : List Code} {shares : Code → Int}

theorem perm (h : Fair cap total codes shares) {codes' : List Code} (hperm : codes.Perm codes') :
    Fair cap total codes' shares where
  nonneg code hcode := h.nonneg code (hperm.mem_iff.mpr hcode)
  le_cap code hcode := h.le_cap code (hperm.mem_iff.mpr hcode)
  sum := by rw [← (hperm.map shares).sum_eq, h.sum]

theorem cons_iff {code : Code} {rest : List Code} :
    Fair cap total (code :: rest) shares ↔
      0 ≤ shares code ∧ shares code ≤ cap ∧ Fair cap (total - shares code) rest shares := by
  constructor
  · rintro ⟨hnonneg, hcap, hsum⟩
    obtain ⟨hcode, hrest⟩ := List.forall_mem_cons.mp hnonneg
    obtain ⟨hcode', hrest'⟩ := List.forall_mem_cons.mp hcap
    rw [List.map_cons, List.sum_cons] at hsum
    exact ⟨hcode, hcode', hrest, hrest', by omega⟩
  · rintro ⟨hcode, hcode', hrest, hrest', hsum⟩
    refine ⟨List.forall_mem_cons.mpr ⟨hcode, hrest⟩, List.forall_mem_cons.mpr ⟨hcode', hrest'⟩, ?_⟩
    rw [List.map_cons, List.sum_cons]
    omega

theorem congr {shares' : Code → Int} (h : Fair cap total codes shares)
    (hsame : ∀ code ∈ codes, shares code = shares' code) : Fair cap total codes shares' where
  nonneg code hcode := hsame code hcode ▸ h.nonneg code hcode
  le_cap code hcode := hsame code hcode ▸ h.le_cap code hcode
  sum := by rw [← List.map_congr_left hsame, h.sum]

/-- Fair shares come to no less than nothing and to no more than the cap for each. -/
theorem total_bounds {codes : List Code} :
    ∀ {total : Int}, Fair cap total codes shares → 0 ≤ total ∧ total ≤ cap * codes.length := by
  induction codes with
  | nil =>
    intro total h
    have hsum := h.sum
    rw [List.map_nil, List.sum_nil] at hsum
    rw [List.length_nil]
    omega
  | cons code rest ih =>
    intro total h
    obtain ⟨hnonneg, hcap, hrest⟩ := cons_iff.mp h
    have hbounds := ih hrest
    rw [List.length_cons, Int.natCast_succ, Int.mul_add, Int.mul_one]
    omega

end Fair

/-! ## One share -/

variable {cap remaining : Int} {stillToCome : Nat}

/-- What can be dealt to some attributes under the cap. -/
def Dealable (cap remaining : Int) (count : Nat) : Prop := 0 ≤ remaining ∧ remaining ≤ cap * count

/-- A share between the bounds is one that leaves the others something that can be dealt. -/
theorem share_iff {share : Int} :
    leastShare cap remaining stillToCome ≤ share ∧ share ≤ greatestShare cap remaining ↔
      0 ≤ share ∧ share ≤ cap ∧ Dealable cap (remaining - share) stillToCome := by
  unfold Dealable leastShare greatestShare
  omega

theorem least_le_greatest (hcap : 0 ≤ cap) (h : Dealable cap remaining (stillToCome + 1)) :
    leastShare cap remaining stillToCome ≤ greatestShare cap remaining := by
  obtain ⟨hnonneg, hle⟩ := h
  have hothers : 0 ≤ cap * stillToCome := Int.mul_nonneg hcap (Int.natCast_nonneg _)
  rw [Int.natCast_succ, Int.mul_add, Int.mul_one] at hle
  unfold leastShare greatestShare
  omega

/-- The range of a share is not too wide for a draw. -/
theorem range_lt (hmax : cap ≤ maxInt32) :
    (greatestShare cap remaining - leastShare cap remaining stillToCome + 1).toNat < twoTo 32 := by
  unfold leastShare greatestShare
  unfold maxInt32 at hmax
  rw [twoTo_32]
  omega

theorem drawShare_mem (hcap : 0 ≤ cap) (hmax : cap ≤ maxInt32)
    (h : Dealable cap remaining (stillToCome + 1)) (c : Chance) :
    leastShare cap remaining stillToCome ≤ (drawShare cap remaining stillToCome c).1 ∧
      (drawShare cap remaining stillToCome c).1 ≤ greatestShare cap remaining := by
  have hle := least_le_greatest hcap h
  by_cases hone : leastShare cap remaining stillToCome ≥ greatestShare cap remaining
  · have hdraw : drawShare cap remaining stillToCome c = (greatestShare cap remaining, c) :=
      if_pos hone
    rw [hdraw]
    exact ⟨hle, Int.le_refl _⟩
  · have hdraw : drawShare cap remaining stillToCome c =
        c.between (leastShare cap remaining stillToCome) (greatestShare cap remaining) :=
      if_neg hone
    rw [hdraw]
    exact c.between_mem hle (range_lt hmax)

/-- Every share between the bounds can be drawn; if there is only one, no word is needed. -/
theorem exists_words_drawShare (hmax : cap ≤ maxInt32) {share : Int}
    (hleast : leastShare cap remaining stillToCome ≤ share)
    (hgreatest : share ≤ greatestShare cap remaining) :
    ∃ words, ∀ more seed,
      drawShare cap remaining stillToCome ⟨words ++ more, seed⟩ = (share, ⟨more, seed⟩) := by
  by_cases hone : leastShare cap remaining stillToCome ≥ greatestShare cap remaining
  · obtain rfl : share = greatestShare cap remaining := by omega
    refine ⟨[], fun more seed => ?_⟩
    rw [List.nil_append]
    exact if_pos hone
  · obtain ⟨word, hword⟩ := exists_word_between hleast hgreatest (range_lt hmax)
    exact ⟨[word], fun more seed => (if_neg hone).trans (hword more seed)⟩

/-! ## A deal -/

/-- A deal goes on with what is left after the first share. -/
theorem deal_cons_cons {code next : Code} {rest : List Code} {a : Attributes} {c c' : Chance}
    {share : Int} (hdraw : drawShare cap remaining (rest.length + 1) c = (share, c')) :
    deal cap remaining (code :: next :: rest) a c =
      deal cap (remaining - share) (next :: rest) (a.set code share) c' := by
  rw [deal, hdraw]

/-- Whatever is drawn, a deal sets shares that come to what there was. They are fair if that could be
dealt at all. -/
theorem exists_shares_deal (cap : Int) (codes : List Code) :
    ∀ (remaining : Int) (a : Attributes) (c : Chance), codes ≠ [] → codes.Nodup →
      ∃ shares, (deal cap remaining codes a c).1 = a.assign shares codes ∧
        (codes.map shares).sum = remaining ∧
        (0 ≤ cap → cap ≤ maxInt32 → Dealable cap remaining codes.length →
          Fair cap remaining codes shares) := by
  induction codes with
  | nil => intro remaining a c hne; exact absurd rfl hne
  | cons code rest ih =>
    intro remaining a c _ hnodup
    cases rest with
    | nil =>
      -- the last one takes what remains
      refine ⟨fun _ => remaining, rfl, by simp, fun _ _ hdealable => ?_⟩
      obtain ⟨hnonneg, hle⟩ := hdealable
      rw [List.length_singleton, Int.natCast_one, Int.mul_one] at hle
      exact ⟨by simpa using hnonneg, by simpa using hle, by simp⟩
    | cons next rest =>
      obtain ⟨hnew, hrest⟩ := List.nodup_cons.mp hnodup
      rcases hdraw : drawShare cap remaining (rest.length + 1) c with ⟨share, c'⟩
      obtain ⟨shares, hdeal, hsum, hfair⟩ :=
        ih (remaining - share) (a.set code share) c' (by simp) hrest
      -- the others have their shares, and this one has what was drawn
      have hsame : ∀ other ∈ next :: rest,
          shares other = if other = code then share else shares other := by
        intro other hother
        rw [if_neg]
        rintro rfl
        exact hnew hother
      refine ⟨fun other => if other = code then share else shares other, ?_, ?_, ?_⟩
      · rw [deal_cons_cons hdraw, assign_cons, if_pos rfl, ← assign_congr _ hsame]
        exact hdeal
      · rw [List.map_cons, List.sum_cons, if_pos rfl, ← List.map_congr_left hsame, hsum]
        omega
      · intro hcap hmax hdealable
        have hdealable : Dealable cap remaining (rest.length + 1 + 1) := hdealable
        have hmem := drawShare_mem hcap hmax hdealable c
        rw [hdraw] at hmem
        obtain ⟨hnonneg, hle, hothers⟩ := share_iff.mp hmem
        rw [Fair.cons_iff, if_pos rfl]
        exact ⟨hnonneg, hle, (hfair hcap hmax hothers).congr hsame⟩

/-- Whatever is drawn, a deal of what can be dealt sets fair shares. -/
theorem exists_fair_deal (hcap : 0 ≤ cap) (hmax : cap ≤ maxInt32) (codes : List Code)
    (remaining : Int) (a : Attributes) (c : Chance) (hne : codes ≠ []) (hnodup : codes.Nodup)
    (hdealable : Dealable cap remaining codes.length) :
    ∃ shares, (deal cap remaining codes a c).1 = a.assign shares codes ∧
      Fair cap remaining codes shares := by
  obtain ⟨shares, hdeal, -, hfair⟩ := exists_shares_deal cap codes remaining a c hne hnodup
  exact ⟨shares, hdeal, hfair hcap hmax hdealable⟩

/-- Fair shares are dealt for some words. -/
theorem exists_words_deal (hmax : cap ≤ maxInt32) {shares : Code → Int} (codes : List Code) :
    ∀ (remaining : Int) (a : Attributes), Fair cap remaining codes shares →
      ∃ words, ∀ more seed,
        deal cap remaining codes a ⟨words ++ more, seed⟩ =
          (a.assign shares codes, ⟨more, seed⟩) := by
  induction codes with
  | nil => intro remaining a _; exact ⟨[], fun more seed => rfl⟩
  | cons code rest ih =>
    intro remaining a hfair
    obtain ⟨hnonneg, hle, hrest⟩ := Fair.cons_iff.mp hfair
    cases rest with
    | nil =>
      obtain rfl : shares code = remaining := by simpa using hfair.sum
      exact ⟨[], fun more seed => rfl⟩
    | cons next rest =>
      have hothers : Dealable cap (remaining - shares code) (rest.length + 1) := hrest.total_bounds
      obtain ⟨hleast, hgreatest⟩ := share_iff.mpr ⟨hnonneg, hle, hothers⟩
      obtain ⟨words, hwords⟩ := exists_words_drawShare hmax hleast hgreatest
      obtain ⟨words', hwords'⟩ := ih (remaining - shares code) (a.set code (shares code)) hrest
      refine ⟨words ++ words', fun more seed => ?_⟩
      rw [List.append_assoc, deal_cons_cons (hwords _ _), hwords']
      rfl

end Attributes

end LifePath
