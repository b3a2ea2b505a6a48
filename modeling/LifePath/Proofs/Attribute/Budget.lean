import LifePath.Proofs.Attribute.Agreement

/-!
# Random attributes spend the budget

The last attribute of a deal takes what the others left, with no look at the cap. So the budget is
spent whatever the settings are (`random_eq_assign`); that the last share keeps to the cap rests on
the shares before it, and on settings that are fit for use.
-/

namespace LifePath.Attributes

open LifePath.Decimal

/-- At random, the five attributes are set to shares that come to the budget. -/
theorem random_eq_assign (s : Settings) (c : Chance) :
    ∃ shares, (random s c).1 = (ofLife s.initialLife).assign shares Code.allocatable ∧
      (Code.allocatable.map shares).sum = s.budget := by
  have hperm := c.shuffle_perm Code.allocatable
  have hnodup : (c.shuffle Code.allocatable).1.Nodup := hperm.nodup_iff.mpr (by decide)
  have hne : (c.shuffle Code.allocatable).1 ≠ [] :=
    List.ne_nil_of_length_eq_add_one hperm.length_eq
  obtain ⟨shares, hdeal, hsum, -⟩ := exists_shares_deal s.cap _ s.budget
    (ofLife s.initialLife) (c.shuffle Code.allocatable).2 hne hnodup
  rw [assign_perm hperm] at hdeal
  exact ⟨shares, hdeal, by rw [← (hperm.map shares).sum_eq, hsum]⟩

/-- Where no share is below zero, none is above the total. -/
theorem share_le_total {a : Attributes} (h : ∀ n ∈ a.shares, 0 ≤ n) :
    ∀ n ∈ a.shares, n ≤ a.allocatedTotal := by
  intro n hn
  rw [allocatedTotal_eq_sum]
  exact List.single_le_sum h n hn

/-- **Random attributes spend the budget and keep to the cap.** Whatever the settings are and
whatever is drawn, the five numbers come to the budget exactly, life is what the settings say, and
nothing has happened. If the settings are fit for use and the cap is a 32-bit integer, each of the
five, the last included, is from zero up to the cap and to the budget. -/
theorem random_spends_budget (s : Settings) (c : Chance) :
    let a := (random s c).1
    a.allocatedTotal = s.budget ∧ a.lif = s.initialLife ∧ a.history = [] ∧
      (s.fault? = none → s.cap ≤ maxInt32 →
        ∀ n ∈ a.shares, 0 ≤ n ∧ n ≤ min s.cap s.budget) := by
  intro a
  obtain ⟨shares, ha, hsum⟩ := random_eq_assign s c
  have htotal : a.allocatedTotal = s.budget := by
    show (random s c).1.allocatedTotal = s.budget
    rw [ha, allocatedTotal_eq_sum, ← hsum]
    rfl
  have hlife : a.lif = s.initialLife := by
    show (random s c).1.lif = s.initialLife
    rw [ha]
    rfl
  have hhistory : a.history = [] := by
    show (random s c).1.history = []
    rw [ha]
    rfl
  refine ⟨htotal, hlife, hhistory, fun hs hmax n hn => ?_⟩
  have hlegal := (random_legal hs hmax c).1
  have hle := share_le_total (fun m hm => (hlegal.shares m hm).1) n hn
  obtain ⟨hnonneg, hcap⟩ := hlegal.shares n hn
  rw [htotal] at hle
  exact ⟨hnonneg, Int.le_min.mpr ⟨hcap, hle⟩⟩

/-- A budget of five times the cap leaves no choice: no share is drawn, and the last attribute gets
what the others got. -/
theorem random_spends_budget_noChoice :
    let s := { Settings.standard with budget := 25, cap := 5 }
    s.fault? = none ∧ s.cap ≤ maxInt32 ∧ ∀ c, (random s c).1 = ⟨5, 5, 5, 5, 5, 1, []⟩ := by
  intro s
  have hs : s.fault? = none := rfl
  have hmax : s.cap ≤ maxInt32 := by decide
  refine ⟨hs, hmax, fun c => ?_⟩
  obtain ⟨htotal, hlif, hhistory, hshares⟩ := random_spends_budget s c
  have hle : ∀ n ∈ (random s c).1.shares, n ≤ 5 := fun n hn => (hshares hs hmax n hn).2
  generalize (random s c).1 = a at htotal hlif hhistory hle
  obtain ⟨chr, int, str, mny, spr, lif, history⟩ := a
  have hshares : ∀ n ∈ [chr, int, str, mny, spr], n ≤ 5 := hle
  have htotal : chr + int + str + mny + spr = 25 := htotal
  obtain rfl : lif = 1 := hlif
  obtain rfl : history = [] := hhistory
  simp only [List.forall_mem_cons] at hshares
  obtain ⟨hchr, hint, hstr, hmny, hspr, -⟩ := hshares
  obtain ⟨rfl, rfl, rfl, rfl, rfl⟩ : chr = 5 ∧ int = 5 ∧ str = 5 ∧ mny = 5 ∧ spr = 5 := by omega
  rfl

end LifePath.Attributes
