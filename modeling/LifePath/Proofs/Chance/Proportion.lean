import LifePath.Proofs.Chance.Weighted
import Mathlib.Algebra.Order.BigOperators.Group.List
import Mathlib.Order.Interval.Set.Defs
import Mathlib.Tactic.Linarith
import Mathlib.Tactic.NormNum

/-!
# A weighted draw is proportional

Over exact numbers the items lie one after the other on a line: each begins where the weights in
front of it end (`startOf`), and a point that is not beyond all of them belongs to one item
(`exists_covers`). `pickAt?` only keeps what is left of the point when the weights in front have
been taken away; it finds that item whatever the weights are (`pickAt?_of_covers`), since an item
of weight zero covers no point.

Two items may be the same, so what is drawn says less than where it stood. `placed` puts the places
in for the items, and a draw from those draws the place.
-/

namespace LifePath.Chance

variable {β : Type}

/-- Where an item begins: the sum of the weights in front of it. -/
def startOf (items : List (β × ℚ)) (place : Nat) : ℚ := ((items.take place).map (·.2)).sum

/-- Whether a point lies in the stretch of the item at a place. -/
def Covers (items : List (β × ℚ)) (place : Nat) (point : ℚ) : Prop :=
  startOf items place ≤ point ∧ point < startOf items (place + 1)

/-- The items with their places put in for them. -/
def placed (items : List (β × ℚ)) : List (Nat × ℚ) := items.mapIdx fun i item => (i, item.2)

/-! ## Stretches -/

@[simp] theorem startOf_zero (items : List (β × ℚ)) : startOf items 0 = 0 := by simp [startOf]

@[simp] theorem startOf_cons_succ (item : β × ℚ) (rest : List (β × ℚ)) (place : Nat) :
    startOf (item :: rest) (place + 1) = item.2 + startOf rest place := by
  simp [startOf]

theorem startOf_length (items : List (β × ℚ)) :
    startOf items items.length = (items.map (·.2)).sum := by
  simp [startOf]

/-- An item ends where its weight is over. -/
theorem startOf_succ {items : List (β × ℚ)} {place : Nat} (h : place < items.length) :
    startOf items (place + 1) = startOf items place + items[place].2 := by
  rw [startOf, startOf, List.map_take, List.map_take, List.sum_take_succ _ _ (by simpa using h),
    List.getElem_map]

theorem startOf_mono {items : List (β × ℚ)} (hweights : ∀ item ∈ items, 0 ≤ item.2) {i j : Nat}
    (h : i ≤ j) : startOf items i ≤ startOf items j := by
  induction items generalizing i j with
  | nil => simp [startOf]
  | cons item rest ih =>
    obtain ⟨hitem, hrest⟩ := List.forall_mem_cons.mp hweights
    cases j with
    | zero =>
      obtain rfl : i = 0 := by omega
      exact le_refl _
    | succ j =>
      have hfirst := ih hrest (Nat.zero_le j)
      rw [startOf_zero] at hfirst
      cases i with
      | zero =>
        rw [startOf_zero, startOf_cons_succ]
        exact add_nonneg hitem hfirst
      | succ i =>
        rw [startOf_cons_succ, startOf_cons_succ]
        have hlater := ih hrest (show i ≤ j by omega)
        linarith

/-- Stretches do not overlap. -/
theorem Covers.unique {items : List (β × ℚ)} (hweights : ∀ item ∈ items, 0 ≤ item.2) {i j : Nat}
    {point : ℚ} (hi : Covers items i point) (hj : Covers items j point) : i = j := by
  have hle : ∀ {i j : Nat}, Covers items i point → Covers items j point → i ≤ j := by
    intro i j hi hj
    by_contra hlt
    have hmono := startOf_mono hweights (show j + 1 ≤ i by omega)
    exact absurd (lt_of_lt_of_le hj.2 (hmono.trans hi.1)) (lt_irrefl point)
  exact Nat.le_antisymm (hle hi hj) (hle hj hi)

/-- Nothing is left out between the stretches. -/
theorem exists_covers {items : List (β × ℚ)} {point : ℚ} (hlow : 0 ≤ point)
    (hhigh : point < (items.map (·.2)).sum) : ∃ i < items.length, Covers items i point := by
  induction items generalizing point with
  | nil =>
    simp only [List.map_nil, List.sum_nil] at hhigh
    linarith
  | cons item rest ih =>
    rw [List.map_cons, List.sum_cons] at hhigh
    by_cases hfirst : point < item.2
    · refine ⟨0, by simp, ?_⟩
      simp only [Covers, startOf_zero, startOf_cons_succ, add_zero]
      exact ⟨hlow, hfirst⟩
    · -- what is left of the point is looked for among the items that are left
      have hleft : 0 ≤ point - item.2 := by linarith
      obtain ⟨i, hi, hstart, hend⟩ := ih hleft (by linarith)
      refine ⟨i + 1, by simpa using hi, ?_⟩
      simp only [Covers, startOf_cons_succ]
      exact ⟨by linarith, by linarith⟩

theorem exists_covers_fraction {items : List (β × ℚ)} {fraction : ℚ} (hlow : 0 ≤ fraction)
    (hhigh : fraction < 1) (htotal : 0 < (items.map (·.2)).sum) :
    ∃ i < items.length, Covers items i (fraction * (items.map (·.2)).sum) :=
  exists_covers (mul_nonneg hlow htotal.le) (mul_lt_of_lt_one_left htotal hhigh)

/-! ## The search -/

/-- The search stops at the item that covers the point: in front of it, what is left of the point
does not turn negative, and behind it, it has. -/
theorem pickAt?_of_covers {items : List (β × ℚ)} (hweights : ∀ item ∈ items, 0 ≤ item.2) {i : Nat}
    (hi : i < items.length) {point : ℚ} (h : Covers items i point) :
    pickAt? items point = some items[i].1 := by
  induction items generalizing i point with
  | nil => simp at hi
  | cons item rest ih =>
    obtain ⟨label, weight⟩ := item
    obtain ⟨hitem, hrest⟩ := List.forall_mem_cons.mp hweights
    rw [pickAt?]
    cases i with
    | zero =>
      have hend : point < weight := by simpa [Covers] using h.2
      rw [if_pos (by linarith)]
      rfl
    | succ i =>
      simp only [Covers, startOf_cons_succ] at h
      have hfirst := startOf_mono hrest (Nat.zero_le i)
      rw [startOf_zero] at hfirst
      rw [if_neg (by linarith [h.1])]
      exact ih hrest (by simpa using hi) ⟨by linarith [h.1], by linarith [h.2]⟩

theorem totalWeight_eq_sum (items : List (β × ℚ)) :
    totalWeight items = (items.map (·.2)).sum := by
  rw [totalWeight, List.sum_eq_foldl, List.foldl_map]

/-- A draw finds the item that covers its point; the last item is not needed in its place. -/
theorem pickWeighted?_of_covers {items : List (β × ℚ)} (hweights : ∀ item ∈ items, 0 ≤ item.2)
    {i : Nat} (hi : i < items.length) {fraction : ℚ}
    (h : Covers items i (fraction * (items.map (·.2)).sum)) :
    pickWeighted? items fraction = some items[i].1 := by
  rw [pickWeighted?, totalWeight_eq_sum, pickAt?_of_covers hweights hi h]
  rfl

/-! ## Places -/

@[simp] theorem placed_length (items : List (β × ℚ)) : (placed items).length = items.length := by
  simp [placed]

@[simp] theorem placed_weights (items : List (β × ℚ)) :
    (placed items).map (·.2) = items.map (·.2) := by
  apply List.ext_getElem
  · simp
  · intro i hi hi'
    simp [placed]

theorem covers_placed {items : List (β × ℚ)} {i : Nat} {point : ℚ} :
    Covers (placed items) i point ↔ Covers items i point := by
  simp only [Covers, startOf, List.map_take, placed_weights]

theorem placed_weights_nonneg {items : List (β × ℚ)} (hweights : ∀ item ∈ items, 0 ≤ item.2) :
    ∀ item ∈ placed items, 0 ≤ item.2 := by
  have hvalues : ∀ weight ∈ items.map (·.2), 0 ≤ weight := List.forall_mem_map.mpr hweights
  rw [← placed_weights] at hvalues
  exact List.forall_mem_map.mp hvalues

/-- A draw from the places gives a place exactly if the item there covers the point. -/
theorem pickWeighted?_placed_iff {items : List (β × ℚ)} (hweights : ∀ item ∈ items, 0 ≤ item.2)
    {i : Nat} (hi : i < items.length) {fraction : ℚ} (hlow : 0 ≤ fraction) (hhigh : fraction < 1)
    (htotal : 0 < (items.map (·.2)).sum) :
    pickWeighted? (placed items) fraction = some i ↔
      Covers items i (fraction * (items.map (·.2)).sum) := by
  have hplace : ∀ {j : Nat}, j < items.length →
      Covers items j (fraction * (items.map (·.2)).sum) →
      pickWeighted? (placed items) fraction = some j := by
    intro j hj hcovers
    have hdrawn := pickWeighted?_of_covers (placed_weights_nonneg hweights)
      (show j < (placed items).length by simpa using hj)
      (by rw [placed_weights]; exact covers_placed.mpr hcovers)
    rw [hdrawn]
    simp [placed]
  refine ⟨fun hdrawn => ?_, hplace hi⟩
  obtain ⟨j, hj, hcovers⟩ := exists_covers_fraction hlow hhigh htotal
  obtain rfl : j = i := Option.some.inj ((hplace hj hcovers).symm.trans hdrawn)
  exact hcovers

/-! ## Main statement -/

/-- **The weighted draw is proportional.** If no weight is negative and their sum is positive, then
over exact numbers:

* for every fraction there is one place whose stretch covers that part of the whole; the item there
  is drawn, and found by the search itself, so that the last item never has to stand in;
* the fractions for which a place is drawn are those from its start to its end, as parts of the
  whole, the end excluded; together they are as long as its part of the weight, and there are none
  if its weight is zero. -/
theorem weighted_draw_is_proportional {items : List (β × ℚ)} {total : ℚ}
    (hweights : ∀ item ∈ items, 0 ≤ item.2) (hsum : (items.map (·.2)).sum = total)
    (htotal : 0 < total) :
    (∀ u, 0 ≤ u → u < 1 → ∃ i, ∃ hi : i < items.length,
      (∀ j < items.length,
        startOf items j ≤ u * total ∧ u * total < startOf items (j + 1) ↔ j = i) ∧
      pickWeighted? items u = some items[i].1 ∧ pickWeighted? (placed items) u = some i ∧
      pickAt? items (u * totalWeight items) = some items[i].1) ∧
    ∀ i, ∀ hi : i < items.length,
      {u | 0 ≤ u ∧ u < 1 ∧ pickWeighted? (placed items) u = some i} =
        Set.Ico (startOf items i / total) (startOf items (i + 1) / total) ∧
      startOf items (i + 1) / total - startOf items i / total = items[i].2 / total ∧
      (items[i].2 = 0 → ∀ u, 0 ≤ u → u < 1 → pickWeighted? (placed items) u ≠ some i) := by
  subst hsum
  refine ⟨fun u hlow hhigh => ?_, fun i hi => ⟨?_, ?_, ?_⟩⟩
  · obtain ⟨i, hi, hcovers⟩ := exists_covers_fraction hlow hhigh htotal
    refine ⟨i, hi, fun j _ => ⟨fun hj => Covers.unique hweights hj hcovers, ?_⟩,
      pickWeighted?_of_covers hweights hi hcovers,
      (pickWeighted?_placed_iff hweights hi hlow hhigh htotal).mpr hcovers, ?_⟩
    · rintro rfl
      exact hcovers
    · rw [totalWeight_eq_sum]
      exact pickAt?_of_covers hweights hi hcovers
  · -- the whole stretch lies in the line, so every point of it comes from a fraction
    have hstart := startOf_mono hweights (Nat.zero_le i)
    have hend := startOf_mono hweights (show i + 1 ≤ items.length by omega)
    rw [startOf_zero] at hstart
    rw [startOf_length] at hend
    ext u
    simp only [Set.mem_ofPred_eq, Set.mem_Ico]
    rw [div_le_iff₀ htotal, lt_div_iff₀ htotal]
    constructor
    · rintro ⟨hlow, hhigh, hdrawn⟩
      exact (pickWeighted?_placed_iff hweights hi hlow hhigh htotal).mp hdrawn
    · intro hcovers
      have hlow : 0 ≤ u := nonneg_of_mul_nonneg_left (hstart.trans hcovers.1) htotal
      have hhigh : u < 1 := by
        by_contra hge
        have hmul := mul_le_mul_of_nonneg_right (not_lt.mp hge) htotal.le
        linarith [hcovers.2]
      exact ⟨hlow, hhigh, (pickWeighted?_placed_iff hweights hi hlow hhigh htotal).mpr hcovers⟩
  · rw [startOf_succ hi, ← sub_div, add_sub_cancel_left]
  · intro hzero u hlow hhigh hdrawn
    have hcovers := (pickWeighted?_placed_iff hweights hi hlow hhigh htotal).mp hdrawn
    rw [Covers, startOf_succ hi, hzero, add_zero] at hcovers
    exact absurd hcovers.2 (not_lt.mpr hcovers.1)

/-- Two items of weight zero, and a fraction at which one item ends and another begins: a quarter of
the whole is where `b` ends, and it belongs to `d`. -/
theorem weighted_draw_is_proportional_boundary :
    pickWeighted? [("a", 0), ("b", 1), ("c", 0), ("d", 3)] (1 / 4 : ℚ) = some "d" ∧
      {u : ℚ | 0 ≤ u ∧ u < 1 ∧
        pickWeighted? (placed [("a", 0), ("b", 1), ("c", 0), ("d", 3)]) u = some 3} =
          Set.Ico (1 / 4) 1 := by
  have hweights : ∀ item ∈ ([("a", 0), ("b", 1), ("c", 0), ("d", 3)] : List (String × ℚ)),
      0 ≤ item.2 := by simp
  have hsum : (([("a", 0), ("b", 1), ("c", 0), ("d", 3)] : List (String × ℚ)).map
      (·.2)).sum = 4 := by norm_num
  obtain ⟨hdraws, hstretches⟩ := weighted_draw_is_proportional hweights hsum (by norm_num)
  obtain ⟨i, hi, hplace, hdrawn, -, -⟩ := hdraws (1 / 4) (by norm_num) (by norm_num)
  refine ⟨?_, ?_⟩
  · obtain rfl := (hplace 3 (by simp)).mp (by norm_num [startOf])
    exact hdrawn
  · have hstretch := (hstretches 3 (by simp)).1
    norm_num [startOf] at hstretch
    simpa using hstretch

end LifePath.Chance
