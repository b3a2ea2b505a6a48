import LifePath.Chance.Weighted

/-!
# What a weighted draw can give

Whatever the weights are and however their sums are rounded, a draw from some items gives one of
them and takes one word; a draw from nothing gives nothing and takes none.
-/

namespace LifePath.Chance

section

variable {α β : Type} [OfNat α 0] [Add α] [Sub α] [Mul α] [LT α] [DecidableLT α]

omit [Add α] [Mul α] in
theorem pickAt?_mem {items : List (β × α)} {point : α} {item : β}
    (h : pickAt? items point = some item) : item ∈ items.map Prod.fst := by
  induction items generalizing point with
  | nil => simp [pickAt?] at h
  | cons i rest ih =>
    obtain ⟨first, weight⟩ := i
    rw [pickAt?] at h
    split at h
    · obtain rfl := Option.some.inj h
      exact List.mem_cons_self ..
    · exact List.mem_cons_of_mem _ (ih h)

/-- If rounding carries the point past all items, the last one is taken, so one is taken always. -/
theorem pickWeighted?_mem {items : List (β × α)} (hne : items ≠ []) (fraction : α) :
    ∃ item ∈ items.map Prod.fst, pickWeighted? items fraction = some item := by
  unfold pickWeighted?
  cases hpick : pickAt? items (fraction * totalWeight items) with
  | some item => exact ⟨item, pickAt?_mem hpick, rfl⟩
  | none =>
    obtain ⟨last, hlast⟩ := Option.ne_none_iff_exists'.mp (mt List.getLast?_eq_none_iff.mp hne)
    refine ⟨last.1, List.mem_map_of_mem (List.mem_of_getLast? hlast), ?_⟩
    rw [hlast]
    rfl

end

theorem weighted?_nil {β : Type} (c : Chance) :
    weighted? ([] : List (β × Float)) c = (none, c) := rfl

theorem weighted?_of_ne_nil {β : Type} {items : List (β × Float)} (hne : items ≠ []) (c : Chance) :
    ∃ item ∈ items.map Prod.fst, weighted? items c = (some item, c.fraction.2) := by
  obtain ⟨item, hmem, hpick⟩ := pickWeighted?_mem hne c.fraction.1
  refine ⟨item, hmem, ?_⟩
  cases items with
  | nil => exact absurd rfl hne
  | cons i rest =>
    rw [← hpick]
    rfl

end LifePath.Chance
