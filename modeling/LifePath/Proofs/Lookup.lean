/-!
# Looking up in lists

Where no key occurs twice, looking a key up finds exactly the entry that has it, in whatever order
the entries stand. Among the entries that pass a test it finds the same entry or, if that one fails
the test, none.

Going through a list from its beginning ends at its end or at a first element that is not as those
before it (`forall_or_first_not`).
-/

namespace LifePath

/-- Either all the elements of a list have a property, or there is a first that has not. -/
theorem forall_or_first_not {α : Type} (p : α → Prop) (xs : List α) :
    (∀ x ∈ xs, p x) ∨
      ∃ before x after, xs = before ++ x :: after ∧ (∀ y ∈ before, p y) ∧ ¬ p x := by
  classical
  cases h : xs.find? fun x => !decide (p x) with
  | none => exact .inl (by simpa using h)
  | some x =>
    obtain ⟨hx, before, after, hsplit, hbefore⟩ := List.find?_eq_some_iff_append.mp h
    exact .inr ⟨before, x, after, hsplit, by simpa using hbefore, by simpa using hx⟩

section

variable {κ β : Type} [BEq κ] [LawfulBEq κ] {entries : List (κ × β)}

theorem mem_of_lookup {key : κ} {value : β} (h : entries.lookup key = some value) :
    (key, value) ∈ entries := by
  obtain ⟨before, after, rfl, -⟩ := List.lookup_eq_some_iff.mp h
  exact List.mem_append_right _ (List.mem_cons_self ..)

theorem lookup_of_mem (hdistinct : (entries.map Prod.fst).Nodup) {key : κ} {value : β}
    (h : (key, value) ∈ entries) : entries.lookup key = some value := by
  induction entries with
  | nil => cases h
  | cons entry rest ih =>
    obtain ⟨first, other⟩ := entry
    rw [List.map_cons, List.nodup_cons] at hdistinct
    obtain ⟨hnew, hrest⟩ := hdistinct
    rcases List.mem_cons.mp h with heq | hmem
    · obtain ⟨rfl, rfl⟩ := Prod.mk.inj heq
      exact List.lookup_cons_self
    · have hne : (key == first) = false := by
        rw [beq_eq_false_iff_ne]
        rintro rfl
        exact hnew (List.mem_map.mpr ⟨(key, value), hmem, rfl⟩)
      rw [List.lookup_cons, hne]
      exact ih hrest hmem

/-- The order of entries with different keys does not matter. -/
theorem lookup_perm {others : List (κ × β)} (hperm : entries.Perm others)
    (hdistinct : (entries.map Prod.fst).Nodup) (key : κ) :
    entries.lookup key = others.lookup key := by
  have hothers : (others.map Prod.fst).Nodup := (hperm.map Prod.fst).nodup_iff.mp hdistinct
  apply Option.ext
  intro value
  constructor
  · intro h
    exact lookup_of_mem hothers (hperm.mem_iff.mp (mem_of_lookup h))
  · intro h
    exact lookup_of_mem hdistinct (hperm.mem_iff.mpr (mem_of_lookup h))

theorem lookup_filter (hdistinct : (entries.map Prod.fst).Nodup) (test : κ × β → Bool) (key : κ) :
    (entries.filter test).lookup key =
      (entries.lookup key).filter fun value => test (key, value) := by
  have hkept : ((entries.filter test).map Prod.fst).Nodup :=
    hdistinct.sublist (List.filter_sublist.map Prod.fst)
  apply Option.ext
  intro value
  rw [Option.filter_eq_some_iff]
  constructor
  · intro h
    obtain ⟨hmem, htest⟩ := List.mem_filter.mp (mem_of_lookup h)
    exact ⟨lookup_of_mem hdistinct hmem, htest⟩
  · rintro ⟨h, htest⟩
    exact lookup_of_mem hkept (List.mem_filter.mpr ⟨mem_of_lookup h, htest⟩)

end

end LifePath
