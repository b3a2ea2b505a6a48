/-!
# Cutting a text at a mark

`cutFirst` and `cutLast` divide a text at the first and at the last place where a mark stands; the
mark itself belongs to neither part. `cutFirst_eq_some_iff` and `cutLast_eq_some_iff` say what the
cut is.
-/

namespace LifePath.Text

/-- The texts before and after the first mark, if the mark occurs. -/
def cutFirst (mark : Char) : List Char → Option (List Char × List Char)
  | [] => none
  | c :: rest =>
    if c = mark then some ([], rest) else (cutFirst mark rest).map fun p => (c :: p.1, p.2)

/-- The texts before and after the last mark, if the mark occurs. -/
def cutLast (mark : Char) (s : List Char) : Option (List Char × List Char) :=
  (cutFirst mark s.reverse).map fun p => (p.2.reverse, p.1.reverse)

/-- The first mark is where the text before it has none. -/
theorem cutFirst_eq_some_iff {mark : Char} {s before after : List Char} :
    cutFirst mark s = some (before, after) ↔ s = before ++ mark :: after ∧ mark ∉ before := by
  induction s generalizing before with
  | nil => simp [cutFirst]
  | cons c rest ih =>
    by_cases h : c = mark
    · subst h
      cases before with
      | nil => simp [cutFirst, eq_comm]
      | cons b bs => simp +contextual [cutFirst]
    · cases before with
      | nil => simp [cutFirst, h]
      | cons b bs => simp [cutFirst, h, ih]; grind

/-- There is no cut exactly when there is no mark. -/
theorem cutFirst_eq_none_iff {mark : Char} {s : List Char} :
    cutFirst mark s = none ↔ mark ∉ s := by
  induction s with
  | nil => simp [cutFirst]
  | cons c rest ih =>
    by_cases h : c = mark
    · simp [cutFirst, h]
    · simp [cutFirst, h, ih, Ne.symm h]

/-- The last mark is where the text after it has none. -/
theorem cutLast_eq_some_iff {mark : Char} {s before after : List Char} :
    cutLast mark s = some (before, after) ↔ s = before ++ mark :: after ∧ mark ∉ after := by
  have hreversed : s.reverse = after.reverse ++ mark :: before.reverse ↔
      s = before ++ mark :: after := by
    rw [List.reverse_eq_iff]
    simp
  rw [cutLast, Option.map_eq_some_iff]
  constructor
  · rintro ⟨p, hcut, hp⟩
    obtain ⟨hbefore, hafter⟩ := Prod.mk.inj hp
    rw [← hbefore, ← hafter]
    obtain ⟨hsplit, hnone⟩ := cutFirst_eq_some_iff.mp hcut
    refine ⟨?_, by simpa using hnone⟩
    rw [← List.reverse_reverse s, hsplit]
    simp
  · rintro ⟨hsplit, hnone⟩
    refine ⟨(after.reverse, before.reverse), cutFirst_eq_some_iff.mpr ?_, by simp⟩
    exact ⟨hreversed.mpr hsplit, by simpa using hnone⟩

theorem cutLast_eq_none_iff {mark : Char} {s : List Char} :
    cutLast mark s = none ↔ mark ∉ s := by
  rw [cutLast, Option.map_eq_none_iff, cutFirst_eq_none_iff, List.mem_reverse]

end LifePath.Text
