import LifePath.Text.Class
import Mathlib.Data.List.TakeWhile

/-!
# What trimming leaves

Blanks that are put around a text which neither begins nor ends with one are exactly what trimming
takes off again (`trim_padded`), and every text is what trimming leaves of it with blanks around
(`exists_padding`). No visible ASCII character is a blank.

A run of characters that pass a test ends where one comes that does not (`run_append`).
-/

namespace LifePath.Text

/-- A text that trimming leaves as it is, and that is there: it neither begins nor ends with a
blank. -/
structure Trimmed (s : List Char) : Prop where
  ne_nil : s ≠ []
  head : ∀ c ∈ s.head?, isBlank c = false
  last : ∀ c ∈ s.getLast?, isBlank c = false

theorem isBlank_eq_false_of_visible {c : Char} (hlow : 33 ≤ c.toNat) (hhigh : c.toNat ≤ 126) :
    isBlank c = false := by
  cases h : isBlank c with
  | false => rfl
  | true =>
    obtain ⟨r, hr, hlow', hhigh'⟩ := Ranges.holds_eq_true_iff.mp h
    simp only [blankRanges, List.mem_cons, List.not_mem_nil, or_false] at hr
    rcases hr with rfl | rfl | rfl | rfl | rfl | rfl | rfl | rfl | rfl | rfl <;> simp at * <;> omega

theorem isBlank_of_isDigit {c : Char} (h : c.isDigit = true) : isBlank c = false := by
  simp only [Char.isDigit, Bool.and_eq_true, decide_eq_true_eq] at h
  have hlow : 48 ≤ c.toNat := UInt32.le_iff_toNat_le.mp h.1
  have hhigh : c.toNat ≤ 57 := UInt32.le_iff_toNat_le.mp h.2
  exact isBlank_eq_false_of_visible (by omega) (by omega)

theorem trimLeft_append {left s : List Char} (hleft : ∀ c ∈ left, isBlank c = true) :
    trimLeft (left ++ s) = trimLeft s := List.dropWhile_append_of_pos hleft

theorem trimRight_append {right s : List Char} (hright : ∀ c ∈ right, isBlank c = true) :
    trimRight (s ++ right) = trimRight s := by
  rw [trimRight, List.reverse_append, List.dropWhile_append_of_pos (by simpa using hright)]
  rfl

theorem trimLeft_of_head {s : List Char} (h : ∀ c ∈ s.head?, isBlank c = false) :
    trimLeft s = s := by
  cases s with
  | nil => rfl
  | cons c rest => exact List.dropWhile_cons_of_neg (by simp [h c rfl])

theorem trimRight_of_last {s : List Char} (h : ∀ c ∈ s.getLast?, isBlank c = false) :
    trimRight s = s := by
  have hhead : trimLeft s.reverse = s.reverse := trimLeft_of_head (by simpa using h)
  rw [trimRight]
  show (trimLeft s.reverse).reverse = s
  rw [hhead, List.reverse_reverse]

/-- Nothing is left of blanks. -/
theorem trim_of_blank {s : List Char} (h : ∀ c ∈ s, isBlank c = true) : trim s = [] := by
  have hleft : trimLeft (s ++ []) = trimLeft [] := trimLeft_append h
  rw [List.append_nil] at hleft
  rw [trim, hleft]
  rfl

/-- Blanks put around a trimmed text come off again. -/
theorem trim_padded {left s right : List Char} (hs : Trimmed s)
    (hleft : ∀ c ∈ left, isBlank c = true) (hright : ∀ c ∈ right, isBlank c = true) :
    trim (left ++ s ++ right) = s := by
  have hhead : ∀ c ∈ (s ++ right).head?, isBlank c = false := by
    obtain ⟨c, rest, rfl⟩ := List.exists_cons_of_ne_nil hs.ne_nil
    exact hs.head
  rw [trim, List.append_assoc, trimLeft_append hleft, trimLeft_of_head hhead,
    trimRight_append hright, trimRight_of_last hs.last]

theorem trimmed_of_forall {s : List Char} (hne : s ≠ []) (h : ∀ c ∈ s, isBlank c = false) :
    Trimmed s :=
  ⟨hne, fun c hc => h c (List.mem_of_mem_head? hc), fun c hc => h c (List.mem_of_mem_getLast? hc)⟩

theorem Trimmed.trim_eq {s : List Char} (hs : Trimmed s) : trim s = s := by
  simpa using @trim_padded [] s [] hs (by simp) (by simp)

/-! ## What is taken off -/

theorem exists_left_padding (s : List Char) :
    ∃ left, s = left ++ trimLeft s ∧ ∀ c ∈ left, isBlank c = true :=
  ⟨s.takeWhile isBlank, List.takeWhile_append_dropWhile.symm,
    fun _ hc => List.mem_takeWhile_imp hc⟩

theorem exists_right_padding (s : List Char) :
    ∃ right, s = trimRight s ++ right ∧ ∀ c ∈ right, isBlank c = true := by
  obtain ⟨left, hsplit, hleft⟩ := exists_left_padding s.reverse
  refine ⟨left.reverse, ?_, by simpa using hleft⟩
  rw [trimRight, ← List.reverse_append]
  show s = (left ++ trimLeft s.reverse).reverse
  rw [← hsplit, List.reverse_reverse]

/-- Trimming takes nothing but blanks off. -/
theorem exists_padding (s : List Char) :
    ∃ left right, s = left ++ trim s ++ right ∧ (∀ c ∈ left, isBlank c = true) ∧
      ∀ c ∈ right, isBlank c = true := by
  obtain ⟨left, hsplit, hleft⟩ := exists_left_padding s
  obtain ⟨right, hsplit', hright⟩ := exists_right_padding (trimLeft s)
  refine ⟨left, right, ?_, hleft, hright⟩
  rw [trim, List.append_assoc, ← hsplit', ← hsplit]

theorem trim_eq_nil_iff {s : List Char} : trim s = [] ↔ ∀ c ∈ s, isBlank c = true := by
  constructor
  · intro htrim
    obtain ⟨left, right, hsplit, hleft, hright⟩ := exists_padding s
    rw [htrim, List.append_nil] at hsplit
    rw [hsplit]
    exact fun c hc => (List.mem_append.mp hc).elim (hleft c) (hright c)
  · exact trim_of_blank

theorem head?_trimLeft (s : List Char) : ∀ c ∈ (trimLeft s).head?, isBlank c = false := by
  intro c hc
  have hhead := List.head?_dropWhile_not isBlank s
  rw [show (s.dropWhile isBlank).head? = some c from hc] at hhead
  simpa using hhead

/-- What trimming leaves, if it leaves anything, is trimmed. -/
theorem trimmed_trim {s : List Char} (h : trim s ≠ []) : Trimmed (trim s) where
  ne_nil := h
  head := by
    obtain ⟨right, hsplit, -⟩ := exists_right_padding (trimLeft s)
    intro c hc
    refine head?_trimLeft s c ?_
    have hfirst : (trimRight (trimLeft s)).head? = some c := hc
    rw [hsplit, List.head?_append, hfirst]
    rfl
  last := by
    intro c hc
    rw [trim, trimRight, List.getLast?_reverse] at hc
    exact head?_trimLeft _ c hc

@[simp] theorem trim_trim (s : List Char) : trim (trim s) = trim s := by
  by_cases h : trim s = []
  · rw [h]
    rfl
  · exact (trimmed_trim h).trim_eq

/-! ## Runs -/

theorem run_append {test : Char → Bool} {run rest : List Char} (hrun : ∀ c ∈ run, test c = true)
    (hrest : ∀ c ∈ rest.head?, test c = false) :
    (run ++ rest).takeWhile test = run ∧ (run ++ rest).dropWhile test = rest := by
  rw [List.takeWhile_append_of_pos hrun, List.dropWhile_append_of_pos hrun]
  cases rest with
  | nil => simp
  | cons c rest => simp [hrest c rfl]

end LifePath.Text
