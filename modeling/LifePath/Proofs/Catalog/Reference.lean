import LifePath.Catalog.Reference
import LifePath.Proofs.Text.Blank
import Mathlib.Data.List.TakeWhile

/-!
# How references are written

A reference is written as an id alone or as an id, a star and a weight, with blanks around any of
these (`Written`). A weight is digits, and maybe a point with digits behind it (`WrittenWeight`).
Reading finds the id and the weight again (`parts?_of_written`).
-/

namespace LifePath.Reference

open LifePath.Text LifePath.Decimal

/-! ## The grammar -/

/-- How a weight is written. -/
inductive WrittenWeight : List Char → Float → Prop where
  | whole {digits : List Char} : digits ≠ [] → (∀ c ∈ digits, c.isDigit = true) →
      WrittenWeight digits (Numeral.toFloat ⟨false, digits, none, none⟩)
  | fraction {digits places : List Char} : digits ≠ [] → (∀ c ∈ digits, c.isDigit = true) →
      places ≠ [] → (∀ c ∈ places, c.isDigit = true) →
      WrittenWeight (digits ++ '.' :: places) (Numeral.toFloat ⟨false, digits, some places, none⟩)

/-- How a reference to an id is written, and the weight that it has. -/
inductive Written (id : List Char) : List Char → Float → Prop where
  | alone {left right : List Char} : (∀ c ∈ left, isBlank c = true) →
      (∀ c ∈ right, isBlank c = true) → Written id (left ++ id ++ right) plainWeight
  | weighted {left gap gap' right digits : List Char} {weight : Float} :
      (∀ c ∈ left, isBlank c = true) → (∀ c ∈ gap, isBlank c = true) →
      (∀ c ∈ gap', isBlank c = true) → (∀ c ∈ right, isBlank c = true) →
      WrittenWeight digits weight →
      Written id (left ++ id ++ gap ++ '*' :: (gap' ++ digits ++ right)) weight

/-- Blanks at the ends of an id are blanks around it. -/
theorem Written.of_padded {left id right text : List Char} {weight : Float}
    (hleft : ∀ c ∈ left, isBlank c = true) (hright : ∀ c ∈ right, isBlank c = true)
    (h : Written (left ++ id ++ right) text weight) : Written id text weight := by
  have happend {s t : List Char} (hs : ∀ c ∈ s, isBlank c = true)
      (ht : ∀ c ∈ t, isBlank c = true) : ∀ c ∈ s ++ t, isBlank c = true :=
    fun c hc => (List.mem_append.mp hc).elim (hs c) (ht c)
  cases h with
  | @alone before after hbefore hafter =>
    have hwritten : Written id (before ++ left ++ id ++ (right ++ after)) plainWeight :=
      .alone (happend hbefore hleft) (happend hright hafter)
    simpa using hwritten
  | @weighted before gap gap' after digits _ hbefore hgap hgap' hafter hdigits =>
    have hwritten : Written id
        (before ++ left ++ id ++ (right ++ gap) ++ '*' :: (gap' ++ digits ++ after)) weight :=
      .weighted (happend hbefore hleft) (happend hright hgap) hgap' hafter hdigits
    simpa using hwritten

/-! ## Reading -/

theorem isDigit_of_isBlank {c : Char} (h : isBlank c = true) : c.isDigit = false := by
  cases hdigit : c.isDigit with
  | false => rfl
  | true =>
    rw [isBlank_of_isDigit hdigit] at h
    cases h

theorem isIdChar_of_isBlank {c : Char} (h : isBlank c = true) : isIdChar c = false := by
  rw [isIdChar, h]
  simp

/-- A weight is behind its blanks, for it begins with a digit. -/
theorem trimLeft_weight {text right : List Char} {weight : Float} (h : WrittenWeight text weight) :
    trimLeft (text ++ right) = text ++ right := by
  have hhead : ∃ c rest, text = c :: rest ∧ c.isDigit = true := by
    cases h with
    | whole hne hdigits =>
      obtain ⟨c, rest, rfl⟩ := List.exists_cons_of_ne_nil hne
      exact ⟨c, rest, rfl, hdigits c (List.mem_cons_self ..)⟩
    | fraction hne hdigits _ _ =>
      obtain ⟨c, rest, rfl⟩ := List.exists_cons_of_ne_nil hne
      exact ⟨c, _, rfl, hdigits c (List.mem_cons_self ..)⟩
  obtain ⟨c, rest, rfl, hc⟩ := hhead
  refine trimLeft_of_head fun d hd => ?_
  obtain rfl : c = d := by simpa using hd
  exact isBlank_of_isDigit hc

theorem readWeight_of_written {text right : List Char} {weight : Float}
    (h : WrittenWeight text weight) (hright : ∀ c ∈ right, isBlank c = true) :
    readWeight (text ++ right) = some weight := by
  have hrest : ∀ c ∈ right.head?, c.isDigit = false := fun c hc =>
    isDigit_of_isBlank (hright c (List.mem_of_mem_head? hc))
  have hblank : allBlank right = true := List.all_eq_true.mpr hright
  cases h with
  | whole hne hdigits =>
    obtain ⟨htake, hdrop⟩ := run_append hdigits hrest
    have hempty : text.isEmpty = false := by simpa using hne
    have hpoint : '.' ∉ right := fun hmem => by
      have hmark := hright '.' hmem
      revert hmark
      decide
    rw [readWeight]
    simp only [htake, hdrop, hempty]
    cases right with
    | nil => rfl
    | cons c rest =>
      have hc : c ≠ '.' := fun heq => hpoint (heq ▸ List.mem_cons_self ..)
      simp [hc, hblank]
  | @fraction digits places hne hdigits hplaces_ne hplaces =>
    have hmark : ∀ c ∈ ('.' :: (places ++ right)).head?, c.isDigit = false := by
      intro c hc
      obtain rfl : '.' = c := by simpa using hc
      decide
    obtain ⟨htake, hdrop⟩ := run_append hdigits hmark
    obtain ⟨htake', hdrop'⟩ := run_append hplaces hrest
    rw [List.append_assoc, List.cons_append, readWeight]
    simp [htake, hdrop, htake', hdrop', hne, hplaces_ne, hblank]

/-- A reference is read as the id and the weight that it is written for. -/
theorem parts?_of_written {id text : List Char} {weight : Float} (hne : id ≠ [])
    (hid : ∀ c ∈ id, isIdChar c = true) (h : Written id text weight) :
    parts? text = some (id, weight) := by
  have hempty : id.isEmpty = false := by simpa using hne
  have hhead {rest : List Char} : trimLeft (id ++ rest) = id ++ rest := by
    refine trimLeft_of_head fun c hc => ?_
    obtain ⟨first, others, rfl⟩ := List.exists_cons_of_ne_nil hne
    obtain rfl : first = c := by simpa using hc
    have hfirst := hid first (List.mem_cons_self ..)
    simp only [isIdChar, Bool.and_eq_true, Bool.not_eq_true'] at hfirst
    exact hfirst.2
  cases h with
  | @alone left right hleft hright =>
    have hrest : ∀ c ∈ right.head?, isIdChar c = false := fun c hc =>
      isIdChar_of_isBlank (hright c (List.mem_of_mem_head? hc))
    obtain ⟨htake, hdrop⟩ := run_append hid hrest
    have hblank : trimLeft right = [] := List.dropWhile_eq_nil_iff.mpr hright
    rw [parts?, List.append_assoc, trimLeft_append hleft, hhead]
    simp [htake, hdrop, hempty, hblank]
  | @weighted left gap gap' right digits _ hleft hgap hgap' hright hdigits =>
    have hrest : ∀ c ∈ (gap ++ '*' :: (gap' ++ digits ++ right)).head?, isIdChar c = false := by
      intro c hc
      cases gap with
      | nil =>
        obtain rfl : '*' = c := by simpa using hc
        decide
      | cons first others =>
        obtain rfl : first = c := by simpa using hc
        exact isIdChar_of_isBlank (hgap first (List.mem_cons_self ..))
    obtain ⟨htake, hdrop⟩ := run_append hid hrest
    have hstar : trimLeft (gap ++ '*' :: (gap' ++ digits ++ right)) =
        '*' :: (gap' ++ digits ++ right) := by
      rw [trimLeft_append hgap]
      rfl
    have hweight : readWeight (trimLeft (gap' ++ digits ++ right)) = some weight := by
      rw [List.append_assoc, trimLeft_append hgap', trimLeft_weight hdigits]
      exact readWeight_of_written hdigits hright
    rw [parts?, List.append_assoc, List.append_assoc, trimLeft_append hleft, hhead]
    simp only [htake, hdrop, hempty, hstar, hweight]
    rfl

end LifePath.Reference
