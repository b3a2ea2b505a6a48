import LifePath.Decimal.Integer

/-!
# Literals

What is read as a number is described without the reader: `IsDigits` for the digits and
`IntLiteral` for an integer and its value. Reading finds a number exactly if the text is a literal
of it (`readNat_eq_some_iff`, `readInt_eq_some_iff`).
-/

namespace LifePath.Decimal

/-- One or more ASCII digits. -/
structure IsDigits (s : List Char) : Prop where
  ne_nil : s ≠ []
  digits : ∀ c ∈ s, c.isDigit = true

/-- How an integer can be spelled: digits, and in front of them a sign or none. -/
inductive IntLiteral : List Char → Int → Prop where
  | unsigned {digits : List Char} : IsDigits digits → IntLiteral digits (digitsValue digits)
  | plus {digits : List Char} : IsDigits digits → IntLiteral ('+' :: digits) (digitsValue digits)
  | minus {digits : List Char} : IsDigits digits → IntLiteral ('-' :: digits) (-digitsValue digits)

theorem readNat_eq_some_iff {s : List Char} {n : Nat} :
    readNat s = some n ↔ IsDigits s ∧ n = digitsValue s := by
  rw [readNat]
  constructor
  · intro h
    split at h
    · next hdigits =>
      simp only [Bool.and_eq_true, Bool.not_eq_true', List.isEmpty_eq_false_iff,
        List.all_eq_true] at hdigits
      exact ⟨⟨hdigits.1, hdigits.2⟩, (Option.some.inj h).symm⟩
    · cases h
  · rintro ⟨hs, rfl⟩
    have hempty : s.isEmpty = false := List.isEmpty_eq_false_iff.mpr hs.ne_nil
    have hall : s.all Char.isDigit = true := List.all_eq_true.mpr hs.digits
    rw [hempty, hall]
    rfl

/-- Digits begin with no sign. -/
theorem IsDigits.head?_ne {s : List Char} (hs : IsDigits s) {c : Char} (hc : c.isDigit = false) :
    s.head? ≠ some c := by
  intro hhead
  have hdigit := hs.digits c (List.mem_of_mem_head? hhead)
  rw [hc] at hdigit
  cases hdigit

theorem map_readNat_eq_some_iff {digits : List Char} {f : Int → Int} {n : Int} :
    Option.map f (do let m ← readNat digits; pure (m : Int)) = some n ↔
      IsDigits digits ∧ f (digitsValue digits) = n := by
  cases hread : readNat digits with
  | none =>
    refine ⟨nofun, fun ⟨hdigits, _⟩ => ?_⟩
    rw [readNat_eq_some_iff.mpr ⟨hdigits, rfl⟩] at hread
    cases hread
  | some m =>
    obtain ⟨hdigits, rfl⟩ := readNat_eq_some_iff.mp hread
    exact ⟨fun h => ⟨hdigits, Option.some.inj h⟩, fun ⟨_, h⟩ => congrArg some h⟩

theorem readInt_eq_some_iff {s : List Char} {n : Int} :
    readInt s = some n ↔ IntLiteral s n := by
  constructor
  · intro h
    unfold readInt at h
    split at h
    · obtain ⟨hdigits, rfl⟩ := map_readNat_eq_some_iff.mp h
      exact .minus hdigits
    · obtain ⟨hdigits, rfl⟩ := map_readNat_eq_some_iff.mp h
      exact .plus hdigits
    · obtain ⟨hdigits, rfl⟩ := map_readNat_eq_some_iff.mp h
      exact .unsigned hdigits
  · intro h
    cases h with
    | unsigned hdigits =>
      unfold readInt
      split
      · exact absurd rfl (hdigits.head?_ne (c := '-') (by decide))
      · exact absurd rfl (hdigits.head?_ne (c := '+') (by decide))
      · exact map_readNat_eq_some_iff.mpr ⟨hdigits, rfl⟩
    | plus hdigits | minus hdigits => exact map_readNat_eq_some_iff.mpr ⟨hdigits, rfl⟩

/-- A literal begins with a digit or a sign. -/
theorem IntLiteral.head?_ne {s : List Char} {n : Int} (h : IntLiteral s n) {c : Char}
    (hdigit : c.isDigit = false) (hsign : c ≠ '+' ∧ c ≠ '-') : s.head? ≠ some c := by
  cases h with
  | unsigned hdigits => exact hdigits.head?_ne hdigit
  | plus => simpa using hsign.1.symm
  | minus => simpa using hsign.2.symm

end LifePath.Decimal
