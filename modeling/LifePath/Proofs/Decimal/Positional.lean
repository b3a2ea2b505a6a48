import LifePath.Decimal.Integer
import LifePath.Decimal.Shortest
import Mathlib.Data.List.TakeWhile

/-!
# Positional notation

A decimal is written in positional notation as digits, and behind a point as more digits of which
one is not a zero (`Scaled.isPositional`). If it is a natural number it is written as that number
is, and only then (`Scaled.positional_eq_toDigits_iff`): zeros that its digits end in stand for
places behind the point and are dropped, and places in front of the point are filled with zeros.
-/

namespace LifePath.Decimal

/-- Digits, or digits with a point and a fraction behind them that is not zero. -/
inductive IsPositional : List Char → Prop where
  | whole {whole : List Char} : whole ≠ [] → (∀ c ∈ whole, c.isDigit = true) → IsPositional whole
  | fraction {whole fraction : List Char} :
      whole ≠ [] → (∀ c ∈ whole, c.isDigit = true) → (∀ c ∈ fraction, c.isDigit = true) →
      (∃ c ∈ fraction, c ≠ '0') → IsPositional (whole ++ '.' :: fraction)

theorem isDigit_of_mem_zeros {n : Nat} {c : Char} (h : c ∈ List.replicate n '0') :
    c.isDigit = true := by
  rw [List.eq_of_mem_replicate h]
  rfl

/-- A number times a power of ten is written with zeros behind its digits. -/
theorem toDigits_mul_tenTo {n : Nat} (hn : 0 < n) (places : Nat) :
    Nat.toDigits 10 (n * tenTo places) = Nat.toDigits 10 n ++ List.replicate places '0' := by
  induction places with
  | zero => simp [tenTo]
  | succ places ih =>
    have hpos : 0 < n * tenTo places := Nat.mul_pos hn (Nat.pow_pos (by decide))
    have hsplit : n * tenTo (places + 1) = 10 * (n * tenTo places) + 0 := by
      simp only [tenTo, Nat.pow_eq, Nat.pow_succ]
      rw [Nat.mul_comm (10 ^ places) 10, Nat.mul_left_comm, Nat.add_zero]
    rw [hsplit, ← Nat.toDigits_append_toDigits (by decide) hpos (by decide), ih, List.append_assoc,
      Nat.toDigits_zero, List.replicate_succ']

theorem digitsValue_toDigits (n : Nat) : digitsValue (Nat.toDigits 10 n) = n :=
  Nat.ofDigitChars_ten_toDigits

theorem digitsValue_append_zeros (digits : List Char) (places : Nat) :
    digitsValue (digits ++ List.replicate places '0') = digitsValue digits * tenTo places := by
  rw [digitsValue, Nat.ofDigitChars_append, Nat.ofDigitChars_replicate_zero, Nat.mul_comm]
  rfl

theorem digitsValue_zeros_append (digits : List Char) (places : Nat) :
    digitsValue (List.replicate places '0' ++ digits) = digitsValue digits := by
  rw [digitsValue, Nat.ofDigitChars_append, Nat.ofDigitChars_replicate_zero, Nat.mul_zero]
  rfl

namespace Scaled

/-- Whether a decimal is a natural number. -/
def IsNat (d : Scaled) (n : Nat) : Prop := compareScaled d.digits d.exponent n 0 = .eq

theorem isNat_iff {d : Scaled} {n : Nat} :
    d.IsNat n ↔ d.digits * tenTo d.exponent.toNat = n * tenTo (-d.exponent).toNat := by
  simp [IsNat, compareScaled]

/-- The digits of a decimal with so many zeros in front that one stands before the point. -/
def padded (d : Scaled) : List Char :=
  List.replicate ((-d.exponent).toNat + 1 - (Nat.toDigits 10 d.digits).length) '0'
    ++ Nat.toDigits 10 d.digits

/-- What stands behind the point, without the zeros it ends in. -/
def dropZeros (fraction : List Char) : List Char :=
  (fraction.reverse.dropWhile (· = '0')).reverse

/-- Nothing is left exactly of a row of zeros. -/
theorem dropZeros_eq_nil_iff {places : List Char} :
    dropZeros places = [] ↔ places = List.replicate places.length '0' := by
  rw [dropZeros, List.reverse_eq_nil_iff, List.dropWhile_eq_nil_iff, List.eq_replicate_iff]
  simp

/-- What is left, if anything is, has a character that is no zero. -/
theorem exists_ne_zero_of_dropZeros {places : List Char} (h : dropZeros places ≠ []) :
    ∃ c ∈ dropZeros places, c ≠ '0' := by
  have hhead := List.head?_dropWhile_not (· = '0') places.reverse
  rw [dropZeros, ne_eq, List.reverse_eq_nil_iff] at h
  obtain ⟨c, rest, hrest⟩ := List.exists_cons_of_ne_nil h
  rw [hrest] at hhead
  refine ⟨c, ?_, by simpa using hhead⟩
  rw [dropZeros, hrest]
  simp

theorem positional_of_nonneg {d : Scaled} (h : 0 ≤ d.exponent) :
    d.positional = Nat.toDigits 10 d.digits ++ List.replicate d.exponent.toNat '0' := by
  rw [positional, if_pos h]

/-- A decimal with places behind the point: what stands in front of the point, and these places. -/
theorem exists_padded_eq (d : Scaled) :
    ∃ whole places, d.padded = whole ++ places ∧ whole ≠ [] ∧
      places.length = (-d.exponent).toNat ∧
      (d.exponent < 0 → d.positional =
        if (dropZeros places).isEmpty then whole else whole ++ '.' :: dropZeros places) := by
  have hlen : (-d.exponent).toNat < d.padded.length := by
    rw [padded, List.length_append, List.length_replicate]
    omega
  refine ⟨d.padded.take (d.padded.length - (-d.exponent).toNat),
    d.padded.drop (d.padded.length - (-d.exponent).toNat), (List.take_append_drop ..).symm, ?_, ?_,
    fun hneg => ?_⟩
  · rw [← List.length_pos_iff, List.length_take]
    omega
  · rw [List.length_drop]
    omega
  · rw [positional, if_neg (by omega)]
    rfl

theorem isDigit_of_mem_padded {d : Scaled} {c : Char} (h : c ∈ d.padded) : c.isDigit = true :=
  (List.mem_append.mp h).elim isDigit_of_mem_zeros isDigit_of_mem_toDigits

theorem digitsValue_padded (d : Scaled) : digitsValue d.padded = d.digits := by
  rw [padded, digitsValue_zeros_append, digitsValue_toDigits]

theorem isPositional (d : Scaled) : IsPositional d.positional := by
  by_cases hneg : d.exponent < 0
  · obtain ⟨whole, places, hpadded, hne, -, hpositional⟩ := d.exists_padded_eq
    have hdigit : ∀ c ∈ whole ++ places, c.isDigit = true := fun c hc =>
      isDigit_of_mem_padded (hpadded ▸ hc)
    have hwhole : ∀ c ∈ whole, c.isDigit = true := fun c hc =>
      hdigit c (List.mem_append_left _ hc)
    rw [hpositional hneg]
    split
    · exact .whole hne hwhole
    · next hfraction =>
      refine .fraction hne hwhole (fun c hc => ?_) ?_
      · refine hdigit c (List.mem_append_right _ ?_)
        rw [dropZeros, List.mem_reverse] at hc
        exact List.mem_reverse.mp ((List.dropWhile_sublist _).subset hc)
      · exact exists_ne_zero_of_dropZeros (by simpa using hfraction)
  · rw [positional_of_nonneg (by omega)]
    refine .whole (by simp) fun c hc => ?_
    exact (List.mem_append.mp hc).elim isDigit_of_mem_toDigits isDigit_of_mem_zeros

/-- **A decimal that is a natural number is written as that number is**, and no other decimal is. -/
theorem positional_eq_toDigits_iff {d : Scaled} {n : Nat} (hn : 0 < n) :
    d.positional = Nat.toDigits 10 n ↔ d.IsNat n := by
  rw [isNat_iff]
  by_cases hneg : d.exponent < 0
  · have hzero : d.exponent.toNat = 0 := by omega
    have htens : tenTo 0 = 1 := rfl
    rw [hzero, htens, Nat.mul_one]
    obtain ⟨whole, places, hpadded, hne, hlength, hpositional⟩ := d.exists_padded_eq
    rw [hpositional hneg]
    constructor
    · intro h
      split at h
      · next hnone =>
        rw [List.isEmpty_iff, dropZeros_eq_nil_iff, hlength] at hnone
        rw [← digitsValue_padded, hpadded, hnone, digitsValue_append_zeros, h,
          digitsValue_toDigits]
      · -- the digits of a natural number have no point among them
        have hpoint : '.' ∈ Nat.toDigits 10 n := by
          rw [← h]
          simp
        exact absurd (isDigit_of_mem_toDigits hpoint) (by decide)
    · intro h
      -- the digits are those of the number and a zero for each place behind the point
      have hzeros : d.padded = Nat.toDigits 10 n ++ List.replicate (-d.exponent).toNat '0' := by
        have hdigits := toDigits_mul_tenTo hn (-d.exponent).toNat
        have hlen : 0 < (Nat.toDigits 10 n).length := Nat.length_toDigits_pos
        rw [padded, h, hdigits, List.length_append, List.length_replicate,
          Nat.sub_eq_zero_of_le (by omega)]
        rfl
      rw [hpadded] at hzeros
      obtain ⟨rfl, rfl⟩ := List.append_inj' hzeros (by rw [hlength, List.length_replicate])
      have hnone : dropZeros (List.replicate (-d.exponent).toNat '0') = [] := by
        simp [dropZeros_eq_nil_iff]
      rw [hnone]
      rfl
  · have hzero : (-d.exponent).toNat = 0 := by omega
    have htens : tenTo 0 = 1 := rfl
    rw [positional_of_nonneg (by omega), hzero, htens, Nat.mul_one]
    constructor
    · intro h
      rw [← digitsValue_toDigits n, ← h, digitsValue_append_zeros, digitsValue_toDigits]
    · intro h
      have hpos : 0 < d.digits := by
        refine Nat.pos_of_ne_zero fun hnone => ?_
        rw [hnone, Nat.zero_mul] at h
        omega
      rw [← h, toDigits_mul_tenTo hpos]

end Scaled

end LifePath.Decimal
