/-!
# Whole numbers

Numbers of the game are 32-bit integers. A sum of two that lies outside that range is wrapped into
it (`wrapInt32`). Wrapping sums on the way makes no difference to what is wrapped in the end, so a
sum of many numbers is exact whenever the whole of it is in range, whatever became of its parts.

`readInt32` reads an optional sign and one or more ASCII digits and refuses what lies outside that
range; `intDigits` writes a number without needless characters. Reading digits that were written
gives the number back: `readNat_toDigits`, and with a sign `readInt32_intDigits`.
-/

namespace LifePath.Decimal

/-! ## Sizes -/

/-- A power of two. -/
abbrev twoTo (n : Nat) : Nat := Nat.pow 2 n

/-- A power of ten. -/
abbrev tenTo (n : Nat) : Nat := Nat.pow 10 n

/-- The least 32-bit integer. -/
def minInt32 : Int := -2147483648

/-- The greatest 32-bit integer. -/
def maxInt32 : Int := 2147483647

/-- Whether a number fits 32 signed bits. -/
def fitsInt32 (n : Int) : Bool := minInt32 ≤ n && n ≤ maxInt32

/-- The 32-bit integer that a number leaves when it is cut down to 32 bits. -/
def wrapInt32 (n : Int) : Int := n.bmod (twoTo 32)

/-- Whether a number fits 64 signed bits. -/
def fitsInt64 (n : Int) : Bool := -9223372036854775808 ≤ n && n ≤ 9223372036854775807

/-- Whether a number fits 64 unsigned bits. -/
def fitsUInt64 (n : Int) : Bool := 0 ≤ n && n ≤ 18446744073709551615

theorem fitsInt32_iff {n : Int} : fitsInt32 n = true ↔ minInt32 ≤ n ∧ n ≤ maxInt32 := by
  simp [fitsInt32]

/-- A 32-bit integer is left as it is. -/
theorem wrapInt32_of_fits {n : Int} (h : fitsInt32 n = true) : wrapInt32 n = n := by
  obtain ⟨hmin, hmax⟩ := fitsInt32_iff.mp h
  unfold minInt32 at hmin
  unfold maxInt32 at hmax
  exact Int.bmod_eq_of_le (by simp; omega) (by simp; omega)

example : wrapInt32 (maxInt32 + 1) = minInt32 := by decide

@[simp] theorem wrapInt32_wrapInt32 (n : Int) : wrapInt32 (wrapInt32 n) = wrapInt32 n :=
  Int.bmod_bmod

/-- A sum that is wrapped in the end may have been wrapped before. -/
@[simp] theorem wrapInt32_wrapInt32_add (a b : Int) :
    wrapInt32 (wrapInt32 a + b) = wrapInt32 (a + b) := Int.bmod_add_bmod

/-- Wrapping a number that is not negative never makes it greater. -/
theorem wrapInt32_le {n : Int} (h : 0 ≤ n) : wrapInt32 n ≤ n := by
  have hsize : ((twoTo 32 : Nat) : Int) = 4294967296 := rfl
  rw [wrapInt32, Int.bmod_def, hsize]
  split <;> omega

/-! ## Digits -/

/-- The value of a run of digits. -/
def digitsValue (digits : List Char) : Nat := Nat.ofDigitChars 10 digits 0

/-- One or more ASCII digits, leading zeros allowed. -/
def readNat (s : List Char) : Option Nat :=
  if !s.isEmpty && s.all Char.isDigit then some (digitsValue s) else none

/-- A run of digits behind an optional plus or minus. -/
def readInt : List Char → Option Int
  | '-' :: digits => (readNat digits).map fun n => -(n : Int)
  | '+' :: digits => (readNat digits).map fun n => (n : Int)
  | digits => (readNat digits).map fun n => (n : Int)

/-- A number that fits 32 signed bits. -/
def readInt32 (s : List Char) : Option Int := (readInt s).filter fitsInt32

/-- A number as decimal digits, with a minus in front if it is negative. -/
def intDigits (n : Int) : List Char :=
  if n < 0 then '-' :: Nat.toDigits 10 n.natAbs else Nat.toDigits 10 n.natAbs

/-- A number as a text. -/
def intText (n : Int) : String := String.ofList (intDigits n)

theorem isDigit_of_mem_toDigits {n : Nat} {c : Char} (h : c ∈ Nat.toDigits 10 n) :
    c.isDigit = true := Nat.isDigit_of_mem_toDigits (by decide) (by decide) h

/-- Digits read back to the number they were written for. -/
theorem readNat_toDigits (n : Nat) : readNat (Nat.toDigits 10 n) = some n := by
  have h : (Nat.toDigits 10 n).all Char.isDigit = true := by
    rw [List.all_eq_true]
    exact fun c hc => isDigit_of_mem_toDigits hc
  have hne : (Nat.toDigits 10 n).isEmpty = false := by
    simp [Nat.toDigits_ne_nil]
  simp [readNat, h, hne, digitsValue, Nat.ofDigitChars_toDigits]

/-- Written digits begin with a digit. -/
theorem exists_toDigits_eq_cons (n : Nat) :
    ∃ c rest, Nat.toDigits 10 n = c :: rest ∧ c.isDigit = true := by
  obtain ⟨c, rest, h⟩ := List.exists_cons_of_ne_nil (Nat.toDigits_ne_nil (b := 10) (n := n))
  exact ⟨c, rest, h, isDigit_of_mem_toDigits (h ▸ List.mem_cons_self ..)⟩

/-- A number that was written reads back. -/
theorem readInt_intDigits (n : Int) : readInt (intDigits n) = some n := by
  unfold intDigits
  split
  · next hneg =>
    rw [readInt, readNat_toDigits]
    show some (-(n.natAbs : Int)) = some n
    rw [Option.some.injEq]
    omega
  · next hnonneg =>
    have hread := readNat_toDigits n.natAbs
    obtain ⟨c, rest, hdigits, hc⟩ := exists_toDigits_eq_cons n.natAbs
    rw [hdigits] at hread ⊢
    have hminus : c ≠ '-' := by rintro rfl; simp at hc
    have hplus : c ≠ '+' := by rintro rfl; simp at hc
    unfold readInt
    split
    · next h => exact absurd (List.cons.inj h).1 hminus
    · next h => exact absurd (List.cons.inj h).1 hplus
    · rw [hread]
      show some (n.natAbs : Int) = some n
      rw [Option.some.injEq]
      omega

/-- A 32-bit integer that was written reads back. -/
theorem readInt32_intDigits {n : Int} (h : fitsInt32 n = true) :
    readInt32 (intDigits n) = some n := by
  rw [readInt32, readInt_intDigits, Option.filter_some, if_pos h]

end LifePath.Decimal
