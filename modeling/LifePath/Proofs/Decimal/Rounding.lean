import LifePath.Decimal.Binary
import Mathlib

/-!
# Rounding to binary64

The result of an operation on binary64 numbers is computed to a mantissa and two bits, which say
what is left behind the last place: nothing, less than half of it, half or more (`StandsFor`).
Shifting such a mantissa to the right keeps what it stands for, so where the last place for the size
of a number is (`LastPlace`), the two bits are enough to round to a nearest whole number of places
(`StandsFor.roundsTo`).

That number of places is packed into bits (`exists_settled`, `Parts.of_packed`). It is the nearest
among all finite binary64 numbers (`nearest_of_roundsTo`): numbers with coarser places are whole
numbers of places as well, and those with finer places are smaller than the number that is rounded.
`IsNearest` says this of a number and the binary64 number it is rounded to, without the machinery.
-/

namespace LifePath.Decimal

open Float.Model Float.Model.UnpackedFloat

/-! ## Exact values -/

/-- The exact value. -/
def Dyadic.value (x : Dyadic) : ℚ := x.mantissa * 2 ^ x.exponent

/-- The exact value of a binary64 number, if it is finite. -/
def exactValue? (f : Float) : Option ℚ :=
  match Parts.of f with
  | .finite negative x => some (if negative then -x.value else x.value)
  | _ => none

/-- Halfway from the greatest finite number, `(2 ^ 53 - 1) * 2 ^ 971`, to the power of two above
it. -/
def finiteBound : ℚ := (2 ^ 54 - 1) * 2 ^ (970 : ℤ)

/-- A binary64 number that a number is rounded to: a nearest one of the finite ones, and the one
with an even mantissa if there are two; infinity from `finiteBound` on. -/
inductive IsNearest (v : ℚ) (f : Float) : Prop where
  | finite {x : Dyadic} : v < finiteBound → Parts.of f = .finite false x →
      (∀ g value, exactValue? g = some value → |x.value - v| ≤ |value - v| ∧
        (value ≠ x.value → |x.value - v| = |value - v| → x.mantissa % 2 = 0)) → IsNearest v f
  | infinite : finiteBound ≤ v → Parts.of f = .infinite false → IsNearest v f

/-- What an extended mantissa stands for, in units of its last place. -/
def StandsFor (em : ExtendedMantissa) (v : ℚ) : Prop :=
  match em.roundBit, em.stickyBit with
  | false, false => v = em.mantissa
  | false, true => em.mantissa < v ∧ v < em.mantissa + 1 / 2
  | true, false => v = em.mantissa + 1 / 2
  | true, true => em.mantissa + 1 / 2 < v ∧ v < em.mantissa + 1

/-- A whole number that a number is rounded to: the nearest one, and of two the even one. -/
structure RoundsTo (v : ℚ) (n : Nat) : Prop where
  within : |v - n| ≤ 1 / 2
  even : |v - n| = 1 / 2 → n % 2 = 0

/-! ## Mantissas -/

namespace RoundsTo

variable {v : ℚ} {n : Nat}

theorem of_lt (h : |v - n| < 1 / 2) : RoundsTo v n := ⟨h.le, fun heq => absurd heq h.ne⟩

theorem bounds (h : RoundsTo v n) : v - 1 / 2 ≤ n ∧ n ≤ v + 1 / 2 := by
  have habs := abs_le.mp h.within
  constructor <;> linarith

/-- No whole number is nearer. -/
theorem nearest (h : RoundsTo v n) (k : ℤ) :
    |n - v| ≤ |k - v| ∧ (k ≠ n → |n - v| = |k - v| → n % 2 = 0) := by
  by_cases hk : k = n
  · subst hk
    exact ⟨le_refl _, fun hne => absurd rfl hne⟩
  · -- another whole number is one away or more
    have hapart : (1 : ℚ) ≤ |(k : ℚ) - n| := by
      have hint : 1 ≤ |k - n| := Int.one_le_abs (sub_ne_zero.mpr hk)
      exact_mod_cast hint
    have htriangle := abs_sub_le (k : ℚ) v n
    have hwithin := h.within
    rw [abs_sub_comm v n] at hwithin htriangle
    refine ⟨by linarith, fun _ heq => h.even ?_⟩
    rw [abs_sub_comm v n]
    linarith

end RoundsTo

namespace StandsFor

variable {em : ExtendedMantissa} {v : ℚ}

theorem floor (h : StandsFor em v) : em.mantissa ≤ v ∧ v < em.mantissa + 1 := by
  obtain ⟨m, r, s⟩ := em
  cases r <;> cases s <;> simp only [StandsFor] at h ⊢ <;> constructor <;> linarith

theorem shiftRightOne (h : StandsFor em v) : StandsFor em.shiftRightOne (v / 2) := by
  obtain ⟨m, r, s⟩ := em
  have hsplit : (m : ℚ) = 2 * (m / 2 : Nat) + (m % 2 : Nat) := by
    exact_mod_cast (Nat.div_add_mod m 2).symm
  rcases Nat.mod_two_eq_zero_or_one m with hm | hm <;> rw [hm] at hsplit <;>
    cases r <;> cases s <;>
    simp [StandsFor, ExtendedMantissa.shiftRightOne, hm] at h hsplit ⊢ <;>
    (try constructor) <;> linarith

theorem shiftRight (h : StandsFor em v) (n : Nat) : StandsFor (em >>> n) (v / 2 ^ n) := by
  show StandsFor (n.repeat ExtendedMantissa.shiftRightOne em) _
  induction n with
  | zero => simpa [Nat.repeat] using h
  | succ n ih =>
    rw [Nat.repeat, pow_succ, ← div_div]
    exact ih.shiftRightOne

/-- The two bits are enough to round. -/
theorem roundsTo (h : StandsFor em v) : RoundsTo v em.roundedMantissa := by
  obtain ⟨m, r, s⟩ := em
  cases r <;> cases s <;>
    simp only [StandsFor, ExtendedMantissa.roundedMantissa, ExtendedMantissa.accuracy,
      Accuracy.roundToNearestEven] at h ⊢
  · subst h
    exact .of_lt (by norm_num)
  · exact .of_lt (by rw [abs_lt]; constructor <;> linarith)
  · subst h
    rcases Nat.mod_two_eq_zero_or_one m with hm | hm <;> rw [hm]
    · refine ⟨?_, fun _ => hm⟩
      norm_num
    · refine ⟨?_, fun _ => by omega⟩
      push_cast
      norm_num [abs_le]
  · exact .of_lt (by push_cast; rw [abs_lt]; constructor <;> linarith)

end StandsFor

theorem zpow_two_add (a b : ℤ) : (2 : ℚ) ^ (a + b) = 2 ^ a * 2 ^ b :=
  zpow_add₀ (by norm_num) a b

theorem zpow_two_pos (a : ℤ) : (0 : ℚ) < 2 ^ a := zpow_pos (by norm_num) a

theorem zpow_two_mono {a b : ℤ} (h : a ≤ b) : (2 : ℚ) ^ a ≤ 2 ^ b :=
  zpow_le_zpow_right₀ (by norm_num) h

/-! ## Places -/

/-- The exponent of the last binary place that is kept of a number of this size. -/
structure LastPlace (v : ℚ) (t : ℤ) : Prop where
  least : -1074 ≤ t
  below : v < 2 ^ (t + 53)
  above : t ≠ -1074 → 2 ^ (t + 52) ≤ v

theorem targetExponent_eq (total : ℤ) :
    Format.binary64.targetExponent total = max (total - 53) (-1074) := by
  simp only [Format.targetExponent, Format.mantissaBits, Format.minExponent]
  norm_num

theorem targetExponent_totalExponent (m : Nat) (e : ℤ) :
    Format.binary64.targetExponent (totalExponent m e) = max (m.log2 + e - 52) (-1074) := by
  rw [targetExponent_eq, totalExponent]
  omega

theorem lastPlace_targetExponent {m : Nat} {e : ℤ} {v : ℚ} (hlow : m ≤ v / 2 ^ e)
    (hhigh : v / 2 ^ e < m + 1) (hm : 2 ^ 52 ≤ m ∨ e ≤ -1074) :
    LastPlace v (max (m.log2 + e - 52) (-1074)) := by
  have hunit := zpow_two_pos e
  rw [le_div_iff₀ hunit] at hlow
  rw [div_lt_iff₀ hunit] at hhigh
  refine ⟨by omega, ?_, fun hne => ?_⟩
  · have hlog : ((m + 1 : Nat) : ℚ) ≤ ((2 ^ (m.log2 + 1) : Nat) : ℚ) :=
      Nat.cast_le.mpr Nat.lt_log2_self
    push_cast at hlog
    calc v < (m + 1) * 2 ^ e := hhigh
      _ ≤ 2 ^ (m.log2 + 1) * 2 ^ e := mul_le_mul_of_nonneg_right hlog hunit.le
      _ = 2 ^ ((m.log2 + 1 : Nat) + e) := by rw [zpow_two_add, zpow_natCast]
      _ ≤ 2 ^ (max (m.log2 + e - 52) (-1074) + 53) := zpow_two_mono (by push_cast; omega)
  · have hpos : m ≠ 0 := by
      rintro rfl
      simp at hne hm
      omega
    have hlog : ((2 ^ m.log2 : Nat) : ℚ) ≤ m := Nat.cast_le.mpr (Nat.log2_self_le hpos)
    push_cast at hlog
    calc (2 : ℚ) ^ (max (m.log2 + e - 52) (-1074) + 52) = 2 ^ ((m.log2 : ℤ) + e) := by
          congr 1
          omega
      _ = 2 ^ m.log2 * 2 ^ e := by rw [zpow_two_add, zpow_natCast]
      _ ≤ m * 2 ^ e := mul_le_mul_of_nonneg_right hlog hunit.le
      _ ≤ v := hlow

/-- A mantissa of at most 53 bits stays where it is. -/
theorem shiftToTargetExponent_of_lt {m : Nat} {e : ℤ} (hm : m < 2 ^ 53) (he : -1074 ≤ e) :
    shiftToTargetExponent Format.binary64 m e .exact = (⟨m, false, false⟩, e) := by
  have hlog : m.log2 ≤ 52 := by
    by_cases hzero : m = 0
    · simp [hzero]
    · have := (Nat.log2_lt hzero).mpr hm
      omega
  have hstay : (max ((m.log2 : ℤ) + e - 52) (-1074) - e).toNat = 0 := by omega
  rw [shiftToTargetExponent, targetExponent_totalExponent, shiftToExponent, hstay]
  simp [HShiftRight.hShiftRight, Nat.repeat, ExtendedMantissa.ofMantissaAndAccuracy]

/-- Rounded up to the next power of two, a mantissa loses one place. -/
theorem shiftToTargetExponent_carry {e : ℤ} (he : -1074 ≤ e) :
    shiftToTargetExponent Format.binary64 (2 ^ 53) e .exact = (⟨2 ^ 52, false, false⟩, e + 1) := by
  have hstep : (max (((2 ^ 53 : Nat).log2 : ℤ) + e - 52) (-1074) - e).toNat = 1 := by
    rw [Nat.log2_two_pow]
    omega
  rw [shiftToTargetExponent, targetExponent_totalExponent, shiftToExponent, hstep]
  simp [HShiftRight.hShiftRight, Nat.repeat, ExtendedMantissa.ofMantissaAndAccuracy,
    ExtendedMantissa.shiftRightOne]

/-- A rounded mantissa in its final form: zero is by itself, and a mantissa that has grown by a
place has lost it again. -/
def settled (n : Nat) (t : ℤ) : UnpackedFloat :=
  if h : n = 0 then .zero .positive
  else if n < 2 ^ 53 then .finite .positive n t (Nat.pos_of_ne_zero h)
  else .finite .positive (2 ^ 52) (t + 1) (by decide)

theorem RoundsTo.le_of_lastPlace {v : ℚ} {t : ℤ} {n : Nat} (hplace : LastPlace v t)
    (h : RoundsTo (v / 2 ^ t) n) : n ≤ 2 ^ 53 ∧ (t ≠ -1074 → 2 ^ 52 ≤ n) := by
  have hunit := zpow_two_pos t
  obtain ⟨hlow, hhigh⟩ := h.bounds
  constructor
  · have hbelow : v / 2 ^ t < 2 ^ 53 := by
      rw [div_lt_iff₀ hunit, mul_comm]
      exact_mod_cast (zpow_two_add t 53 ▸ hplace.below)
    have hlt : (n : ℚ) < ((2 ^ 53 + 1 : Nat) : ℚ) := by
      push_cast
      linarith
    have := Nat.cast_lt.mp hlt
    omega
  · intro hne
    have habove : 2 ^ 52 ≤ v / 2 ^ t := by
      rw [le_div_iff₀ hunit, mul_comm]
      exact_mod_cast (zpow_two_add t 52 ▸ hplace.above hne)
    have hlt : ((2 ^ 52 : Nat) : ℚ) < ((n + 1 : Nat) : ℚ) := by
      push_cast
      linarith
    have := Nat.cast_lt.mp hlt
    omega

/-- Shifted to the exponent of the last place, a mantissa stands for the same number. -/
theorem StandsFor.shiftToTargetExponent {m : Nat} {e : ℤ} {accuracy : Accuracy} {v : ℚ}
    (h : StandsFor (.ofMantissaAndAccuracy m accuracy) (v / 2 ^ e))
    (hm : 2 ^ 52 ≤ m ∨ e ≤ -1074) :
    ∃ em t, shiftToTargetExponent Format.binary64 m e accuracy = (em, t) ∧
      LastPlace v t ∧ StandsFor em (v / 2 ^ t) := by
  have hmantissa : (ExtendedMantissa.ofMantissaAndAccuracy m accuracy).mantissa = m := by
    rcases accuracy with _ | (_ | _ | _) <;> rfl
  obtain ⟨hlow, hhigh⟩ := h.floor
  rw [hmantissa] at hlow hhigh
  have hplace := lastPlace_targetExponent hlow hhigh hm
  obtain ⟨k, hk⟩ : ∃ k : Nat, max ((m.log2 : ℤ) + e - 52) (-1074) = e + k := by
    have hle : e ≤ max ((m.log2 : ℤ) + e - 52) (-1074) := by
      rcases hm with hm | hm
      · have hlog := (Nat.le_log2 (by omega)).mpr hm
        omega
      · omega
    exact ⟨(max ((m.log2 : ℤ) + e - 52) (-1074) - e).toNat, by omega⟩
  refine ⟨ExtendedMantissa.ofMantissaAndAccuracy m accuracy >>> k, e + k, ?_, hk ▸ hplace, ?_⟩
  · have hsteps : (e + (k : ℤ) - e).toNat = k := by omega
    rw [UnpackedFloat.shiftToTargetExponent, targetExponent_totalExponent, shiftToExponent, hk,
      hsteps]
  · have hunit : v / 2 ^ (e + (k : ℤ)) = v / 2 ^ e / 2 ^ k := by
      rw [zpow_two_add, zpow_natCast, div_div]
    rw [hunit]
    exact h.shiftRight k

/-- Rounding keeps the last place for the size of the number and rounds there. -/
theorem exists_settled {m : Nat} {e : ℤ} {accuracy : Accuracy} {v : ℚ}
    (h : StandsFor (.ofMantissaAndAccuracy m accuracy) (v / 2 ^ e))
    (hm : 2 ^ 52 ≤ m ∨ e ≤ -1074) :
    ∃ t n, LastPlace v t ∧ RoundsTo (v / 2 ^ t) n ∧
      roundWithAccuracy Format.binary64 .positive m e accuracy = settled n t := by
  obtain ⟨em, t, hshift, hplace, hstands⟩ := h.shiftToTargetExponent hm
  have hrounds := hstands.roundsTo
  refine ⟨t, em.roundedMantissa, hplace, hrounds, ?_⟩
  obtain ⟨hle, -⟩ := hrounds.le_of_lastPlace hplace
  rw [roundWithAccuracy, hshift]
  dsimp only
  generalize em.roundedMantissa = n at hle ⊢
  by_cases hn : n < 2 ^ 53
  · rw [shiftToTargetExponent_of_lt hn hplace.least]
    simp only [settled, hn, ↓reduceIte]
  · obtain rfl : n = 2 ^ 53 := by omega
    rw [shiftToTargetExponent_carry hplace.least]
    rfl

/-! ## Bits -/

/-- The number that is packed. -/
def packed (x : UnpackedFloat) : Float := .ofModel (Float.Model.pack x)

theorem toNat_packComponents (exponent : BitVec 11) (mantissa : BitVec 52) :
    (packComponents Format.binary64 .positive exponent mantissa).toNat =
      exponent.toNat * 2 ^ 52 + mantissa.toNat := by
  show (Sign.positive.toBitVec ++ exponent ++ mantissa).toNat = _
  rw [BitVec.toNat_append, ← Nat.shiftLeft_add_eq_or_of_lt mantissa.isLt, Nat.shiftLeft_eq,
    BitVec.toNat_append]
  simp [Sign.toBitVec]

theorem toBits_packed (x : UnpackedFloat) :
    (packed x).toBits.toNat = (UnpackedFloat.pack Format.binary64 x).toNat := rfl

theorem Parts.of_bits {f : Float} {exponent fraction : Nat}
    (h : f.toBits.toNat = exponent * 2 ^ 52 + fraction) (hexponent : exponent < 2047)
    (hfraction : fraction < 2 ^ 52) :
    ∃ narrow, Parts.of f = if exponent = 0 then .finite false ⟨fraction, -1074, narrow⟩
      else .finite false ⟨2 ^ 52 + fraction, exponent - 1075, narrow⟩ := by
  have hsign : (f.toBits.toNat / twoTo 63 == 1) = false := by
    simp only [twoTo, Nat.pow_eq]
    simp
    omega
  have hexp : f.toBits.toNat / twoTo 52 % twoTo 11 = exponent := by
    simp only [twoTo, Nat.pow_eq]
    omega
  have hfrac : f.toBits.toNat % twoTo 52 = fraction := by
    simp only [twoTo, Nat.pow_eq]
    omega
  unfold Parts.of
  simp only [hsign, hexp, hfrac, if_neg hexponent.ne]
  split
  · exact ⟨_, rfl⟩
  · exact ⟨_, rfl⟩

theorem Parts.of_infinity : Parts.of (packed (.infinity .positive)) = .infinite false := by
  decide +kernel

theorem Parts.of_zero : Parts.of (packed (.zero .positive)) = .finite false ⟨0, -1074, false⟩ := by
  decide +kernel

theorem pack_finite {m : Nat} (e : ℤ) (hpos : 0 < m) :
    UnpackedFloat.pack Format.binary64 (.finite .positive m e hpos) =
      if 2048 ≤ (e + 1075).toNat + 1 then packedInfinity Format.binary64 .positive
      else if m.log2 = 52 then
        packComponents Format.binary64 .positive (BitVec.ofNat 11 (e + 1075).toNat)
          (BitVec.ofNat 52 m)
      else packComponents Format.binary64 .positive 0#11 (BitVec.ofNat 52 m) := by
  have hbiased : e + ((Format.binary64.exponentBias : Nat) : ℤ) + ((52 : Nat) : ℤ) = e + 1075 := by
    simp only [Format.exponentBias]
    omega
  have hlog : m.log2 + 1 = Format.binary64.mantissaBits ↔ m.log2 = 52 := by
    simp only [Format.mantissaBits]
    omega
  rw [UnpackedFloat.pack]
  simp only [hbiased, hlog]

theorem Parts.of_packed {m : Nat} {e : ℤ} (hpos : 0 < m) (hm : m < 2 ^ 53) (hlow : -1074 ≤ e)
    (hhigh : e ≤ 971) (hplace : e = -1074 ∨ 2 ^ 52 ≤ m) :
    ∃ narrow, Parts.of (packed (.finite .positive m e hpos)) = .finite false ⟨m, e, narrow⟩ := by
  by_cases hnormal : 2 ^ 52 ≤ m
  · have hlog : m.log2 = 52 := (Nat.log2_eq_iff (by omega)).mpr ⟨hnormal, hm⟩
    have hbits : (packed (.finite .positive m e hpos)).toBits.toNat
        = (e + 1075).toNat * 2 ^ 52 + (m - 2 ^ 52) := by
      rw [toBits_packed, pack_finite, if_neg (by omega), if_pos hlog, toNat_packComponents,
        BitVec.toNat_ofNat, BitVec.toNat_ofNat]
      omega
    obtain ⟨narrow, hparts⟩ := Parts.of_bits hbits (by omega) (by omega)
    have hmantissa : 2 ^ 52 + (m - 2 ^ 52) = m := by omega
    have hexponent : ((e + 1075).toNat : ℤ) - 1075 = e := by omega
    rw [if_neg (by omega), hmantissa, hexponent] at hparts
    exact ⟨narrow, hparts⟩
  · obtain rfl : e = -1074 := hplace.resolve_right hnormal
    have hlog : m.log2 < 52 := (Nat.log2_lt (by omega)).mpr (by omega)
    have hbits : (packed (.finite .positive m (-1074) hpos)).toBits.toNat = 0 * 2 ^ 52 + m := by
      rw [toBits_packed, pack_finite, if_neg (by decide), if_neg (by omega), toNat_packComponents,
        BitVec.toNat_ofNat]
      simp
      omega
    obtain ⟨narrow, hparts⟩ := Parts.of_bits hbits (by omega) (by omega)
    exact ⟨narrow, hparts⟩

theorem packed_large {m : Nat} {e : ℤ} (hpos : 0 < m) (he : 972 ≤ e) :
    packed (.finite .positive m e hpos) = packed (.infinity .positive) := by
  have hpack : UnpackedFloat.pack Format.binary64 (.finite .positive m e hpos)
      = packedInfinity Format.binary64 .positive := by
    rw [pack_finite, if_pos (by omega)]
  simp only [packed, Float.Model.pack, hpack]
  rfl

/-! ## The nearest number -/

theorem Parts.bounds {f : Float} {negative : Bool} {x : Dyadic}
    (h : Parts.of f = .finite negative x) : x.mantissa < 2 ^ 53 ∧ -1074 ≤ x.exponent := by
  have hfraction : f.toBits.toNat % twoTo 52 < 2 ^ 52 := Nat.mod_lt _ (Nat.two_pow_pos 52)
  have hpower : twoTo 52 = 2 ^ 52 := rfl
  unfold Parts.of at h
  dsimp only at h
  split at h
  · split at h <;> cases h
  · split at h <;> obtain ⟨-, rfl⟩ := Parts.finite.inj h <;> dsimp only <;> omega

/-- The value of a finite number is a signed mantissa at an exponent. -/
theorem exists_of_exactValue? {g : Float} {value : ℚ} (h : exactValue? g = some value) :
    ∃ (k : ℤ) (e : ℤ), value = k * 2 ^ e ∧ k < 2 ^ 53 ∧ -1074 ≤ e := by
  rw [exactValue?] at h
  cases hparts : Parts.of g with
  | notANumber => simp [hparts] at h
  | infinite => simp [hparts] at h
  | finite negative x =>
    rw [hparts] at h
    obtain rfl := Option.some.inj h
    obtain ⟨hm, he⟩ := Parts.bounds hparts
    cases negative with
    | false => exact ⟨x.mantissa, x.exponent, by simp [Dyadic.value], by exact_mod_cast hm, he⟩
    | true => exact ⟨-x.mantissa, x.exponent, by simp [Dyadic.value], by omega, he⟩

/-- What is rounded at its last place is nearest among all finite numbers: those with finer places
are too small. -/
theorem nearest_of_roundsTo {v : ℚ} {t : ℤ} {n : Nat} (hplace : LastPlace v t)
    (h : RoundsTo (v / 2 ^ t) n) {g : Float} {value : ℚ} (hvalue : exactValue? g = some value) :
    |n * 2 ^ t - v| ≤ |value - v| ∧
      (value ≠ n * 2 ^ t → |n * 2 ^ t - v| = |value - v| → n % 2 = 0) := by
  obtain ⟨k, e, rfl, hk, he⟩ := exists_of_exactValue? hvalue
  have hunit := zpow_two_pos t
  -- distances in units of the last place
  have hscale : ∀ a : ℚ, |a * 2 ^ t - v| = |a - v / 2 ^ t| * 2 ^ t := by
    intro a
    rw [← abs_of_pos hunit, ← abs_mul, abs_of_pos hunit, sub_mul, div_mul_cancel₀ _ hunit.ne']
  by_cases hcoarse : t ≤ e
  · obtain ⟨shift, rfl⟩ : ∃ shift : Nat, e = t + shift := ⟨(e - t).toNat, by omega⟩
    have hwhole : (k : ℚ) * 2 ^ (t + (shift : ℤ)) = ((k * 2 ^ shift : ℤ) : ℚ) * 2 ^ t := by
      rw [zpow_two_add, zpow_natCast]
      push_cast
      ring
    rw [hwhole, hscale, hscale]
    obtain ⟨hnear, heven⟩ := h.nearest (k * 2 ^ shift)
    refine ⟨mul_le_mul_of_nonneg_right hnear hunit.le, fun hne heq => heven ?_ ?_⟩
    · rintro heq'
      exact hne (by rw [heq']; simp)
    · exact mul_right_cancel₀ hunit.ne' heq
  · -- finer than the last place: below the least mantissa that has its leading digit
    have hleast : 2 ^ (t + 52) ≤ v := hplace.above (by omega)
    have hsmall : (k : ℚ) * 2 ^ e < 2 ^ (t + 52) := by
      have hkq : (k : ℚ) < 2 ^ 53 := by exact_mod_cast hk
      calc (k : ℚ) * 2 ^ e < 2 ^ (53 : ℤ) * 2 ^ e := mul_lt_mul_of_pos_right hkq (zpow_two_pos e)
        _ = 2 ^ (53 + e) := (zpow_two_add 53 e).symm
        _ ≤ 2 ^ (t + 52) := zpow_two_mono (by omega)
    have hlead : |n * 2 ^ t - v| ≤ |(2 : ℚ) ^ (t + 52) - v| := by
      have hpower : (2 : ℚ) ^ (t + 52) = ((2 ^ 52 : ℤ) : ℚ) * 2 ^ t := by
        rw [zpow_two_add, mul_comm]
        norm_num
      rw [hpower, hscale, hscale]
      exact mul_le_mul_of_nonneg_right (h.nearest (2 ^ 52)).1 hunit.le
    have hfar : |(2 : ℚ) ^ (t + 52) - v| < |k * 2 ^ e - v| := by
      rw [abs_of_nonpos (by linarith), abs_of_neg (by linarith)]
      linarith
    exact ⟨(hlead.trans_lt hfar).le, fun _ heq => absurd heq (hlead.trans_lt hfar).ne⟩

theorem finiteBound_eq : finiteBound = (2 ^ 53 - 1 / 2) * 2 ^ (971 : ℤ) := by
  have hpower : (2 : ℚ) ^ (971 : ℤ) = 2 * 2 ^ (970 : ℤ) := by
    rw [show (971 : ℤ) = 1 + 970 from rfl, zpow_two_add, zpow_one]
  rw [finiteBound, hpower]
  ring

theorem zpow_lt_finiteBound {a : ℤ} (h : a ≤ 1023) : (2 : ℚ) ^ a < finiteBound := by
  calc (2 : ℚ) ^ a ≤ 2 ^ ((53 : ℤ) + 970) := zpow_two_mono h
    _ = 2 ^ (53 : ℤ) * 2 ^ (970 : ℤ) := zpow_two_add 53 970
    _ < (2 ^ 54 - 1) * 2 ^ (970 : ℤ) :=
      mul_lt_mul_of_pos_right (by norm_num) (zpow_two_pos 970)

theorem finiteBound_lt_zpow {a : ℤ} (h : 1024 ≤ a) : finiteBound < (2 : ℚ) ^ a := by
  calc (2 ^ 54 - 1) * (2 : ℚ) ^ (970 : ℤ) < 2 ^ (54 : ℤ) * 2 ^ (970 : ℤ) :=
        mul_lt_mul_of_pos_right (by norm_num) (zpow_two_pos 970)
    _ = 2 ^ ((54 : ℤ) + 970) := (zpow_two_add 54 970).symm
    _ ≤ 2 ^ a := zpow_two_mono h

/-- Whether rounding at the last place stays among the finite numbers. -/
theorem lt_finiteBound_iff {v : ℚ} {t : ℤ} {n : Nat} (hplace : LastPlace v t)
    (h : RoundsTo (v / 2 ^ t) n) : v < finiteBound ↔ t < 971 ∨ t = 971 ∧ n < 2 ^ 53 := by
  obtain ⟨hlow, hhigh⟩ := h.bounds
  obtain ⟨hle, -⟩ := h.le_of_lastPlace hplace
  rcases lt_trichotomy t 971 with ht | rfl | ht
  · exact iff_of_true (hplace.below.trans (zpow_lt_finiteBound (by omega))) (.inl ht)
  · have hunit := zpow_two_pos 971
    rw [finiteBound_eq, ← div_lt_iff₀ hunit]
    simp only [lt_irrefl, false_or, true_and]
    generalize v / 2 ^ (971 : ℤ) = w at h hlow hhigh
    constructor
    · intro hlt
      have hn : (n : ℚ) < ((2 ^ 53 : Nat) : ℚ) := by
        push_cast
        linarith
      exact Nat.cast_lt.mp hn
    · intro hn
      -- the greatest mantissa is odd, so halfway above it is rounded up
      by_cases htop : n = 2 ^ 53 - 1
      · subst htop
        have hne : w ≠ 2 ^ 53 - 1 / 2 := by
          rintro rfl
          have := h.even (by norm_num)
          omega
        push_cast at hhigh
        exact lt_of_le_of_ne (by linarith) hne
      · have hn : (n : ℚ) ≤ ((2 ^ 53 - 2 : Nat) : ℚ) := Nat.cast_le.mpr (by omega)
        push_cast at hn
        linarith
  · have hpast := (finiteBound_lt_zpow (by omega)).le.trans (hplace.above (by omega))
    exact iff_of_false (not_lt.mpr hpast) (by omega)

/-- What is settled stays what it is when it is packed, or becomes infinite. -/
theorem Parts.of_settled {v : ℚ} {t : ℤ} {n : Nat} (hplace : LastPlace v t)
    (h : RoundsTo (v / 2 ^ t) n) :
    (v < finiteBound ∧ ∃ x, Parts.of (packed (settled n t)) = .finite false x ∧
      x.value = n * 2 ^ t ∧ (n % 2 = 0 → x.mantissa % 2 = 0)) ∨
    finiteBound ≤ v ∧ Parts.of (packed (settled n t)) = .infinite false := by
  rw [← not_lt, lt_finiteBound_iff hplace h]
  obtain ⟨hle, hleading⟩ := h.le_of_lastPlace hplace
  have hleast := hplace.least
  by_cases hzero : n = 0
  · subst hzero
    have ht : t = -1074 := by
      by_contra hne
      have := hleading hne
      omega
    exact .inl ⟨.inl (by omega), _, Parts.of_zero, by simp [Dyadic.value], fun _ => rfl⟩
  by_cases hn : n < 2 ^ 53
  · rw [settled, dif_neg hzero, if_pos hn]
    by_cases ht : t ≤ 971
    · obtain ⟨narrow, hparts⟩ := Parts.of_packed (Nat.pos_of_ne_zero hzero) hn hleast ht
        ((em (t = -1074)).imp_right hleading)
      exact .inl ⟨by omega, _, hparts, rfl, id⟩
    · rw [packed_large _ (by omega)]
      exact .inr ⟨by omega, Parts.of_infinity⟩
  · obtain rfl : n = 2 ^ 53 := by omega
    rw [settled, dif_neg hzero, if_neg hn]
    by_cases ht : t ≤ 970
    · obtain ⟨narrow, hparts⟩ := Parts.of_packed (m := 2 ^ 52) (e := t + 1) (by decide) (by decide)
        (by omega) (by omega) (.inr (le_refl _))
      refine .inl ⟨by omega, _, hparts, ?_, fun _ => (by decide : 2 ^ 52 % 2 = 0)⟩
      rw [Dyadic.value, zpow_two_add]
      push_cast
      ring
    · rw [packed_large _ (by omega)]
      exact .inr ⟨by omega, Parts.of_infinity⟩

/-- Packing what is settled gives the nearest binary64 number. -/
theorem isNearest_settled {v : ℚ} {t : ℤ} {n : Nat} (hplace : LastPlace v t)
    (h : RoundsTo (v / 2 ^ t) n) : IsNearest v (packed (settled n t)) := by
  rcases Parts.of_settled hplace h with ⟨hbound, x, hparts, hvalue, heven⟩ | ⟨hbound, hparts⟩
  · refine .finite hbound hparts fun g value hg => ?_
    obtain ⟨hnear, htie⟩ := nearest_of_roundsTo hplace h hg
    rw [hvalue]
    exact ⟨hnear, fun hne heq => heven (htie hne heq)⟩
  · exact .infinite hbound hparts

/-- **Rounding.** What is computed to enough bits is rounded to the nearest binary64 number. -/
theorem isNearest_roundWithAccuracy {m : Nat} {e : ℤ} {accuracy : Accuracy} {v : ℚ}
    (h : StandsFor (.ofMantissaAndAccuracy m accuracy) (v / 2 ^ e))
    (hm : 2 ^ 52 ≤ m ∨ e ≤ -1074) :
    IsNearest v (packed (roundWithAccuracy Format.binary64 .positive m e accuracy)) := by
  obtain ⟨t, n, hplace, hrounds, heq⟩ := exists_settled h hm
  rw [heq]
  exact isNearest_settled hplace hrounds

end LifePath.Decimal
