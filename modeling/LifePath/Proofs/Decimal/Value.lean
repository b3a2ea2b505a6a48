import LifePath.Decimal.Numeral
import LifePath.Proofs.Decimal.Rounding
import LifePath.Proofs.Decimal.Shortest

/-!
# The value of a numeral

Reading a decimal number gives the binary64 number nearest to it, of all decimal numbers
(`Numeral.isNearest_toFloat`). The significand and a power of ten are multiplied or divided. Where
both are binary64 numbers, the one operation rounds their exact product or quotient; elsewhere both
are taken as whole numbers. What lies far beyond the format is told by the place of its leading
digit, and the two bounds for that place are past the finite numbers and below half of the least.
-/

namespace LifePath.Decimal

open Float.Model Float.Model.UnpackedFloat

/-! ## Operands -/

theorem toNat_unpackMantissa (f : Float) :
    (@unpackMantissa Format.binary64 f.toModel.toBits.toBitVec).toNat =
      f.toBits.toNat % twoTo 52 := by
  rw [unpackMantissa, BitVec.toNat_cast, BitVec.extractLsb_toNat]
  rfl

theorem toNat_unpackExponent (f : Float) :
    (@unpackExponent Format.binary64 f.toModel.toBits.toBitVec).toNat =
      f.toBits.toNat / twoTo 52 % twoTo 11 := by
  rw [unpackExponent, BitVec.toNat_cast, BitVec.extractLsb_toNat, Nat.shiftRight_eq_div_pow]
  rfl

theorem toNat_unpackSign (f : Float) :
    (@unpackSign Format.binary64 f.toModel.toBits.toBitVec).toNat =
      f.toBits.toNat / twoTo 63 := by
  rw [unpackSign, BitVec.toNat_cast, BitVec.extractLsb_toNat, Nat.shiftRight_eq_div_pow]
  have hlt : f.toBits.toNat < 2 ^ 64 := f.toBits.toNat_lt
  have hdiv : f.toBits.toNat / twoTo 63 < 2 := by
    simp only [twoTo, Nat.pow_eq]
    omega
  exact Nat.mod_eq_of_lt hdiv

/-- The sign that a number is decoded with. -/
def signOf (negative : Bool) : Sign := if negative then .negative else .positive

theorem ofBitVec_unpackSign (f : Float) :
    Sign.ofBitVec (@unpackSign Format.binary64 f.toModel.toBits.toBitVec) =
      signOf (f.toBits.toNat / twoTo 63 == 1) := by
  have hsign := toNat_unpackSign f
  generalize @unpackSign Format.binary64 f.toModel.toBits.toBitVec = bit at hsign
  rw [← hsign]
  rcases BitVec.eq_zero_or_eq_one bit with rfl | rfl <;> rfl

/-- Operations are computed from what is decoded. -/
theorem unpack_eq (f : Float) :
    f.toModel.unpack = match Parts.of f with
      | .notANumber => .notANumber
      | .infinite negative => .infinity (signOf negative)
      | .finite negative x =>
        if h : x.mantissa = 0 then .zero (signOf negative)
        else .finite (signOf negative) x.mantissa x.exponent (Nat.pos_of_ne_zero h) := by
  have hmantissa := toNat_unpackMantissa f
  have hexponent := toNat_unpackExponent f
  rw [Float.Model.unpack, UnpackedFloat.unpack, ofBitVec_unpackSign]
  unfold Parts.of
  simp only [← hmantissa, ← hexponent]
  have hfull : ∀ exponent : BitVec 11, exponent = -1#11 ↔ exponent.toNat = 2047 :=
    fun exponent => BitVec.toNat_inj.symm
  have hnone : ∀ exponent : BitVec 11, exponent = 0#11 ↔ exponent.toNat = 0 :=
    fun exponent => BitVec.toNat_inj.symm
  have hzero : ∀ mantissa : BitVec 52, mantissa = 0#52 ↔ mantissa.toNat = 0 :=
    fun mantissa => BitVec.toNat_inj.symm
  have hleading : ∀ mantissa : BitVec 52, (1#1 ++ mantissa).toNat = twoTo 52 + mantissa.toNat := by
    intro mantissa
    rw [BitVec.toNat_append, ← Nat.shiftLeft_add_eq_or_of_lt mantissa.isLt]
    rfl
  have hbias : (Format.binary64.exponentBias : ℤ) + (52 : Nat) = 1075 := by
    simp only [Format.exponentBias]
    rfl
  simp only [hfull, hnone, hzero, hleading, hbias]
  by_cases hexp : (@unpackExponent Format.binary64 f.toModel.toBits.toBitVec).toNat = 2047
  · by_cases hman : (@unpackMantissa Format.binary64 f.toModel.toBits.toBitVec).toNat = 0
    · simp only [hexp, hman, ↓reduceIte]
    · simp only [hexp, hman, ↓reduceIte]
  · by_cases hsub : (@unpackExponent Format.binary64 f.toModel.toBits.toBitVec).toNat = 0
    · simp only [hexp, ↓reduceIte]
      simp only [hsub, ↓reduceIte]
      split <;> rfl
    · have hne : twoTo 52 + (@unpackMantissa Format.binary64 f.toModel.toBits.toBitVec).toNat ≠ 0 :=
        (Nat.add_pos_left (Nat.two_pow_pos 52) _).ne'
      simp only [hexp, hsub, hne, ↓reduceIte, ↓reduceDIte]

/-- A finite number without a sign, other than zero, is computed from as it is decoded. -/
theorem unpack_of_finite {f : Float} {x : Dyadic} (h : Parts.of f = .finite false x)
    (hpos : 0 < x.mantissa) :
    f.toModel.unpack = .finite .positive x.mantissa x.exponent hpos := by
  rw [unpack_eq, h]
  exact dif_neg hpos.ne'

/-! ## Signs -/

theorem zero_eq : (0.0 : Float) = packed (.zero .positive) := by decide +kernel

/-- What a number without a minus is rounded to is a number. -/
theorem IsNearest.isNaN_eq {v : ℚ} {f : Float} (h : IsNearest v f) : f.isNaN = false := by
  show f.toModel.unpack.isNaN = false
  rw [unpack_eq]
  rcases h with ⟨-, hparts, -⟩ | ⟨-, hparts⟩ <;> rw [hparts]
  · dsimp only
    split <;> rfl
  · rfl

/-- What a number without a minus is rounded to is not negative. -/
theorem IsNearest.not_neg {v : ℚ} {f : Float} (h : IsNearest v f) : ¬ f < 0.0 := by
  have hzero : (0.0 : Float).toModel.unpack = .zero .positive := by
    rw [unpack_eq, zero_eq, Parts.of_zero]
    rfl
  intro hlt
  have hmodel : f.toModel.unpack.lt (0.0 : Float).toModel.unpack = true := of_decide_eq_true hlt
  rw [hzero, unpack_eq] at hmodel
  rcases h with ⟨-, hparts, -⟩ | ⟨-, hparts⟩ <;> rw [hparts] at hmodel
  · dsimp only at hmodel
    split at hmodel <;> cases hmodel
  · cases hmodel

/-! ## Products and quotients -/

/-- A quotient of whole numbers with its remainder, in units of the divisor. -/
theorem standsFor_quotient (n : Nat) {d : Nat} (hd : 0 < d) :
    StandsFor (.ofMantissaAndAccuracy (n / d) (accuracyOfFraction (n % d) d)) (n / d : ℚ) := by
  have hdq : (0 : ℚ) < d := Nat.cast_pos.mpr hd
  have hsplit : (n : ℚ) / d = (n / d : Nat) + (n % d : Nat) / d := by
    rw [div_eq_iff hdq.ne', add_mul, div_mul_cancel₀ _ hdq.ne']
    exact_mod_cast (Nat.div_add_mod' n d).symm
  have hlt : ((n % d : Nat) : ℚ) < d := Nat.cast_lt.mpr (Nat.mod_lt n hd)
  rw [hsplit]
  generalize n % d = r at hlt
  generalize n / d = q
  rw [accuracyOfFraction]
  split
  · next hzero => simp [hzero, StandsFor, ExtendedMantissa.ofMantissaAndAccuracy]
  · next hne =>
    have hr : (0 : ℚ) < r := Nat.cast_pos.mpr (Nat.pos_of_ne_zero hne)
    have hpos : 0 < (r : ℚ) / d := div_pos hr hdq
    have hone : (r : ℚ) / d < 1 := (div_lt_one hdq).mpr hlt
    cases hcmp : compare (2 * r) d with
    | lt =>
      have hhalf : ((2 * r : Nat) : ℚ) < d := Nat.cast_lt.mpr (Nat.compare_eq_lt.mp hcmp)
      push_cast at hhalf
      have hless : (r : ℚ) / d < 1 / 2 := (div_lt_iff₀ hdq).mpr (by linarith)
      show (q : ℚ) < q + r / d ∧ q + (r : ℚ) / d < q + 1 / 2
      exact ⟨by linarith, by linarith⟩
    | eq =>
      have hhalf : ((2 * r : Nat) : ℚ) = d := by rw [Nat.compare_eq_eq.mp hcmp]
      push_cast at hhalf
      have hequal : (r : ℚ) / d = 1 / 2 := (div_eq_iff hdq.ne').mpr (by linarith)
      show (q : ℚ) + r / d = q + 1 / 2
      rw [hequal]
    | gt =>
      have hhalf : (d : ℚ) < ((2 * r : Nat) : ℚ) := Nat.cast_lt.mpr (Nat.compare_eq_gt.mp hcmp)
      push_cast at hhalf
      have hmore : 1 / 2 < (r : ℚ) / d := (lt_div_iff₀ hdq).mpr (by linarith)
      show (q : ℚ) + 1 / 2 < q + r / d ∧ q + (r : ℚ) / d < q + 1
      exact ⟨by linarith, by linarith⟩

/-- The quotient of two finite numbers is rounded once. -/
theorem isNearest_div {m₁ m₂ : Nat} (e₁ e₂ : ℤ) (h₁ : 0 < m₁) (h₂ : 0 < m₂) :
    IsNearest (m₁ * 2 ^ e₁ / (m₂ * 2 ^ e₂)) (packed (UnpackedFloat.div Format.binary64
      (.finite .positive m₁ e₁ h₁) (.finite .positive m₂ e₂ h₂))) := by
  obtain ⟨e, he⟩ : ∃ e, e = min (e₁ - e₂) (max
      (totalExponent m₁ e₁ - totalExponent m₂ e₂ - 53) (-1074)) := ⟨_, rfl⟩
  obtain ⟨s, hs⟩ : ∃ s : Nat, e₁ - e₂ - e = s := ⟨(e₁ - e₂ - e).toNat, by omega⟩
  have hcore : divCore Format.binary64 m₁ e₁ m₂ e₂ =
      (m₁ <<< s / m₂, e, accuracyOfFraction (m₁ <<< s % m₂) m₂) := by
    rw [divCore, targetExponent_eq, ← he, hs, Int.toNat_natCast]
  rw [UnpackedFloat.div, hcore]
  refine isNearest_roundWithAccuracy ?_ ?_
  · have hvalue : (m₁ : ℚ) * 2 ^ e₁ / (m₂ * 2 ^ e₂) / 2 ^ e = (m₁ <<< s : Nat) / m₂ := by
      have hexp : (2 : ℚ) ^ e₁ = 2 ^ e₂ * 2 ^ e * 2 ^ s := by
        rw [← zpow_two_add, ← zpow_natCast, ← zpow_two_add]
        congr 1
        omega
      have h₂ne := (zpow_two_pos e₂).ne'
      have hne := (zpow_two_pos e).ne'
      have hm₂ : (m₂ : ℚ) ≠ 0 := Nat.cast_ne_zero.mpr h₂.ne'
      rw [Nat.shiftLeft_eq, hexp]
      push_cast
      field_simp
    rw [hvalue]
    exact standsFor_quotient _ h₂
  · by_cases hleast : e ≤ -1074
    · exact .inr hleast
    · -- the dividend is shifted until the quotient has its 53 places
      refine .inl ((Nat.le_div_iff_mul_le h₂).mpr ?_)
      have hshift : m₂.log2 + 53 ≤ m₁.log2 + s := by
        simp only [totalExponent] at he
        omega
      calc 2 ^ 52 * m₂ ≤ 2 ^ 52 * 2 ^ (m₂.log2 + 1) :=
            Nat.mul_le_mul_left _ Nat.lt_log2_self.le
        _ = 2 ^ (m₂.log2 + 53) := by rw [← Nat.pow_add]; congr 1; omega
        _ ≤ 2 ^ (m₁.log2 + s) := Nat.pow_le_pow_right (by decide) hshift
        _ ≤ m₁ <<< s := by
          rw [Nat.pow_add, Nat.shiftLeft_eq]
          exact Nat.mul_le_mul_right _ (Nat.log2_self_le h₁.ne')

/-- The product of two finite numbers is rounded once, if its mantissa is long enough. -/
theorem isNearest_mul {m₁ m₂ : Nat} (e₁ e₂ : ℤ) (h₁ : 0 < m₁) (h₂ : 0 < m₂)
    (h : 2 ^ 52 ≤ m₁ * m₂) :
    IsNearest (m₁ * 2 ^ e₁ * (m₂ * 2 ^ e₂)) (packed (UnpackedFloat.mul Format.binary64
      (.finite .positive m₁ e₁ h₁) (.finite .positive m₂ e₂ h₂))) := by
  show IsNearest _ (packed (roundWithAccuracy Format.binary64 .positive (m₁ * m₂) (e₁ + e₂) .exact))
  refine isNearest_roundWithAccuracy ?_ (.inl h)
  have hvalue : (m₁ : ℚ) * 2 ^ e₁ * (m₂ * 2 ^ e₂) / 2 ^ (e₁ + e₂) = (m₁ * m₂ : Nat) := by
    rw [div_eq_iff (zpow_two_pos _).ne', zpow_two_add]
    push_cast
    ring
  exact hvalue

theorem div_eq (f g : Float) :
    f / g = packed (UnpackedFloat.div Format.binary64 f.toModel.unpack g.toModel.unpack) := rfl

theorem mul_eq (f g : Float) :
    f * g = packed (UnpackedFloat.mul Format.binary64 f.toModel.unpack g.toModel.unpack) := rfl

/-! ## Whole numbers -/

theorem Dyadic.value_of_toNat? {x : Dyadic} {n : Nat} (h : x.toNat? = some n) : x.value = n := by
  by_cases hexp : x.exponent ≤ 0
  · have hpower : (2 : ℚ) ^ (-x.exponent).toNat * 2 ^ x.exponent = 1 := by
      rw [← zpow_natCast, ← zpow_two_add, Int.toNat_of_nonneg (by omega), Int.add_left_neg,
        zpow_zero]
    rw [value, mantissa_eq hexp h, twoTo, Nat.pow_eq]
    push_cast
    rw [mul_assoc, hpower, mul_one]
  · have hpower : (2 : ℚ) ^ x.exponent = 2 ^ x.exponent.toNat := by
      rw [← zpow_natCast, Int.toNat_of_nonneg (by omega)]
    rw [toNat?, if_pos (by omega)] at h
    obtain rfl := Option.some.inj h
    rw [value, hpower, twoTo, Nat.pow_eq]
    push_cast
    rfl

/-- Rounding leaves a whole number as it is. -/
theorem RoundsTo.eq_of_whole {k n : Nat} (h : RoundsTo k n) : n = k := by
  have hnear := (h.nearest k).1
  simp only [Int.cast_natCast, sub_self, abs_zero] at hnear
  exact_mod_cast sub_eq_zero.mp (abs_nonpos_iff.mp hnear)

/-- A whole number of at most 53 binary places is put into the last place that a number of its size
has. -/
theorem toFloat_eq {m : Nat} (hpos : 0 < m) (hm : m < 2 ^ 53) :
    m.toUInt64.toFloat = packed (roundWithAccuracy Format.binary64 .positive
      (m <<< (52 - m.log2)) (-(52 - m.log2 : Nat)) .exact) := by
  have hlog : m.log2 < 53 := (Nat.log2_lt hpos.ne').mpr hm
  have hword : m.toUInt64.toNat = m := Nat.mod_eq_of_lt (by omega)
  have htarget : (0 - Format.binary64.targetExponent (totalExponent m 0)).toNat = 52 - m.log2 := by
    rw [targetExponent_totalExponent]
    omega
  show packed (UnpackedFloat.ofNat Format.binary64 m.toUInt64.toNat) = _
  rw [hword, UnpackedFloat.ofNat, UnpackedFloat.ofInt, UnpackedFloat.normalize,
    Int.compare_eq_gt.mpr (by omega), Int.toNat_natCast]
  show packed (UnpackedFloat.round Format.binary64 .positive m 0) = _
  rw [UnpackedFloat.round, decreaseExponent, htarget, Int.zero_sub]

/-- A whole number of at most 53 binary places is a binary64 number. -/
theorem exists_parts_toFloat {m : Nat} (hpos : 0 < m) (hm : m < 2 ^ 53) :
    ∃ x, Parts.of m.toUInt64.toFloat = .finite false x ∧ x.value = m := by
  have hlog : m.log2 < 53 := (Nat.log2_lt hpos.ne').mpr hm
  have hstands : StandsFor (.ofMantissaAndAccuracy (m <<< (52 - m.log2)) .exact)
      ((m : ℚ) / 2 ^ (-(52 - m.log2 : Nat) : ℤ)) := by
    show (m : ℚ) / 2 ^ (-(52 - m.log2 : Nat) : ℤ) = (m <<< (52 - m.log2) : Nat)
    rw [zpow_neg, div_inv_eq_mul, zpow_natCast, Nat.shiftLeft_eq]
    push_cast
    rfl
  have hlong : 2 ^ 52 ≤ m <<< (52 - m.log2) := by
    rw [Nat.shiftLeft_eq]
    calc 2 ^ 52 = 2 ^ m.log2 * 2 ^ (52 - m.log2) := by rw [← Nat.pow_add]; congr 1; omega
      _ ≤ m * 2 ^ (52 - m.log2) := Nat.mul_le_mul_right _ (Nat.log2_self_le hpos.ne')
  obtain ⟨t, n, hplace, hrounds, hsettled⟩ := exists_settled hstands (.inl hlong)
  have hsize : (m : ℚ) < 2 ^ (53 : ℤ) := by exact_mod_cast hm
  have ht : t ≤ 0 := by
    by_contra hlt
    have habove := (hplace.above (by omega)).trans_lt hsize
    have := (zpow_lt_zpow_iff_right₀ (by norm_num : (1 : ℚ) < 2)).mp habove
    omega
  -- in whole numbers of last places there is nothing to round
  have hwhole : (m : ℚ) / 2 ^ t = (m * 2 ^ (-t).toNat : Nat) := by
    rw [div_eq_iff (zpow_two_pos t).ne']
    push_cast
    rw [mul_assoc, ← zpow_natCast, ← zpow_two_add, Int.toNat_of_nonneg (by omega),
      Int.add_left_neg, zpow_zero, mul_one]
  have hexact : (n : ℚ) * 2 ^ t = m := by
    rw [hwhole] at hrounds
    rw [hrounds.eq_of_whole, ← hwhole, div_mul_cancel₀ _ (zpow_two_pos t).ne']
  rw [toFloat_eq hpos hm, hsettled]
  rcases Parts.of_settled hplace hrounds with ⟨-, x, hparts, hvalue, -⟩ | ⟨hbound, -⟩
  · exact ⟨x, hparts, hvalue.trans hexact⟩
  · exact absurd (hsize.trans (zpow_lt_finiteBound (by decide))) (not_lt.mpr hbound)

/-- The powers of ten that are kept ready are exact. -/
theorem wholeValue?_powerOfTen :
    ∀ e : Fin 23, wholeValue? Float.exactlyRepresentablePowersOfTen[e] = some (10 ^ e.val) := by
  decide +kernel

theorem exists_parts_powerOfTen (e : Fin 23) :
    ∃ x, Parts.of Float.exactlyRepresentablePowersOfTen[e] = .finite false x ∧
      x.value = 10 ^ e.val ∧ 2 ^ 52 ≤ x.mantissa := by
  obtain ⟨negative, x, n, hparts, hwhole, hn⟩ :=
    wholeValue?_eq_some_iff.mp (wholeValue?_powerOfTen e)
  have hpos : (0 : ℤ) < 10 ^ e.val := by positivity
  obtain rfl : negative = false := by
    cases negative with
    | false => rfl
    | true =>
      rw [if_pos rfl] at hn
      omega
  obtain rfl : n = 10 ^ e.val := by
    rw [if_neg Bool.false_ne_true] at hn
    exact_mod_cast hn.symm
  refine ⟨x, hparts, by simp [Dyadic.value_of_toNat? hwhole], ?_⟩
  rcases Parts.least_or_leading hparts with hleast | hleading
  · -- a whole number has more places than there are at the least exponent
    have hm := Dyadic.mantissa_eq (by omega) hwhole
    have hplaces : 53 ≤ (-x.exponent).toNat := by omega
    have hlong : 2 ^ 53 ≤ x.mantissa := by
      rw [hm]
      calc 2 ^ 53 ≤ twoTo (-x.exponent).toNat := Nat.pow_le_pow_right (by decide) hplaces
        _ ≤ 10 ^ e.val * twoTo (-x.exponent).toNat :=
          Nat.le_mul_of_pos_left _ (Nat.pow_pos (by decide))
    exact absurd (Parts.bounds hparts).1 (Nat.not_lt.mpr hlong)
  · exact hleading

/-! ## Decimal numbers -/

theorem mantissa_pos_of_value {x : Dyadic} (h : 0 < x.value) : 0 < x.mantissa := by
  rw [Nat.pos_iff_ne_zero]
  intro hzero
  rw [Dyadic.value, hzero, Nat.cast_zero, zero_mul] at h
  exact lt_irrefl _ h

/-- Where both the significand and the power of ten are binary64 numbers, one operation rounds. -/
theorem isNearest_ready {m : Nat} (hpos : 0 < m) (hm : m < 2 ^ 53) (e : Fin 23) :
    IsNearest (m * 10 ^ e.val) (m.toUInt64.toFloat * Float.exactlyRepresentablePowersOfTen[e]) ∧
      IsNearest (m / 10 ^ e.val)
        (m.toUInt64.toFloat / Float.exactlyRepresentablePowersOfTen[e]) := by
  obtain ⟨x, hx, hxvalue⟩ := exists_parts_toFloat hpos hm
  obtain ⟨y, hy, hyvalue, hylong⟩ := exists_parts_powerOfTen e
  have hxpos : 0 < x.mantissa := mantissa_pos_of_value (by rw [hxvalue]; exact_mod_cast hpos)
  have hypos : 0 < y.mantissa := by omega
  rw [mul_eq, div_eq, unpack_of_finite hx hxpos, unpack_of_finite hy hypos, ← hxvalue, ← hyvalue]
  exact ⟨isNearest_mul _ _ hxpos hypos (hylong.trans (Nat.le_mul_of_pos_left _ hxpos)),
    isNearest_div _ _ hxpos hypos⟩

theorem isNearest_zero {v : ℚ} (hlow : 0 ≤ v) (hhigh : v < 2 ^ (-1075 : ℤ)) :
    IsNearest v (packed (.zero .positive)) := by
  have hunit := zpow_two_pos (-1074)
  have hhalf : v / 2 ^ (-1074 : ℤ) < 1 / 2 := by
    have hpower : (2 : ℚ) ^ (-1075 : ℤ) = 1 / 2 * 2 ^ (-1074 : ℤ) := by
      rw [show (-1075 : ℤ) = -1 + -1074 from rfl, zpow_two_add]
      norm_num
    rw [div_lt_iff₀ hunit, ← hpower]
    exact hhigh
  have hplace : LastPlace v (-1074) :=
    ⟨le_refl _, hhigh.trans_le (zpow_two_mono (by decide)), fun hne => absurd rfl hne⟩
  have hrounds : RoundsTo (v / 2 ^ (-1074 : ℤ)) 0 := .of_lt (by
    rw [Nat.cast_zero, sub_zero, abs_of_nonneg (div_nonneg hlow hunit.le)]
    exact hhalf)
  exact isNearest_settled hplace hrounds

theorem isNearest_infinity {v : ℚ} (h : finiteBound ≤ v) :
    IsNearest v (packed (.infinity .positive)) := .infinite h Parts.of_infinity

/-- A power of ten is further from one than three times as high a power of two. -/
theorem zpow_two_le_zpow_ten {e : ℤ} (h : 0 ≤ e) : (2 : ℚ) ^ (3 * e) ≤ 10 ^ e := by
  rw [zpow_mul]
  exact zpow_le_zpow_left₀ h (by positivity) (by norm_num)

theorem zpow_ten_le_zpow_two {e : ℤ} (h : e ≤ 0) : (10 : ℚ) ^ e ≤ 2 ^ (3 * e) := by
  have hinv := inv_anti₀ (zpow_two_pos _) (zpow_two_le_zpow_ten (show 0 ≤ -e by omega))
  rwa [← zpow_neg, ← zpow_neg, neg_neg, mul_neg, neg_neg] at hinv

/-- Elsewhere both are taken as whole numbers. -/
theorem isNearest_model {m : Nat} (hpos : 0 < m) (e : ℤ) :
    IsNearest (m * 10 ^ e) (packed (UnpackedFloat.ofScientific Format.binary64 m e)) := by
  have hone : (1 : ℚ) ≤ m := Nat.one_le_cast.mpr hpos
  have hexponents : (2 : ℤ) ^ Format.binary64.exponentBits = 2048 := by decide
  rw [UnpackedFloat.ofScientific, dif_neg hpos.ne', hexponents]
  split
  · next hlarge =>
    -- past every finite number
    refine isNearest_infinity ?_
    calc finiteBound ≤ 2 ^ (3 * e) := (finiteBound_lt_zpow (by omega)).le
      _ ≤ 10 ^ e := zpow_two_le_zpow_ten (by omega)
      _ ≤ m * 10 ^ e := le_mul_of_one_le_left (by positivity) hone
  split
  · next hsmall =>
    -- nearer to zero than to any other number
    refine isNearest_zero (by positivity) ?_
    have hlog : (m : ℚ) < 2 ^ (m.log2 + 1) := by exact_mod_cast Nat.lt_log2_self
    calc (m : ℚ) * 10 ^ e < 2 ^ (m.log2 + 1) * 10 ^ e :=
          mul_lt_mul_of_pos_right hlog (by positivity)
      _ ≤ 2 ^ (m.log2 + 1) * 2 ^ (3 * e) :=
          mul_le_mul_of_nonneg_left (zpow_ten_le_zpow_two (by omega)) (by positivity)
      _ = 2 ^ (((m.log2 + 1 : Nat) : ℤ) + 3 * e) := by rw [zpow_two_add, zpow_natCast]
      _ ≤ 2 ^ (-1075 : ℤ) := zpow_two_mono (by push_cast; omega)
  split
  · next hnonneg =>
    have hvalue : (m : ℚ) * (10 : ℚ) ^ e =
        ((m <<< 53 : Nat) : ℚ) * 2 ^ (-53 : ℤ) * (((10 ^ e.toNat : Nat) : ℚ) * 2 ^ (0 : ℤ)) := by
      have hpower : (10 : ℚ) ^ e = 10 ^ e.toNat := by
        rw [← zpow_natCast, Int.toNat_of_nonneg hnonneg]
      have hshift : (2 : ℚ) ^ 53 * 2 ^ (-53 : ℤ) = 1 := by norm_num
      rw [hpower, Nat.shiftLeft_eq, Nat.cast_mul, Nat.cast_pow, Nat.cast_pow, Nat.cast_ofNat,
        Nat.cast_ofNat, mul_assoc (m : ℚ), hshift, mul_one, zpow_zero, mul_one]
    rw [hvalue]
    refine isNearest_mul _ _ _ _ ?_
    have hlong : 2 ^ 52 ≤ m <<< 53 := by
      rw [Nat.shiftLeft_eq]
      omega
    exact hlong.trans (Nat.le_mul_of_pos_right _ (Nat.pow_pos (by decide)))
  · next hneg =>
    have hvalue : (m : ℚ) * (10 : ℚ) ^ e =
        m * 2 ^ (0 : ℤ) / (((10 ^ (-e).toNat : Nat) : ℚ) * 2 ^ (0 : ℤ)) := by
      have hpower : (10 : ℚ) ^ e = (10 ^ (-e).toNat)⁻¹ := by
        rw [← zpow_natCast, Int.toNat_of_nonneg (by omega), ← zpow_neg, neg_neg]
      rw [hpower]
      push_cast
      rw [mul_one, mul_one, div_eq_mul_inv]
    rw [hvalue]
    exact isNearest_div _ _ _ _

/-- A number in scientific form is read as the nearest binary64 number. -/
theorem isNearest_ofScientific {m : Nat} (hpos : 0 < m) (e : ℤ) :
    IsNearest (m * 10 ^ e) (Float.ofScientific m (e < 0) e.natAbs) := by
  rw [Float.ofScientific]
  split
  · next hready =>
    obtain ⟨hm, he⟩ := hready
    obtain ⟨hproduct, hquotient⟩ := isNearest_ready hpos hm ⟨e.natAbs, by omega⟩
    by_cases hneg : e < 0
    · have hvalue : (m : ℚ) * 10 ^ e = m / 10 ^ e.natAbs := by
        rw [div_eq_mul_inv, ← zpow_natCast, ← zpow_neg]
        congr 2
        omega
      rw [hvalue]
      simp only [hneg, decide_true, ↓reduceIte]
      exact hquotient
    · have hvalue : (m : ℚ) * 10 ^ e = m * 10 ^ e.natAbs := by
        rw [← zpow_natCast]
        congr 2
        omega
      rw [hvalue]
      simp only [hneg, decide_false, Bool.false_eq_true, ↓reduceIte]
      exact hproduct
  · have hexponent : (if decide (e < 0) = true then Int.negOfNat e.natAbs
        else Int.ofNat e.natAbs) = e := by
      split
      · next hneg =>
        rw [decide_eq_true_eq] at hneg
        rw [Int.negOfNat_eq, Int.ofNat_eq_natCast]
        omega
      · next hneg =>
        rw [decide_eq_true_eq] at hneg
        rw [Int.ofNat_eq_natCast]
        omega
    rw [hexponent]
    exact isNearest_model hpos e

namespace Numeral

/-- The place of the leading digit tells the size up to a power of ten. -/
theorem leading_bounds {n : Nat} (hpos : 0 < n) (scale : ℤ) :
    (10 : ℚ) ^ ((Nat.toDigits 10 n).length + scale - 1) ≤ n * 10 ^ scale ∧
      (n : ℚ) * 10 ^ scale < 10 ^ ((Nat.toDigits 10 n).length + scale) := by
  have hfits (k : Nat) (hk : 0 < k) := Nat.length_toDigits_le_iff (n := n) (by decide : 1 < 10) hk
  have hlength : 0 < (Nat.toDigits 10 n).length := Nat.length_toDigits_pos
  generalize (Nat.toDigits 10 n).length = length at hfits hlength
  have hscale : (0 : ℚ) < 10 ^ scale := by positivity
  have hten : (10 : ℚ) ≠ 0 := by norm_num
  have hhigh : n < 10 ^ length := (hfits length hlength).mp (le_refl _)
  have hlow : 10 ^ (length - 1) ≤ n := by
    by_cases hone : length = 1
    · rw [hone]
      exact hpos
    · exact not_lt.mp fun hlt => absurd ((hfits (length - 1) (by omega)).mpr hlt) (by omega)
  have hlowq : (10 : ℚ) ^ (length - 1) ≤ n := by exact_mod_cast hlow
  have hhighq : (n : ℚ) < 10 ^ length := by exact_mod_cast hhigh
  constructor
  · have hsplit : (length : ℤ) + scale - 1 = (length - 1 : Nat) + scale := by omega
    rw [hsplit, zpow_add₀ hten, zpow_natCast]
    exact mul_le_mul_of_nonneg_right hlowq hscale.le
  · rw [zpow_add₀ hten, zpow_natCast]
    exact mul_lt_mul_of_pos_right hhighq hscale

/-- **Magnitudes** are read as the nearest binary64 number. -/
theorem isNearest_magnitude (significand : Nat) (scale : ℤ) :
    IsNearest (significand * 10 ^ scale) (magnitude significand scale) := by
  have hinfinity : (1.0 / 0.0 : Float) = packed (.infinity .positive) := by decide +kernel
  rw [magnitude]
  rcases Nat.eq_zero_or_pos significand with rfl | hpos
  · rw [zero_eq, Nat.cast_zero, zero_mul]
    exact isNearest_zero (le_refl 0) (zpow_two_pos _)
  obtain ⟨hlow, hhigh⟩ := leading_bounds hpos scale
  generalize ((Nat.toDigits 10 significand).length : ℤ) + scale = leading at hlow hhigh ⊢
  split
  · next hsmall =>
    have hleading : leading < -400 := by simpa [hpos.ne'] using hsmall
    rw [zero_eq]
    refine isNearest_zero (by positivity) ?_
    calc (significand : ℚ) * 10 ^ scale < 10 ^ leading := hhigh
      _ ≤ 2 ^ (3 * leading) := zpow_ten_le_zpow_two (by omega)
      _ ≤ 2 ^ (-1075 : ℤ) := zpow_two_mono (by omega)
  split
  · next hlarge =>
    rw [hinfinity]
    refine isNearest_infinity ?_
    calc finiteBound ≤ 2 ^ (3 * (leading - 1)) := (finiteBound_lt_zpow (by omega)).le
      _ ≤ 10 ^ (leading - 1) := zpow_two_le_zpow_ten (by omega)
      _ ≤ significand * 10 ^ scale := hlow
  · exact isNearest_ofScientific hpos scale

/-- A numeral without a minus is read as the nearest binary64 number. -/
theorem isNearest_toFloat {n : Numeral} (h : n.negative = false) :
    IsNearest (n.significand * 10 ^ n.scale) n.toFloat := by
  rw [toFloat, h]
  exact isNearest_magnitude _ _

end Numeral

end LifePath.Decimal
