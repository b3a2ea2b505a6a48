import LifePath.Proofs.Decimal.Positional

/-!
# The fewest digits of a whole number

Below `2 ^ 53` the neighbours of a whole number are at most one away, so of the whole numbers none
but itself lies halfway to them or nearer (`Dyadic.isNat_of_readsBack`). The search for the fewest
digits that name it goes from great powers of ten to small ones. Down to the ones, whatever it finds
is therefore the number; and at the ones it does find it (`Dyadic.shortest_isNat`).

Above, this need not be so: the fewest digits of a greater number may name it and be another one.
-/

namespace LifePath.Decimal

namespace Dyadic

variable {x : Dyadic} {n : Nat}

/-- A whole number with binary places behind the point has zeros in them. -/
theorem mantissa_eq (hexp : x.exponent ≤ 0) (h : x.toNat? = some n) :
    x.mantissa = n * twoTo (-x.exponent).toNat := by
  rw [toNat?] at h
  split at h
  · next hnonneg =>
    obtain rfl := Option.some.inj h
    have hzero : x.exponent = 0 := by omega
    simp [hzero]
  · split at h
    · next hmod =>
      obtain rfl := Option.some.inj h
      exact (Nat.div_mul_cancel (Nat.dvd_of_mod_eq_zero hmod)).symm
    · cases h

theorem twoTo_pos (k : Nat) : 0 < twoTo k := Nat.pow_pos (by decide)

/-- A whole number is nearer to itself than to any other. -/
theorem eq_of_within_half {d n k : Nat} (hk : 0 < k) (hlow : 4 * (n * k) - 2 ≤ d * (4 * k))
    (hhigh : d * (4 * k) ≤ 4 * (n * k) + 2) : d = n := by
  rcases Nat.lt_trichotomy d n with hlt | heq | hgt
  · have hstep : (d + 1) * (4 * k) ≤ n * (4 * k) := Nat.mul_le_mul_right _ hlt
    rw [Nat.add_mul, Nat.mul_left_comm n 4 k] at hstep
    omega
  · exact heq
  · have hstep : (n + 1) * (4 * k) ≤ d * (4 * k) := Nat.mul_le_mul_right _ hgt
    rw [Nat.add_mul, Nat.mul_left_comm n 4 k] at hstep
    omega

/-- For a number with no binary place above the ones, whole numbers are compared with its
neighbourhood in quarters of its last binary place. -/
theorem compareScaled_quarters (hexp : x.exponent ≤ 0) {d : Scaled} (hd : 0 ≤ d.exponent)
    (bound : Nat) :
    compareScaled d.digits d.exponent bound (x.exponent - 2) =
      compare (d.digits * tenTo d.exponent.toNat * (4 * twoTo (-x.exponent).toNat)) bound := by
  have hplaces : (-(x.exponent - 2)).toNat = (-x.exponent).toNat + 2 := by omega
  have hup : (x.exponent - 2).toNat = 0 := by omega
  have hdown : (-d.exponent).toNat = 0 := by omega
  rw [compareScaled, hplaces, hup, hdown]
  simp only [twoTo, tenTo, Nat.pow_eq, Nat.pow_add, Nat.pow_zero, Nat.mul_one]
  rw [Nat.mul_comm (2 ^ (-x.exponent).toNat) (2 ^ 2)]

/-- The only decimal without places behind the point that names a whole number is the number. -/
theorem isNat_of_readsBack (hexp : x.exponent ≤ 0) (h : x.toNat? = some n) {d : Scaled}
    (hd : 0 ≤ d.exponent) (hread : x.readsBack d = true) : d.IsNat n := by
  have hm := mantissa_eq hexp h
  have hdown : (-d.exponent).toNat = 0 := by omega
  simp only [readsBack, compareScaled_quarters hexp hd, Bool.and_eq_true, Bool.or_eq_true,
    beq_iff_eq, Nat.compare_eq_gt, Nat.compare_eq_lt, Nat.compare_eq_eq, hm] at hread
  have hwithin := eq_of_within_half (n := n) (d := d.digits * tenTo d.exponent.toNat)
    (twoTo_pos (-x.exponent).toNat) (by split at hread <;> omega) (by split at hread <;> omega)
  rw [Scaled.isNat_iff, hdown, hwithin]
  simp

theorem nearestAt?_spec {e : Int} {d : Scaled} (h : x.nearestAt? e = some d) :
    x.readsBack d = true ∧ d.exponent = e := by
  unfold nearestAt? at h
  dsimp only at h
  split at h
  · next hbelow habove =>
    split at h <;> obtain rfl := Option.some.inj h
    · exact ⟨hbelow, rfl⟩
    · exact ⟨habove, rfl⟩
  · next hbelow _ =>
    obtain rfl := Option.some.inj h
    exact ⟨hbelow, rfl⟩
  · next _ habove =>
    obtain rfl := Option.some.inj h
    exact ⟨habove, rfl⟩
  · cases h

theorem floorAt_ones (hexp : x.exponent ≤ 0) (h : x.toNat? = some n) : x.floorAt 0 = n := by
  have hup : x.exponent.toNat = 0 := by omega
  rw [floorAt, hup, mantissa_eq hexp h]
  simp only [twoTo, tenTo, Nat.pow_eq, Nat.pow_zero, Nat.mul_one, Int.neg_zero, Int.toNat_zero]
  exact Nat.mul_div_cancel _ (twoTo_pos _)

/-- At the ones the number itself is found. -/
theorem nearestAt?_ones (hexp : x.exponent ≤ 0) (h : x.toNat? = some n) (hn : 0 < n) :
    (x.nearestAt? 0).isSome := by
  have hm := mantissa_eq hexp h
  have hpos : 0 < x.mantissa := hm ▸ Nat.mul_pos hn (twoTo_pos _)
  have hquarters :
      n * tenTo (0 : Int).toNat * (4 * twoTo (-x.exponent).toNat) = 4 * x.mantissa := by
    rw [hm, Nat.mul_left_comm]
    simp
  have hread : x.readsBack ⟨n, 0⟩ = true := by
    have hcompare := compareScaled_quarters hexp (d := ⟨n, 0⟩) (Int.le_refl 0)
    simp only [hquarters] at hcompare
    simp only [readsBack, hcompare, Bool.and_eq_true, Bool.or_eq_true, beq_iff_eq,
      Nat.compare_eq_gt, Nat.compare_eq_lt]
    refine ⟨.inl ?_, .inl (by omega)⟩
    split <;> omega
  rw [nearestAt?, floorAt_ones hexp h, hread]
  split
  · split <;> rfl
  · rfl
  · next hnone _ => cases hnone
  · next hnone _ => cases hnone

/-- The greatest power of ten that is tried is above the ones, and so is within the number of
powers that are. -/
theorem decimalOrder_bounds (hexp : x.exponent ≤ 0) (h : x.toNat? = some n) (hn : 0 < n)
    (hlt : n < twoTo 53) : 1 ≤ x.decimalOrder ∧ x.decimalOrder ≤ 17 := by
  have hm := mantissa_eq hexp h
  have hne : x.mantissa ≠ 0 := by
    rw [hm]
    exact (Nat.mul_pos hn (twoTo_pos _)).ne'
  have hlow : (-x.exponent).toNat ≤ x.mantissa.log2 := by
    rw [Nat.le_log2 hne, hm]
    exact Nat.le_mul_of_pos_left _ hn
  have hhigh : x.mantissa.log2 < 53 + (-x.exponent).toNat := by
    rw [Nat.log2_lt hne, hm, Nat.pow_add]
    exact Nat.mul_lt_mul_of_pos_right hlt (twoTo_pos _)
  -- one is not above the number, so the order is at least that of ten
  have hone : (compareScaled 1 0 x.mantissa x.exponent == .gt) = false := by
    have hup : x.exponent.toNat = 0 := by omega
    have hle : twoTo (-x.exponent).toNat ≤ x.mantissa := hm ▸ Nat.le_mul_of_pos_left _ hn
    simpa [compareScaled, hup, Nat.compare_eq_gt] using hle
  have hlog : 0 ≤ (x.mantissa.log2 : Int) + x.exponent ∧
      (x.mantissa.log2 : Int) + x.exponent ≤ 52 := by omega
  rw [decimalOrder]
  dsimp only
  generalize hguess : ((x.mantissa.log2 : Int) + x.exponent) * 30103 / 100000 = guess
  have hrange : 0 ≤ guess ∧ guess ≤ 15 := by omega
  split
  · next habove =>
    have hne : guess ≠ 0 := by
      rintro rfl
      rw [hone] at habove
      cases habove
    omega
  · split <;> omega

/-- A search that finds something at a place ends there or earlier. -/
theorem findSome?_range {α : Type} {f : Nat → Option α} {i k : Nat} (hi : i < k)
    (h : (f i).isSome) : ∃ j a, j ≤ i ∧ (List.range k).findSome? f = some a ∧ f j = some a := by
  induction k with
  | zero => omega
  | succ k ih =>
    rw [List.range_succ, List.findSome?_append]
    rcases Nat.lt_succ_iff_lt_or_eq.mp hi with hlt | rfl
    · obtain ⟨j, a, hj, hfound, ha⟩ := ih hlt
      exact ⟨j, a, hj, by rw [hfound]; rfl, ha⟩
    · cases hfound : (List.range i).findSome? f with
      | some a =>
        obtain ⟨j, hj, ha⟩ := List.exists_of_findSome?_eq_some hfound
        exact ⟨j, a, Nat.le_of_lt (List.mem_range.mp hj), rfl, ha⟩
      | none =>
        obtain ⟨a, ha⟩ := Option.isSome_iff_exists.mp h
        exact ⟨i, a, Nat.le_refl i, by simp [ha], ha⟩

/-- **The fewest digits of a whole number** below `2 ^ 53` are the number. -/
theorem shortest_isNat (hexp : x.exponent ≤ 0) (h : x.toNat? = some n) (hn : 0 < n)
    (hlt : n < twoTo 53) : x.shortest.IsNat n := by
  obtain ⟨hlow, hhigh⟩ := decimalOrder_bounds hexp h hn hlt
  obtain ⟨place, hplace⟩ : ∃ place : Nat, x.decimalOrder = (place : Int) + 1 :=
    ⟨(x.decimalOrder - 1).toNat, by omega⟩
  have hones : (x.nearestAt? (x.decimalOrder - (place + 1 : Nat))).isSome := by
    have hzero : x.decimalOrder - (place + 1 : Nat) = 0 := by omega
    rw [hzero]
    exact nearestAt?_ones hexp h hn
  -- what is found first is found at the ones or above
  obtain ⟨tried, d, htried, hfound, hd⟩ := findSome?_range (k := 17)
    (f := fun i => x.nearestAt? (x.decimalOrder - (i + 1 : Nat))) (by omega) hones
  obtain ⟨hread, hexponent⟩ := nearestAt?_spec hd
  have hshortest : x.shortest = d := by
    rw [shortest, hfound]
    rfl
  rw [hshortest]
  exact isNat_of_readsBack hexp h (by omega) hread

end Dyadic

/-- The mantissa of a binary64 number has its leading digit, unless the number is at the least
exponent. -/
theorem Parts.least_or_leading {f : Float} {negative : Bool} {x : Dyadic}
    (h : Parts.of f = .finite negative x) : x.exponent = -1074 ∨ twoTo 52 ≤ x.mantissa := by
  unfold Parts.of at h
  dsimp only at h
  split at h
  · split at h <;> cases h
  · split at h <;> obtain ⟨-, rfl⟩ := Parts.finite.inj h
    · exact .inl rfl
    · exact .inr (Nat.le_add_right ..)

/-- A binary64 number that is whole and below `2 ^ 53` has no binary place above the ones. -/
theorem Parts.exponent_le_zero {f : Float} {negative : Bool} {x : Dyadic} {n : Nat}
    (h : Parts.of f = .finite negative x) (hwhole : x.toNat? = some n) (hlt : n < twoTo 53) :
    x.exponent ≤ 0 := by
  rcases least_or_leading h with hleast | hleading
  · omega
  · by_contra hexp
    rw [Dyadic.toNat?, if_pos (by omega)] at hwhole
    obtain rfl := Option.some.inj hwhole
    have htwo : 2 ≤ twoTo x.exponent.toNat := Nat.le_self_pow (by omega) 2
    have hsize : twoTo 52 * 2 ≤ x.mantissa * twoTo x.exponent.toNat :=
      Nat.mul_le_mul hleading htwo
    have hpower : twoTo 53 = twoTo 52 * 2 := rfl
    omega

/-! ## The text of a whole number -/

namespace Dyadic

theorem mantissa_eq_zero_iff {x : Dyadic} {n : Nat} (h : x.toNat? = some n) :
    x.mantissa = 0 ↔ n = 0 := by
  rw [toNat?] at h
  split at h
  · obtain rfl := Option.some.inj h
    rw [Nat.mul_eq_zero, or_iff_left (twoTo_pos _).ne']
  · split at h
    · next hmod =>
      obtain rfl := Option.some.inj h
      have hmul := Nat.div_mul_cancel (Nat.dvd_of_mod_eq_zero hmod)
      constructor
      · intro hm
        rw [hm, Nat.zero_div]
      · intro hdiv
        rw [← hmul, hdiv, Nat.zero_mul]
    · cases h

end Dyadic

/-- A whole number is a natural number with a sign. -/
theorem wholeValue?_eq_some_iff {f : Float} {i : Int} :
    wholeValue? f = some i ↔
      ∃ negative x n, Parts.of f = .finite negative x ∧ x.toNat? = some n ∧
        i = if negative then -(n : Int) else n := by
  rw [wholeValue?]
  cases hparts : Parts.of f with
  | notANumber => simp
  | infinite => simp
  | finite negative x =>
    constructor
    · intro h
      obtain ⟨m, hm, rfl⟩ := Option.map_eq_some_iff.mp h
      obtain ⟨n, hwhole, hn⟩ := Option.bind_eq_some_iff.mp hm
      obtain rfl := Option.some.inj hn
      exact ⟨negative, x, n, rfl, hwhole, rfl⟩
    · rintro ⟨negative, x, n, heq, hwhole, rfl⟩
      obtain ⟨rfl, rfl⟩ := Parts.finite.inj heq
      simp [hwhole]

theorem natAbs_signed (negative : Bool) (n : Nat) :
    (if negative then -(n : Int) else n).natAbs = n := by
  cases negative <;> simp

/-- When the text of a whole number is that of the integer it is. -/
theorem floatText_eq_intText_iff {f : Float} {negative : Bool} {x : Dyadic} {n : Nat}
    (h : Parts.of f = .finite negative x) (hwhole : x.toNat? = some n) :
    floatText f = intText (if negative then -(n : Int) else n) ↔
      if n = 0 then negative = false else x.shortest.IsNat n := by
  have hzero := Dyadic.mantissa_eq_zero_iff hwhole
  rw [floatText, h]
  dsimp only
  by_cases hn : n = 0
  · subst hn
    rw [if_pos (hzero.mpr rfl), if_pos rfl]
    cases negative <;> decide
  · have hpos : 0 < n := Nat.pos_of_ne_zero hn
    rw [if_neg (fun hm => hn (hzero.mp hm)), if_neg hn,
      ← Scaled.positional_eq_toDigits_iff hpos]
    cases negative with
    | false =>
      have hdigits : intDigits (n : Int) = Nat.toDigits 10 n := by
        rw [intDigits, if_neg (by omega), Int.natAbs_natCast]
      simp [intText, hdigits, String.ofList_inj]
    | true =>
      have hdigits : intDigits (-(n : Int)) = '-' :: Nat.toDigits 10 n := by
        rw [intDigits, if_pos (by omega), Int.natAbs_neg, Int.natAbs_natCast]
      simp [intText, hdigits, String.ofList_inj]

/-- A number whose text is that of an integer below `2 ^ 63` in magnitude: it is whole, it is not
the negative zero, and the fewest digits that name it are all its digits. -/
def WrittenInFull (f : Float) : Prop :=
  ∃ negative x n, Parts.of f = .finite negative x ∧ x.toNat? = some n ∧ n < twoTo 63 ∧
    if n = 0 then negative = false else x.shortest.IsNat n

end LifePath.Decimal
