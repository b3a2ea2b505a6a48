import LifePath.Chance.Uniform

/-!
# What uniform draws can give

A draw below a bound takes the first word of the stream that is not refused (`below_eq`). There is
one: among the words of a seed is the word zero, which no bound refuses, and it comes before the
tries are used up. So every draw gives a number below its bound, and each such number is what some
word gives (`exists_word_below`). Shuffling rearranges a list, and leaves it as it is for some
words (`shuffle_perm`, `exists_words_shuffle`).
-/

namespace LifePath.Chance

open LifePath.Decimal

/-! ## Words that are not refused -/

theorem twoTo_32 : twoTo 32 = 4294967296 := rfl

theorem half_lt (word : UInt64) : half word < twoTo 32 := by
  have hword := word.toNat_lt
  rw [half, twoTo_32]
  omega

theorem scaled?_lt {bound h n : Nat} (hbound : 0 < bound) (hh : h < twoTo 32)
    (hn : scaled? bound h = some n) : n < bound := by
  unfold scaled? at hn
  split at hn
  · obtain rfl := Option.some.inj hn
    exact Nat.div_lt_of_lt_mul (Nat.mul_lt_mul_of_pos_right hh hbound)
  · simp at hn

theorem scaled?_zero (bound : Nat) : scaled? bound 0 = some 0 := by
  simp [scaled?]

/-- The first half whose product with the bound reaches a number is not refused: the lower half of
the product is below the bound, and the zone of refusal begins above that. -/
theorem exists_scaled? {bound n : Nat} (hn : n < bound) (hbound : bound < twoTo 32) :
    ∃ h, h < twoTo 32 ∧ scaled? bound h = some n := by
  have hpos : 0 < bound := by omega
  have hzone : bound - 1 ≤ zone bound := by
    have hpow : 0 < twoTo (31 - bound.log2) := Nat.two_pow_pos _
    have hmul := Nat.mul_le_mul_left bound hpow
    unfold zone
    omega
  -- the least half with `n * twoTo 32 ≤ h * bound`
  have hdiv := Nat.div_add_mod (n * twoTo 32 + (bound - 1)) bound
  have hmod := Nat.mod_lt (n * twoTo 32 + (bound - 1)) hpos
  generalize (n * twoTo 32 + (bound - 1)) / bound = h at hdiv
  generalize (n * twoTo 32 + (bound - 1)) % bound = rest at hdiv hmod
  rw [Nat.mul_comm] at hdiv
  rw [twoTo_32] at hdiv hbound
  have hlow : h * bound % 4294967296 = h * bound - n * 4294967296 := by omega
  have hhigh : h * bound / 4294967296 = n := by omega
  rw [twoTo_32]
  refine ⟨h, ?_, ?_⟩
  · have hproduct : h * bound < 4294967296 * bound := by omega
    exact Nat.lt_of_mul_lt_mul_right hproduct
  · rw [scaled?, twoTo_32, hlow, hhigh, if_pos (by omega)]

/-! ## A draw below a bound -/

theorem skip_succ (c : Chance) (n : Nat) : c.skip (n + 1) = c.next.2.skip n := rfl

theorem skip_words (words : List UInt64) (seed : UInt64) (n : Nat) :
    (Chance.skip ⟨words, seed⟩ (words.length + n)) = Chance.skip ⟨[], seed⟩ n := by
  induction words with
  | nil => rw [List.length_nil, Nat.zero_add]
  | cons word rest ih =>
    rw [List.length_cons, Nat.add_right_comm, skip_succ]
    exact ih

theorem skip_seed (n : Nat) :
    ∀ seed : UInt64, Chance.skip ⟨[], seed⟩ n = ⟨[], seed + UInt64.ofNat n * counterStep⟩ := by
  induction n with
  | zero => intro seed; simp [skip]
  | succ n ih =>
    intro seed
    have hnext : (Chance.next ⟨[], seed⟩).2 = ⟨[], seed + counterStep⟩ := rfl
    rw [skip_succ, hnext, ih, UInt64.ofNat_add]
    generalize counterStep = step
    have hone : UInt64.ofNat 1 = 1 := rfl
    have hsum : seed + step + UInt64.ofNat n * step = seed + (UInt64.ofNat n + 1) * step := by grind
    rw [hone, hsum]

/-- The counter comes to zero, for its step is odd, and zero is mixed to zero. -/
theorem exists_skip_zero (c : Chance) :
    ∃ k < c.words.length + twoTo 64, (c.skip k).next.1 = 0 := by
  obtain ⟨words, seed⟩ := c
  let steps : UInt64 := -(seed * 0xF1DE83E19937733D) - 1
  refine ⟨words.length + steps.toNat, ?_, ?_⟩
  · have hlt := steps.toNat_lt
    show words.length + steps.toNat < words.length + twoTo 64
    exact Nat.add_lt_add_left hlt _
  · have hinverse : (0xF1DE83E19937733D : UInt64) * counterStep = 1 := by decide
    have hcounter : seed + UInt64.ofNat steps.toNat * counterStep + counterStep = 0 := by
      rw [UInt64.ofNat_toNat]
      grind
    rw [skip_words, skip_seed]
    show mix (seed + UInt64.ofNat steps.toNat * counterStep + counterStep) = 0
    rw [hcounter]
    decide

/-- The tries of a draw go through the stream up to the first word that is not refused. -/
theorem belowWithin_eq {bound : Nat} :
    ∀ (tries : Nat) (c : Chance) {k : Nat}, k < tries →
      (scaled? bound (half (c.skip k).next.1)).isSome →
      ∃ k n, (∀ j < k, scaled? bound (half (c.skip j).next.1) = none) ∧
        scaled? bound (half (c.skip k).next.1) = some n ∧
        belowWithin tries bound c = (n, c.skip (k + 1)) := by
  intro tries
  induction tries with
  | zero => intro c k hk; omega
  | succ tries ih =>
    intro c k hk hsome
    rw [belowWithin]
    cases hfirst : scaled? bound (half c.next.1) with
    | some n => exact ⟨0, n, by omega, hfirst, by simp only [hfirst]; rfl⟩
    | none =>
      -- the first word is refused, so the one that is not comes later
      obtain ⟨k, rfl⟩ : ∃ k', k = k' + 1 := by
        cases k with
        | zero => rw [skip, hfirst] at hsome; simp at hsome
        | succ k => exact ⟨k, rfl⟩
      rw [skip_succ] at hsome
      obtain ⟨k', n, hrefused, hn, hdraw⟩ := ih c.next.2 (by omega) hsome
      refine ⟨k' + 1, n, ?_, hn, ?_⟩
      · intro j hj
        cases j with
        | zero => exact hfirst
        | succ j => exact hrefused j (by omega)
      · simp only [hfirst, hdraw]
        rfl

/-- A draw comes to an end: it takes the first word that is not refused, and those before it. -/
theorem below_eq (c : Chance) (bound : Nat) :
    ∃ k n, (∀ j < k, scaled? bound (half (c.skip j).next.1) = none) ∧
      scaled? bound (half (c.skip k).next.1) = some n ∧ c.below bound = (n, c.skip (k + 1)) := by
  obtain ⟨k, hk, hzero⟩ := c.exists_skip_zero
  refine belowWithin_eq (c.words.length + twoTo 64) c hk ?_
  have hhalf : half 0 = 0 := rfl
  rw [hzero, hhalf, scaled?_zero]
  rfl

theorem below_lt (c : Chance) {bound : Nat} (hbound : 0 < bound) : (c.below bound).1 < bound := by
  obtain ⟨k, n, -, hn, hdraw⟩ := c.below_eq bound
  rw [hdraw]
  exact scaled?_lt hbound (half_lt _) hn

theorem below_of_scaled? {bound n : Nat} {word : UInt64} (h : scaled? bound (half word) = some n)
    (words : List UInt64) (seed : UInt64) :
    below ⟨word :: words, seed⟩ bound = (n, ⟨words, seed⟩) := by
  have htries : ∀ tries, belowWithin (tries + 1) bound ⟨word :: words, seed⟩ =
      (n, ⟨words, seed⟩) := by
    intro tries
    rw [belowWithin]
    simp only [next, h]
  rw [below, List.length_cons, Nat.add_right_comm]
  exact htries _

/-- Each number below the bound is drawn with one word, whatever comes after it. -/
theorem exists_word_below {bound n : Nat} (hn : n < bound) (hbound : bound < twoTo 32) :
    ∃ word, ∀ words seed, below ⟨word :: words, seed⟩ bound = (n, ⟨words, seed⟩) := by
  obtain ⟨h, hh, hscaled⟩ := exists_scaled? hn hbound
  have hhalf : half (UInt64.ofNat (h * twoTo 32)) = h := by
    rw [twoTo_32] at hh
    have hlt : h * twoTo 32 < 2 ^ 64 := by
      rw [twoTo_32]
      omega
    rw [half, UInt64.toNat_ofNat_of_lt' hlt, Nat.mul_div_cancel h (by decide)]
  rw [← hhalf] at hscaled
  exact ⟨_, below_of_scaled? hscaled⟩

/-! ## A draw from a range -/

theorem between_eq_below (c : Chance) {low high : Int}
    (hbound : (high - low + 1).toNat < twoTo 32) :
    c.between low high = (c.below (high - low + 1).toNat).map (fun n : Nat => low + n) id := by
  rw [between]
  rcases c.below (high - low + 1).toNat with ⟨n, rest⟩
  split
  · rfl
  · contradiction

theorem between_mem (c : Chance) {low high : Int} (h : low ≤ high)
    (hbound : (high - low + 1).toNat < twoTo 32) :
    low ≤ (c.between low high).1 ∧ (c.between low high).1 ≤ high := by
  have hlt := c.below_lt (show 0 < (high - low + 1).toNat by omega)
  rw [c.between_eq_below hbound, Prod.map_fst]
  omega

theorem exists_word_between {low high n : Int} (hlow : low ≤ n) (hhigh : n ≤ high)
    (hbound : (high - low + 1).toNat < twoTo 32) :
    ∃ word, ∀ words seed, between ⟨word :: words, seed⟩ low high = (n, ⟨words, seed⟩) := by
  have hn : (n - low).toNat < (high - low + 1).toNat := by omega
  obtain ⟨word, hword⟩ := exists_word_below hn hbound
  refine ⟨word, fun words seed => ?_⟩
  have hsum : low + ((n - low).toNat : Int) = n := by omega
  rw [between_eq_below _ hbound, hword, Prod.map_apply, hsum]
  rfl

/-! ## Shuffling -/

theorem swapIfInBounds_perm {α : Type} (items : Array α) (i j : Nat) :
    (items.swapIfInBounds i j).Perm items := by
  rw [Array.swapIfInBounds_def]
  split
  · split
    · exact Array.swap_perm ..
    · exact .refl _
  · exact .refl _

theorem shuffleFrom_perm {α : Type} (draw : Chance → Nat → Nat × Chance) (last : Nat) :
    ∀ (items : Array α) (c : Chance), (shuffleFrom draw items last c).1.Perm items := by
  induction last with
  | zero => intro items c; exact .refl _
  | succ last ih =>
    intro items c
    rw [shuffleFrom]
    exact (ih _ _).trans (swapIfInBounds_perm ..)

theorem shuffle_perm {α : Type} (items : List α) (c : Chance) :
    (c.shuffle items).1.Perm items := by
  have h := shuffleFrom_perm below (items.length - 1) items.toArray c
  rw [Array.perm_iff_toList_perm] at h
  exact h

theorem swapIfInBounds_self {α : Type} (items : Array α) (i : Nat) :
    items.swapIfInBounds i i = items := by
  rw [Array.swapIfInBounds_def]
  split
  · simp [Array.swap_def]
  · rfl

/-- If each position can be drawn with one word, then the last one can be drawn every time, and
nothing is exchanged. -/
theorem exists_words_shuffleFrom {α : Type} {draw : Chance → Nat → Nat × Chance} {limit : Nat}
    (hdraw : ∀ bound < limit, ∀ n < bound,
      ∃ word, ∀ words seed, draw ⟨word :: words, seed⟩ bound = (n, ⟨words, seed⟩))
    (items : Array α) :
    ∀ last : Nat, last + 1 < limit → ∃ words, ∀ more seed,
      shuffleFrom draw items last ⟨words ++ more, seed⟩ = (items, ⟨more, seed⟩) := by
  intro last
  induction last with
  | zero => intro _; exact ⟨[], fun more seed => rfl⟩
  | succ last ih =>
    intro hlast
    obtain ⟨words, hwords⟩ := ih (by omega)
    obtain ⟨word, hword⟩ := hdraw (last + 2) hlast (last + 1) (by omega)
    refine ⟨word :: words, fun more seed => ?_⟩
    simp only [List.cons_append, shuffleFrom, hword, swapIfInBounds_self, hwords]

/-- For some words, shuffling leaves a list as it is. -/
theorem exists_words_shuffle {α : Type} (items : List α) (h : items.length < twoTo 32) :
    ∃ words, ∀ more seed, Chance.shuffle items ⟨words ++ more, seed⟩ = (items, ⟨more, seed⟩) := by
  have hlast : items.length - 1 + 1 < twoTo 32 := by
    rw [twoTo_32] at h ⊢
    omega
  obtain ⟨words, hwords⟩ := exists_words_shuffleFrom
    (fun bound hbound n hn => exists_word_below hn hbound) items.toArray (items.length - 1) hlast
  refine ⟨words, fun more seed => ?_⟩
  rw [shuffle, hwords]

end LifePath.Chance
