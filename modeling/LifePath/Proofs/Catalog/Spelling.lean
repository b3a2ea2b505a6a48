import LifePath.Proofs.Catalog.Reference
import LifePath.Proofs.Decimal.Literal
import LifePath.Proofs.Decimal.Value

/-!
# Which texts are references

A text is a reference if it can be taken apart into blanks, an id, blanks, and maybe a star with a
weight behind it (`Reference.Spelling`). It can be in one way only (`Spelling.eq_of_chars_eq`): each
part is the longest run of its characters, since what follows begins with another kind of character.
The reader takes these runs, so it reads every spelling as what it spells (`Spelling.parts?_chars`),
and whatever it reads has a spelling (`exists_spelling_of_parts?`).

The weight is the number that the digits stand for, rounded to the nearest binary64 number
(`Spelling.isNearest_weight`).
-/

namespace LifePath.Reference

open LifePath.Text LifePath.Decimal

/-! ## Spellings -/

/-- What stands behind the star of a reference. -/
structure WeightPart where
  gap : List Char
  whole : List Char
  /-- the digits behind the point, if there is one -/
  places : Option (List Char)
  right : List Char

/-- A point with digits behind it, if there is one. -/
def fractionChars : Option (List Char) → List Char
  | none => []
  | some places => '.' :: places

namespace WeightPart

def chars (p : WeightPart) : List Char := p.gap ++ (p.whole ++ (fractionChars p.places ++ p.right))

/-- Whether the parts are made of the characters that they are for. -/
structure IsProper (p : WeightPart) : Prop where
  gap : ∀ c ∈ p.gap, isBlank c = true
  whole : IsDigits p.whole
  places : ∀ places ∈ p.places, IsDigits places
  right : ∀ c ∈ p.right, isBlank c = true

/-- The number that the digits stand for. -/
def value (p : WeightPart) : ℚ :=
  digitsValue (p.whole ++ p.places.getD []) / 10 ^ (p.places.getD []).length

/-- The binary64 number that is read. -/
def weight (p : WeightPart) : Float := Numeral.toFloat ⟨false, p.whole, p.places, none⟩

end WeightPart

/-- The parts of the text of a reference, from left to right. -/
structure Spelling where
  left : List Char
  id : List Char
  gap : List Char
  weightPart : Option WeightPart

namespace Spelling

/-- The star with what stands behind it. -/
def tail (s : Spelling) : List Char :=
  match s.weightPart with
  | none => []
  | some p => '*' :: p.chars

def chars (s : Spelling) : List Char := s.left ++ (s.id ++ (s.gap ++ s.tail))

/-- Whether the parts are made of the characters that they are for. -/
structure IsProper (s : Spelling) : Prop where
  left : ∀ c ∈ s.left, isBlank c = true
  id_ne_nil : s.id ≠ []
  id : ∀ c ∈ s.id, c ≠ '*' ∧ isBlank c = false
  gap : ∀ c ∈ s.gap, isBlank c = true
  weightPart : ∀ p ∈ s.weightPart, p.IsProper

/-- Whether a text is made of the parts. -/
def Spells (s : Spelling) (text : String) : Prop := s.IsProper ∧ text.toList = s.chars

/-- The number that the weight stands for: one, if there is none. -/
def value (s : Spelling) : ℚ := (s.weightPart.map WeightPart.value).getD 1

/-- The binary64 number that is read. -/
def weight (s : Spelling) : Float := (s.weightPart.map WeightPart.weight).getD plainWeight

end Spelling

/-! ## One spelling -/

/-- Two runs at the front of a text are one, if what follows each begins with another kind of
character. -/
theorem run_eq_run {test : Char → Bool} {run rest run' rest' : List Char}
    (h : run ++ rest = run' ++ rest') (hrun : ∀ c ∈ run, test c = true)
    (hrun' : ∀ c ∈ run', test c = true) (hrest : ∀ c ∈ rest.head?, test c = false)
    (hrest' : ∀ c ∈ rest'.head?, test c = false) : run = run' ∧ rest = rest' := by
  obtain ⟨htake, hdrop⟩ := run_append hrun hrest
  obtain ⟨htake', hdrop'⟩ := run_append hrun' hrest'
  rw [h] at htake hdrop
  exact ⟨htake.symm.trans htake', hdrop.symm.trans hdrop'⟩

theorem head?_mark {test : Char → Bool} {mark : Char} {rest : List Char}
    (h : test mark = false) : ∀ c ∈ (mark :: rest).head?, test c = false := by
  intro c hc
  obtain rfl : mark = c := by simpa using hc
  exact h

/-- What begins with a run begins with one of its characters. -/
theorem head?_run {test : Char → Bool} {run rest : List Char} (hne : run ≠ [])
    (hrun : ∀ c ∈ run, test c = false) : ∀ c ∈ (run ++ rest).head?, test c = false := by
  obtain ⟨first, others, rfl⟩ := List.exists_cons_of_ne_nil hne
  exact head?_mark (hrun first (List.mem_cons_self ..))

section

variable {places places' : Option (List Char)} {right right' : List Char}

theorem isDigit_head?_of_blank (hright : ∀ c ∈ right, isBlank c = true) :
    ∀ c ∈ right.head?, c.isDigit = false :=
  fun c hc => isDigit_of_isBlank (hright c (List.mem_of_mem_head? hc))

/-- Blanks do not begin with a point. -/
theorem head?_blank_ne (hright : ∀ c ∈ right, isBlank c = true) : right.head? ≠ some '.' := by
  intro hhead
  have hblank := hright '.' (List.mem_of_mem_head? hhead)
  revert hblank
  decide

theorem isDigit_head?_fractionChars (hright : ∀ c ∈ right, isBlank c = true) :
    ∀ c ∈ (fractionChars places ++ right).head?, c.isDigit = false := by
  cases places with
  | none => exact isDigit_head?_of_blank hright
  | some places => exact head?_mark (by decide)

/-- There is a point in both or in neither. -/
theorem fraction_eq_fraction (h : fractionChars places ++ right = fractionChars places' ++ right')
    (hplaces : ∀ digits ∈ places, IsDigits digits) (hplaces' : ∀ digits ∈ places', IsDigits digits)
    (hright : ∀ c ∈ right, isBlank c = true) (hright' : ∀ c ∈ right', isBlank c = true) :
    places = places' ∧ right = right' := by
  cases places with
  | none =>
    cases places' with
    | none => exact ⟨rfl, h⟩
    | some digits' =>
      have hpoint : right.head? = some '.' := by
        rw [show right = _ from h]
        rfl
      exact absurd hpoint (head?_blank_ne hright)
  | some digits =>
    cases places' with
    | none =>
      have hpoint : right'.head? = some '.' := by
        rw [show right' = _ from h.symm]
        rfl
      exact absurd hpoint (head?_blank_ne hright')
    | some digits' =>
      obtain ⟨rfl, rfl⟩ := run_eq_run (List.cons.inj h).2 (hplaces digits rfl).digits
        (hplaces' digits' rfl).digits (isDigit_head?_of_blank hright)
        (isDigit_head?_of_blank hright')
      exact ⟨rfl, rfl⟩

end

namespace WeightPart

variable {p q : WeightPart}

theorem isBlank_head?_whole (hp : p.IsProper) :
    ∀ c ∈ (p.whole ++ (fractionChars p.places ++ p.right)).head?, isBlank c = false :=
  head?_run hp.whole.ne_nil fun c hc => isBlank_of_isDigit (hp.whole.digits c hc)

theorem eq_of_chars_eq (hp : p.IsProper) (hq : q.IsProper) (h : p.chars = q.chars) : p = q := by
  obtain ⟨hgap, hrest⟩ := run_eq_run h hp.gap hq.gap (isBlank_head?_whole hp)
    (isBlank_head?_whole hq)
  obtain ⟨hwhole, hrest⟩ := run_eq_run hrest hp.whole.digits hq.whole.digits
    (isDigit_head?_fractionChars hp.right) (isDigit_head?_fractionChars hq.right)
  obtain ⟨hplaces, hright⟩ := fraction_eq_fraction hrest hp.places hq.places hp.right hq.right
  cases p
  cases q
  simp_all

/-- What stands behind the star is read as its weight. -/
theorem written (p : WeightPart) (hp : p.IsProper) :
    WrittenWeight (p.whole ++ fractionChars p.places) p.weight := by
  have hplaces := hp.places
  rw [weight]
  generalize p.places = places at hplaces
  cases places with
  | none =>
    rw [fractionChars, List.append_nil]
    exact .whole hp.whole.ne_nil hp.whole.digits
  | some places =>
    have hdigits := hplaces places rfl
    exact .fraction hp.whole.ne_nil hp.whole.digits hdigits.ne_nil hdigits.digits

theorem isNearest_weight (p : WeightPart) : IsNearest p.value p.weight := by
  have hvalue : p.value = (Numeral.significand ⟨false, p.whole, p.places, none⟩ : ℚ) *
      10 ^ Numeral.scale ⟨false, p.whole, p.places, none⟩ := by
    rw [value, Numeral.significand, Numeral.scale, Option.getD_none, Int.zero_sub, zpow_neg,
      zpow_natCast, div_eq_mul_inv]
  rw [hvalue]
  exact Numeral.isNearest_toFloat rfl

end WeightPart

namespace Spelling

variable {s t : Spelling} {text : String}

theorem isIdChar_iff {c : Char} : isIdChar c = true ↔ c ≠ '*' ∧ isBlank c = false := by
  simp [isIdChar]

theorem head?_tail (s : Spelling) {test : Char → Bool} (hstar : test '*' = false) :
    ∀ c ∈ s.tail.head?, test c = false := by
  rw [tail]
  split
  · simp
  · exact head?_mark hstar

theorem isIdChar_head?_gap (hs : s.IsProper) :
    ∀ c ∈ (s.gap ++ s.tail).head?, isIdChar c = false := by
  by_cases hgap : s.gap = []
  · rw [hgap]
    exact s.head?_tail (by decide)
  · exact head?_run hgap fun c hc => isIdChar_of_isBlank (hs.gap c hc)

theorem isBlank_head?_id (hs : s.IsProper) :
    ∀ c ∈ (s.id ++ (s.gap ++ s.tail)).head?, isBlank c = false :=
  head?_run hs.id_ne_nil fun c hc => (hs.id c hc).2

/-- A text has one spelling at most. -/
theorem eq_of_chars_eq (hs : s.IsProper) (ht : t.IsProper) (h : s.chars = t.chars) : s = t := by
  obtain ⟨hleft, hrest⟩ := run_eq_run h hs.left ht.left (isBlank_head?_id hs) (isBlank_head?_id ht)
  obtain ⟨hid, hrest⟩ := run_eq_run hrest (fun c hc => isIdChar_iff.mpr (hs.id c hc))
    (fun c hc => isIdChar_iff.mpr (ht.id c hc)) (isIdChar_head?_gap hs) (isIdChar_head?_gap ht)
  obtain ⟨hgap, htail⟩ := run_eq_run hrest hs.gap ht.gap (s.head?_tail (by decide))
    (t.head?_tail (by decide))
  have hproper_s := hs.weightPart
  have hproper_t := ht.weightPart
  obtain ⟨left, id, gap, part⟩ := s
  obtain ⟨left', id', gap', part'⟩ := t
  simp only [tail] at *
  subst hleft hid hgap
  cases part with
  | none =>
    cases part' with
    | none => rfl
    | some q => cases htail
  | some p =>
    cases part' with
    | none => cases htail
    | some q =>
      rw [WeightPart.eq_of_chars_eq (hproper_s p rfl) (hproper_t q rfl) (List.cons.inj htail).2]

end Spelling

/-! ## Reading -/

theorem isDigits_takeWhile {s : List Char} (h : (s.takeWhile Char.isDigit).isEmpty = false) :
    IsDigits (s.takeWhile Char.isDigit) :=
  ⟨List.isEmpty_eq_false_iff.mp h, fun _ hc => List.mem_takeWhile_imp hc⟩

/-- What is read as a weight is digits, maybe a point with digits, and blanks. -/
theorem exists_digits_of_readWeight {s : List Char} {weight : Float}
    (h : readWeight s = some weight) :
    ∃ whole places right, IsDigits whole ∧ (∀ digits ∈ places, IsDigits digits) ∧
      (∀ c ∈ right, isBlank c = true) ∧ s = whole ++ (fractionChars places ++ right) := by
  have hsplit := List.takeWhile_append_dropWhile (p := Char.isDigit) (l := s)
  rw [readWeight] at h
  dsimp only at h
  split at h
  · cases h
  next hne =>
  have hwhole := isDigits_takeWhile (Bool.eq_false_iff.mpr hne)
  split at h
  · next rest hrest =>
    split at h
    · cases h
    next hplaces =>
    split at h
    · next hblank =>
      refine ⟨_, some (rest.takeWhile Char.isDigit), rest.dropWhile Char.isDigit, hwhole, ?_,
        List.all_eq_true.mp hblank, ?_⟩
      · rintro digits ⟨⟩
        exact isDigits_takeWhile (Bool.eq_false_iff.mpr hplaces)
      · rw [fractionChars, List.cons_append, List.takeWhile_append_dropWhile, ← hrest, hsplit]
    · cases h
  · split at h
    · next hblank =>
      exact ⟨_, none, _, hwhole, by simp, List.all_eq_true.mp hblank, hsplit.symm⟩
    · cases h

namespace Spelling

variable {s : Spelling}

theorem written (hs : s.IsProper) : Written s.id s.chars s.weight := by
  have hpart := hs.weightPart
  have hleft := hs.left
  have hgap := hs.gap
  obtain ⟨left, id, gap, part⟩ := s
  cases part with
  | none =>
    have hwritten : Written id (left ++ id ++ gap) plainWeight := .alone hleft hgap
    simpa [chars, tail, weight] using hwritten
  | some p =>
    have hp := hpart p rfl
    have hwritten : Written id (left ++ id ++ gap ++
        '*' :: (p.gap ++ (p.whole ++ fractionChars p.places) ++ p.right)) p.weight :=
      .weighted hleft hgap hp.gap hp.right (p.written hp)
    simpa [chars, tail, weight, WeightPart.chars] using hwritten

theorem parts?_chars (hs : s.IsProper) : parts? s.chars = some (s.id, s.weight) :=
  parts?_of_written hs.id_ne_nil (fun c hc => isIdChar_iff.mpr (hs.id c hc)) (written hs)

end Spelling

/-- What is read as a reference has a spelling. -/
theorem exists_spelling_of_parts? {text : List Char} {parts : List Char × Float}
    (h : parts? text = some parts) : ∃ s : Spelling, s.IsProper ∧ text = s.chars := by
  obtain ⟨left, hleft, hblank⟩ := exists_left_padding text
  rw [parts?] at h
  generalize trimLeft text = trimmed at h hleft
  have hsplit := List.takeWhile_append_dropWhile (p := isIdChar) (l := trimmed)
  split at h
  · cases h
  next hne =>
  have hid : ∀ c ∈ trimmed.takeWhile isIdChar, c ≠ '*' ∧ isBlank c = false :=
    fun c hc => Spelling.isIdChar_iff.mp (List.mem_takeWhile_imp hc)
  obtain ⟨gap, hgap, hgapBlank⟩ := exists_left_padding (trimmed.dropWhile isIdChar)
  split at h
  · next hend =>
    rw [hend, List.append_nil] at hgap
    refine ⟨⟨left, trimmed.takeWhile isIdChar, gap, none⟩,
      ⟨hblank, List.isEmpty_eq_false_iff.mp (Bool.eq_false_iff.mpr hne), hid, hgapBlank, by simp⟩,
      ?_⟩
    rw [Spelling.chars, Spelling.tail, List.append_nil, ← hgap, hsplit, hleft]
  · next rest hstar =>
    rw [hstar] at hgap
    obtain ⟨weight, hweight, -⟩ := Option.map_eq_some_iff.mp h
    obtain ⟨gap', hgap', hgapBlank'⟩ := exists_left_padding rest
    obtain ⟨whole, places, right, hwhole, hplaces, hright, hdigits⟩ :=
      exists_digits_of_readWeight hweight
    refine ⟨⟨left, trimmed.takeWhile isIdChar, gap, some ⟨gap', whole, places, right⟩⟩,
      ⟨hblank, List.isEmpty_eq_false_iff.mp (Bool.eq_false_iff.mpr hne), hid, hgapBlank, ?_⟩, ?_⟩
    · rintro p ⟨⟩
      exact ⟨hgapBlank', hwhole, hplaces, hright⟩
    · show text = left ++ (trimmed.takeWhile isIdChar ++ (gap ++
        '*' :: (gap' ++ (whole ++ (fractionChars places ++ right)))))
      rw [← hdigits, ← hgap', ← hgap, hsplit, hleft]
  · cases h

theorem one_isNearest_plainWeight : IsNearest 1 plainWeight := by
  have hten := isNearest_ofScientific (m := 10) (by decide) (-1)
  have hone : ((10 : Nat) : ℚ) * 10 ^ (-1 : ℤ) = 1 := by norm_num
  rwa [hone] at hten

/-- The weight that is read is the binary64 number nearest to the number that is spelled. -/
theorem Spelling.isNearest_weight (s : Spelling) : IsNearest s.value s.weight := by
  rw [value, weight]
  cases s.weightPart with
  | none => exact one_isNearest_plainWeight
  | some p => exact p.isNearest_weight

theorem read_of_spells {s : Spelling} {text : String} (h : s.Spells text) :
    read text = .ok ⟨String.ofList (EventId.normalize s.id), s.weight⟩ := by
  rw [read, h.2, Spelling.parts?_chars h.1]

theorem exists_spells_of_read {text : String} {reference : Reference}
    (h : read text = .ok reference) : ∃ s : Spelling, s.Spells text := by
  rw [read] at h
  split at h
  · next hparts =>
    obtain ⟨s, hs, htext⟩ := exists_spelling_of_parts? hparts
    exact ⟨s, hs, htext⟩
  · cases h

/-- **Which texts are references.** A text is read exactly if it has a spelling, and it has one
spelling at most. What is read is the id of the spelling in its normal form, with the weight one if
there is no star, and with the binary64 number nearest to the decimal if there is; it is neither
negative nor not a number. Every other text is refused, and quoted. -/
theorem read_knows_every_spelling (text : String) :
    ((∃ reference, read text = .ok reference) ↔ ∃ s : Spelling, s.Spells text) ∧
      (∀ s t : Spelling, s.Spells text → t.Spells text → s = t) ∧
      (∀ s : Spelling, s.Spells text →
        ∃ weight, read text = .ok ⟨String.ofList (EventId.normalize s.id), weight⟩ ∧
          (s.weightPart = none → weight = 1.0) ∧ IsNearest s.value weight ∧
          ¬ weight < 0.0 ∧ weight.isNaN = false) ∧
      ((¬ ∃ s : Spelling, s.Spells text) → read text = .error (.badReference text)) ∧
      (CatalogFault.badReference text).message =
        "Invalid catalog: bad event reference '" ++ text ++ "'" := by
  refine ⟨⟨fun ⟨_, hread⟩ => exists_spells_of_read hread, fun ⟨s, hs⟩ => ⟨_, read_of_spells hs⟩⟩,
    fun s t hs ht => Spelling.eq_of_chars_eq hs.1 ht.1 (hs.2.symm.trans ht.2), ?_, ?_, ?_⟩
  · intro s hs
    have hnearest := s.isNearest_weight
    refine ⟨s.weight, read_of_spells hs, fun hnone => ?_, hnearest, hnearest.not_neg,
      hnearest.isNaN_eq⟩
    rw [Spelling.weight, hnone]
    rfl
  · intro hnone
    cases hread : read text with
    | ok reference => exact absurd (exists_spells_of_read hread) hnone
    | error fault =>
      rw [read] at hread
      split at hread
      · cases hread
      · exact hread.symm
  · show "Invalid catalog: " ++ ("bad event reference '" ++ text ++ "'") = _
    rw [← String.append_assoc, ← String.append_assoc]
    rfl

end LifePath.Reference
