import LifePath.Proofs.Catalog.Reference
import LifePath.Proofs.Decimal.Shortest
import LifePath.Tables.Json

/-!
# Numbers as event ids

An id can be given as a number in three places: as the id of an event, as what follows an event, and
as an entry of a pool. The first two turn the number into an integer. The pool writes it as a text
and reads that as a reference, and this never fails, since the text of a number is an id as it
stands (`readReference_floatText`).

So the places agree on integers. Of the other numbers they agree on those that are `WrittenInFull`:
whole ones whose text is all their digits. Every whole number but zero below `2 ^ 53` is one
(`writtenInFull_of_lt`). The negative zero is none, and of the greater whole numbers some are not:
these mean one id in a pool and another elsewhere. Nor is a number with a fraction, or one that is
too great: a pool takes it in, and the other places refuse it.
-/

namespace LifePath

open LifePath.Text LifePath.Decimal

/-! ## Texts that are ids as they stand -/

/-- Whether a text is an id as it stands, and can be referred to. -/
structure IsOwnId (s : List Char) : Prop where
  ne_nil : s ≠ []
  chars : ∀ c ∈ s, Reference.isIdChar c = true
  kept : EventId.dropZeroFraction s = s

namespace EventId

theorem dropZeroFraction_of_not_mem {s : List Char} (h : '.' ∉ s) : dropZeroFraction s = s := by
  rw [dropZeroFraction, cutFirst_eq_none_iff.mpr h]

theorem dropZeroFraction_of_fraction {whole fraction : List Char} (hwhole : '.' ∉ whole)
    (hfraction : ∃ c ∈ fraction, c ≠ '0') :
    dropZeroFraction (whole ++ '.' :: fraction) = whole ++ '.' :: fraction := by
  have hcut : cutFirst '.' (whole ++ '.' :: fraction) = some (whole, fraction) :=
    cutFirst_eq_some_iff.mpr ⟨rfl, hwhole⟩
  have hzeros : fraction.all (· = '0') = false := by
    simpa using hfraction
  simp [dropZeroFraction, hcut, hzeros]

end EventId

theorem isIdChar_of_visible {c : Char} (hlow : 33 ≤ c.toNat) (hhigh : c.toNat ≤ 126)
    (hstar : c ≠ '*') : Reference.isIdChar c = true := by
  simp [Reference.isIdChar, hstar, isBlank_eq_false_of_visible hlow hhigh]

theorem isIdChar_of_isDigit {c : Char} (h : c.isDigit = true) : Reference.isIdChar c = true := by
  have hstar : c ≠ '*' := by
    rintro rfl
    revert h
    decide
  simp [Reference.isIdChar, hstar, isBlank_of_isDigit h]

theorem ne_point_of_isDigit {c : Char} (h : c.isDigit = true) : c ≠ '.' := by
  rintro rfl
  revert h
  decide

/-- A number in positional notation, with a minus in front or without one, is an id. -/
theorem isOwnId_of_isPositional {sign s : List Char} (hsign : sign = [] ∨ sign = ['-'])
    (h : IsPositional s) : IsOwnId (sign ++ s) := by
  have hminus : Reference.isIdChar '-' = true :=
    isIdChar_of_visible (by decide) (by decide) (by decide)
  have hchars : ∀ c ∈ sign, Reference.isIdChar c = true := by
    rcases hsign with rfl | rfl <;> simp [hminus]
  have hpoint : '.' ∉ sign := by
    rcases hsign with rfl | rfl <;> simp
  cases h with
  | whole hne hdigits =>
    have hnone : '.' ∉ sign ++ s := by
      rw [List.mem_append, not_or]
      exact ⟨hpoint, fun hmem => ne_point_of_isDigit (hdigits _ hmem) rfl⟩
    refine ⟨by simp [hne], fun c hc => ?_, EventId.dropZeroFraction_of_not_mem hnone⟩
    exact (List.mem_append.mp hc).elim (hchars c) fun hc => isIdChar_of_isDigit (hdigits c hc)
  | @fraction whole fraction hne hwhole hfraction hnonzero =>
    have hnone : '.' ∉ sign ++ whole := by
      rw [List.mem_append, not_or]
      exact ⟨hpoint, fun hmem => ne_point_of_isDigit (hwhole _ hmem) rfl⟩
    rw [← List.append_assoc]
    refine ⟨by simp, fun c hc => ?_, EventId.dropZeroFraction_of_fraction hnone hnonzero⟩
    simp only [List.mem_append, List.mem_cons] at hc
    rcases hc with (hc | hc) | rfl | hc
    · exact hchars c hc
    · exact isIdChar_of_isDigit (hwhole c hc)
    · exact isIdChar_of_visible (by decide) (by decide) (by decide)
    · exact isIdChar_of_isDigit (hfraction c hc)

/-- The text of a number is an id as it stands. -/
theorem isOwnId_floatText (f : Float) : IsOwnId (floatText f).toList := by
  rw [floatText]
  split
  · exact ⟨by simp, List.all_eq_true.mp (by decide +kernel), by decide +kernel⟩
  · next negative _ =>
    cases negative <;>
      exact ⟨by simp, List.all_eq_true.mp (by decide +kernel), by decide +kernel⟩
  · next negative x _ =>
    have hbody : IsPositional (if x.mantissa = 0 then ['0'] else x.shortest.positional) := by
      split
      · exact .whole (by simp) (by simp)
      · exact Scaled.isPositional _
    cases negative with
    | true => simpa using isOwnId_of_isPositional (.inr rfl) hbody
    | false => simpa using isOwnId_of_isPositional (.inl rfl) hbody

theorem IsOwnId.isBlank_eq_false {s : List Char} (h : IsOwnId s) : ∀ c ∈ s, isBlank c = false := by
  intro c hc
  have hchar := h.chars c hc
  simp only [Reference.isIdChar, Bool.and_eq_true, Bool.not_eq_true'] at hchar
  exact hchar.2

theorem IsOwnId.normalize_eq {s : List Char} (h : IsOwnId s) : EventId.normalize s = s := by
  rw [EventId.normalize, (trimmed_of_forall h.ne_nil h.isBlank_eq_false).trim_eq, h.kept]

namespace Reference

/-- An id by itself is a reference without a weight. -/
theorem read_of_isOwnId {text : String} (h : IsOwnId text.toList) :
    read text = .ok ⟨text, plainWeight⟩ := by
  have hparts : parts? text.toList = some (text.toList, plainWeight) := by
    refine parts?_of_written h.ne_nil h.chars ?_
    simpa using @Written.alone text.toList [] [] (by simp) (by simp)
  rw [read, hparts]
  simp [h.normalize_eq]

end Reference

/-- What a pool makes of a number's text never fails. -/
theorem readReference_floatText (f : Float) :
    Reference.read (floatText f) = .ok ⟨floatText f, Reference.plainWeight⟩ :=
  Reference.read_of_isOwnId (isOwnId_floatText f)

/-! ## What the places make of a number -/

/-- The id of an event whose id is given as a number. -/
def eventIdOf (n : Numeral) : Except JsonFault String :=
  (Event.layout.read (.object [(some "id", .number n), (some "event", .text "")])).map (·.id)

/-- What follows an event that names it by a number. -/
def followUpOf (n : Numeral) : Except JsonFault (Option String) :=
  (Event.layout.read (.object
    [(some "id", .text "1"), (some "event", .text ""), (some "post_event", .number n)])).map
    (·.next)

/-- The references of a pool that has a number as its only entry. -/
def poolOf (n : Numeral) : Except JsonFault (List Reference) :=
  (AgePool.layout.read (.object
    [(some "age", .number ⟨false, ['0'], none, none⟩), (some "event", .array [.number n])])).map
    (·.references)

/-- A member of a record goes to the field of its name. -/
theorem Json.Layout.readMembers_field {α : Type} {layout : Json.Layout α} {seen : List Nat}
    {record : α} {name : String} {value : Json} {rest : List (Option String × Json)}
    {field : Json.Field α} {place : Nat}
    (hfield : layout.fields.zipIdx.find? (fun (field, _) => field.names.contains name)
      = some (field, place))
    (hseen : seen.contains place = false) :
    layout.readMembers seen record ((some name, value) :: rest) =
      (field.read value record).bind fun record =>
        layout.readMembers (place :: seen) record rest := by
  rw [readMembers, hfield]
  simp only [hseen]
  cases field.read value record <;> rfl

theorem eventIdOf_eq (n : Numeral) : eventIdOf n = readEventId (.number n) := by
  rw [eventIdOf, Json.Layout.read, Json.Layout.readMembers_field rfl rfl]
  show ((((readEventId (.number n)).map _).bind _).map _) = _
  cases readEventId (.number n) <;> rfl

theorem followUpOf_eq (n : Numeral) : followUpOf n = (readEventId (.number n)).map some := by
  rw [followUpOf, Json.Layout.read, Json.Layout.readMembers_field rfl rfl]
  show (Event.layout.readMembers [1, 0] _ _).map _ = _
  rw [Json.Layout.readMembers_field rfl rfl]
  show (((Json.readOption readEventId (.number n)).map _).bind _).map _ = _
  rw [Json.readOption]
  · cases readEventId (.number n) <;> rfl
  · simp

theorem poolOf_eq (n : Numeral) : poolOf n = (readReference (.number n)).map ([·]) := by
  rw [poolOf, Json.Layout.read, Json.Layout.readMembers_field rfl rfl]
  show (AgePool.layout.readMembers [0] _ _).map _ = _
  rw [Json.Layout.readMembers_field rfl rfl]
  show (((Json.readEach readReference [.number n]).map _).bind _).map _ = _
  rw [Json.readEach]
  cases readReference (.number n) <;> rfl

section

variable {n : Numeral} {f : Float}

/-- An integer that fits 64 bits is its digits, wherever it stands. -/
theorem readings_of_integer {i : Int} (h : (Json.integer? n).filter fitsInt64 = some i) :
    readEventId (.number n) = .ok (EventId.ofInt i) ∧
      readReference (.number n) = .ok ⟨EventId.ofInt i, Reference.plainWeight⟩ := by
  simp [readEventId, readReference, h]

/-- A number beyond the finite values is refused. -/
theorem readings_of_none (h : (Json.integer? n).filter fitsInt64 = none)
    (hfloat : Json.float? n = none) :
    readEventId (.number n) = .error (.unexpected "an event id") ∧
      readReference (.number n) = .error (.unexpected "an event reference") := by
  simp [readEventId, readReference, h, hfloat]

/-- Any other number is tested as an event's id, but not in a pool. -/
theorem readings_of_float (h : (Json.integer? n).filter fitsInt64 = none)
    (hfloat : Json.float? n = some f) :
    (readEventId (.number n) =
        match EventId.ofFloat? f with
        | some id => .ok id
        | none => .error (.fractionalId f)) ∧
      readReference (.number n) = .ok ⟨floatText f, Reference.plainWeight⟩ := by
  constructor
  · cases hof : EventId.ofFloat? f <;> simp [readEventId, h, hfloat, hof]
  · simp [readReference, h, hfloat, readReference_floatText, Except.mapError]

/-! ## Agreement -/

/-- The integer that a number means is written as the number exactly if it is written in full. -/
theorem ofFloat?_eq_floatText_iff : EventId.ofFloat? f = some (floatText f) ↔ WrittenInFull f := by
  simp only [EventId.ofFloat?, Option.map_eq_some_iff, Option.filter_eq_some_iff,
    wholeValue?_eq_some_iff, decide_eq_true_eq]
  constructor
  · rintro ⟨_, ⟨⟨negative, x, k, hparts, hwhole, rfl⟩, hlt⟩, htext⟩
    rw [natAbs_signed] at hlt
    exact ⟨negative, x, k, hparts, hwhole, hlt,
      (floatText_eq_intText_iff hparts hwhole).mp htext.symm⟩
  · rintro ⟨negative, x, k, hparts, hwhole, hlt, hfull⟩
    refine ⟨_, ⟨⟨negative, x, k, hparts, hwhole, rfl⟩, by rwa [natAbs_signed]⟩, ?_⟩
    exact ((floatText_eq_intText_iff hparts hwhole).mpr hfull).symm

theorem writtenInFull_of_lt {i : Int} (h : wholeValue? f = some i) (hne : i ≠ 0)
    (hlt : i.natAbs < twoTo 53) : WrittenInFull f := by
  obtain ⟨negative, x, k, hparts, hwhole, rfl⟩ := wholeValue?_eq_some_iff.mp h
  have hk : k ≠ 0 := by
    rintro rfl
    cases negative <;> exact hne rfl
  rw [natAbs_signed] at hlt
  refine ⟨negative, x, k, hparts, hwhole, Nat.lt_trans hlt (by decide), ?_⟩
  rw [if_neg hk]
  exact Dyadic.shortest_isNat (Parts.exponent_le_zero hparts hwhole hlt) hwhole
    (Nat.pos_of_ne_zero hk) hlt

/-- Whether a number means one event in all three places, or is refused in all of them. -/
def MeansTheSame (n : Numeral) : Prop :=
  (∃ id, eventIdOf n = .ok id ∧ followUpOf n = .ok (some id) ∧
      (poolOf n).map (·.map (·.event)) = .ok [id]) ∨
    ((eventIdOf n).isOk = false ∧ (followUpOf n).isOk = false ∧ (poolOf n).isOk = false)

theorem meansTheSame_of_integer {i : Int} (h : (Json.integer? n).filter fitsInt64 = some i) :
    MeansTheSame n := by
  obtain ⟨hid, hpool⟩ := readings_of_integer h
  refine .inl ⟨EventId.ofInt i, ?_⟩
  rw [eventIdOf_eq, followUpOf_eq, poolOf_eq, hid, hpool]
  exact ⟨rfl, rfl, rfl⟩

theorem meansTheSame_of_none (h : (Json.integer? n).filter fitsInt64 = none)
    (hfloat : Json.float? n = none) : MeansTheSame n := by
  obtain ⟨hid, hpool⟩ := readings_of_none h hfloat
  refine .inr ?_
  rw [eventIdOf_eq, followUpOf_eq, poolOf_eq, hid, hpool]
  exact ⟨rfl, rfl, rfl⟩

theorem meansTheSame_iff_of_float (h : (Json.integer? n).filter fitsInt64 = none)
    (hfloat : Json.float? n = some f) : MeansTheSame n ↔ WrittenInFull f := by
  obtain ⟨hid, hpool⟩ := readings_of_float h hfloat
  rw [← ofFloat?_eq_floatText_iff, MeansTheSame, eventIdOf_eq, followUpOf_eq, poolOf_eq, hid, hpool]
  cases hof : EventId.ofFloat? f with
  | none => simp [Except.map, Except.isOk, Except.toBool]
  | some id => simp [Except.map, Except.isOk, Except.toBool, eq_comm]

end

/-- **When a number means the same event everywhere.** It does exactly if it is an integer that fits
64 signed bits, or beyond all finite values and so refused everywhere, or written in full. Any whole
number but zero below `2 ^ 53` is written in full. A number that is not whole, or too great, is
refused as an id and as what follows an event, but is taken into a pool under its text. -/
theorem number_means_the_same_iff (n : Numeral) :
    (MeansTheSame n ↔
      ((Json.integer? n).filter fitsInt64).isSome ∨ Json.float? n = none ∨
        ∃ f, Json.float? n = some f ∧ WrittenInFull f) ∧
      (∀ f i, Json.float? n = some f → wholeValue? f = some i → i ≠ 0 → i.natAbs < twoTo 53 →
        MeansTheSame n) ∧
      ∀ f, (Json.integer? n).filter fitsInt64 = none → Json.float? n = some f →
        EventId.ofFloat? f = none →
          eventIdOf n = .error (.fractionalId f) ∧ followUpOf n = .error (.fractionalId f) ∧
            poolOf n = .ok [⟨floatText f, Reference.plainWeight⟩] := by
  refine ⟨?_, fun f i hfloat hwhole hne hlt => ?_, fun f hint hfloat hnone => ?_⟩
  · cases hint : (Json.integer? n).filter fitsInt64 with
    | some i => simp [meansTheSame_of_integer hint]
    | none =>
      cases hfloat : Json.float? n with
      | none => simp [meansTheSame_of_none hint hfloat]
      | some f => simp [meansTheSame_iff_of_float hint hfloat]
  · cases hint : (Json.integer? n).filter fitsInt64 with
    | some i => exact meansTheSame_of_integer hint
    | none => exact (meansTheSame_iff_of_float hint hfloat).mpr (writtenInFull_of_lt hwhole hne hlt)
  · obtain ⟨hid, hpool⟩ := readings_of_float hint hfloat
    rw [hnone] at hid
    rw [eventIdOf_eq, followUpOf_eq, poolOf_eq, hid, hpool]
    exact ⟨rfl, rfl, rfl⟩

/-- A whole number with a point means what it means without. -/
theorem number_means_the_same_iff_point : MeansTheSame ⟨false, "10001".toList, some ['0'], none⟩ :=
  (number_means_the_same_iff _).2.1 10001.0 10001 (by decide +kernel) (by decide +kernel)
    (by decide) (by decide)

/-- One and a half is no event's id, but a pool takes it in. -/
theorem fraction_taken_into_pool :
    let n : Numeral := ⟨false, ['1'], some ['5'], none⟩
    eventIdOf n = .error (.fractionalId 1.5) ∧ followUpOf n = .error (.fractionalId 1.5) ∧
      poolOf n = .ok [⟨"1.5", Reference.plainWeight⟩] ∧ ¬ MeansTheSame n := by
  intro n
  have hid : readEventId (.number n) = .error (.fractionalId 1.5) := by decide +kernel
  have hpool : readReference (.number n) = .ok ⟨"1.5", Reference.plainWeight⟩ := by decide +kernel
  rw [MeansTheSame, eventIdOf_eq, followUpOf_eq, poolOf_eq, hid, hpool]
  refine ⟨rfl, rfl, rfl, ?_⟩
  rintro (⟨id, hok, -⟩ | ⟨-, -, hrefused⟩)
  · cases hok
  · cases hrefused

end LifePath
