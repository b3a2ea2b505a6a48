import LifePath.Proofs.Catalog.NumericId
import LifePath.Proofs.Json.Members

/-!
# Texts as event ids

An id can be given as a text in four places: as the id of an event, as what follows an event, in a
branch behind the last colon, and in a pool in front of a star and a weight. Each place finds the id
in its own way, and blanks can stand around the id everywhere. A text that is a word without a star
and a colon, apart from the blanks around it (`IsPlainId`), means the same id in all of them
(`textual_id_means_the_same`).

What an id means is an id itself and means itself. An integer that is written with zeros behind a
point means the integer.
-/

namespace LifePath

open LifePath.Text LifePath.Decimal

/-- Whether a text can name an event in every place: without the blanks around it, it is there and
has no blank, star or colon. -/
structure IsPlainId (s : List Char) : Prop where
  ne_nil : trim s ≠ []
  blank : ∀ c ∈ trim s, isBlank c = false
  star : '*' ∉ trim s
  colon : ':' ∉ trim s

theorem isPlainId_iff {s : List Char} :
    IsPlainId s ↔ (trim s).isEmpty = false ∧ ((trim s).all fun c => !isBlank c) = true ∧
      (trim s).contains '*' = false ∧ (trim s).contains ':' = false := by
  simp only [List.isEmpty_eq_false_iff, List.all_eq_true, Bool.not_eq_true', List.contains_eq_mem,
    decide_eq_false_iff_not]
  exact ⟨fun h => ⟨h.ne_nil, h.blank, h.star, h.colon⟩,
    fun ⟨hne, hblank, hstar, hcolon⟩ => ⟨hne, hblank, hstar, hcolon⟩⟩

instance (s : List Char) : Decidable (IsPlainId s) := decidable_of_iff' _ isPlainId_iff

/-- A text that can name an event in every place. -/
structure PlainId where
  text : String
  isPlain : IsPlainId text.toList

/-- The id that it means. -/
def PlainId.id (p : PlainId) : String := EventId.ofText p.text

/-! ## What a text means as an id -/

namespace EventId

theorem isWhole_chars {s : List Char} (h : isWhole s = true) :
    s ≠ [] ∧ ∀ c ∈ s, c = '-' ∨ c.isDigit = true := by
  unfold isWhole at h
  split at h
  · next digits =>
    simp only [Bool.and_eq_true, List.all_eq_true] at h
    exact ⟨by simp, List.forall_mem_cons.mpr ⟨.inl rfl, fun c hc => .inr (h.2 c hc)⟩⟩
  · simp only [Bool.and_eq_true, List.all_eq_true, Bool.not_eq_true', List.isEmpty_eq_false_iff] at h
    exact ⟨h.1, fun c hc => .inr (h.2 c hc)⟩

theorem point_notMem_of_isWhole {s : List Char} (h : isWhole s = true) : '.' ∉ s := by
  intro hpoint
  rcases (isWhole_chars h).2 '.' hpoint with hminus | hdigit
  · revert hminus
    decide
  · exact ne_point_of_isDigit hdigit rfl

/-- A whole number is an id as it stands. -/
theorem isOwnId_of_isWhole {s : List Char} (h : isWhole s = true) : IsOwnId s := by
  obtain ⟨hne, hchars⟩ := isWhole_chars h
  refine ⟨hne, fun c hc => ?_, dropZeroFraction_of_not_mem (point_notMem_of_isWhole h)⟩
  rcases hchars c hc with rfl | hdigit
  · exact isIdChar_of_visible (by decide) (by decide) (by decide)
  · exact isIdChar_of_isDigit hdigit

/-- Either no zeros are dropped, or a whole number is left. -/
theorem dropZeroFraction_eq_or (s : List Char) :
    dropZeroFraction s = s ∨ isWhole (dropZeroFraction s) = true := by
  unfold dropZeroFraction
  split
  · next whole fraction _ =>
    split
    · next htest =>
      simp only [Bool.and_eq_true] at htest
      exact .inr htest.1.1
    · exact .inl rfl
  · exact .inl rfl

/-- The id that a text means, means itself. -/
theorem normalize_normalize (raw : List Char) : normalize (normalize raw) = normalize raw := by
  -- Without zeros to drop, only the trimming is done twice. A whole number has neither blanks nor a
  -- point, so that nothing is done to it.
  rcases dropZeroFraction_eq_or (trim raw) with hkept | hwhole
  · show dropZeroFraction (trim (dropZeroFraction (trim raw))) = dropZeroFraction (trim raw)
    rw [hkept, trim_trim, hkept]
  · exact (isOwnId_of_isWhole hwhole).normalize_eq

theorem normalize_trim (raw : List Char) : normalize (trim raw) = normalize raw := by
  rw [normalize, trim_trim, normalize]

theorem isWhole_intDigits (n : Int) : isWhole (intDigits n) = true := by
  have hdigits : (Nat.toDigits 10 n.natAbs).all Char.isDigit = true :=
    List.all_eq_true.mpr fun c hc => isDigit_of_mem_toDigits hc
  have hne : (Nat.toDigits 10 n.natAbs).isEmpty = false := by simp [Nat.toDigits_ne_nil]
  unfold intDigits
  split
  · rw [isWhole, hdigits, hne]
    rfl
  · obtain ⟨c, rest, heq, hc⟩ := exists_toDigits_eq_cons n.natAbs
    have hminus : c ≠ '-' := by
      rintro rfl
      revert hc
      decide
    rw [heq] at hdigits hne ⊢
    rw [isWhole, hdigits, hne]
    · rfl
    · simpa using hminus

/-- Zeros behind a point do not change which integer is meant. -/
theorem normalize_intDigits_zeros (n : Int) {k : Nat} (hk : 1 ≤ k) :
    normalize (intDigits n ++ '.' :: List.replicate k '0') = intDigits n := by
  have hwhole := isWhole_intDigits n
  have hcut : cutFirst '.' (intDigits n ++ '.' :: List.replicate k '0') =
      some (intDigits n, List.replicate k '0') :=
    cutFirst_eq_some_iff.mpr ⟨rfl, point_notMem_of_isWhole hwhole⟩
  have hblank : ∀ c ∈ intDigits n ++ '.' :: List.replicate k '0', isBlank c = false := by
    intro c hc
    rcases List.mem_append.mp hc with hc | hc
    · exact (isOwnId_of_isWhole hwhole).isBlank_eq_false c hc
    · rcases List.mem_cons.mp hc with rfl | hc
      · decide
      · obtain rfl := List.eq_of_mem_replicate hc
        decide
  have hzeros : (List.replicate k '0').isEmpty = false := by
    rw [List.isEmpty_eq_false_iff, ne_eq, List.replicate_eq_nil_iff]
    omega
  rw [normalize, (trimmed_of_forall (by simp) hblank).trim_eq, dropZeroFraction, hcut]
  simp [hwhole, hzeros]

end EventId

/-! ## The places -/

section

variable {s : String}

/-- A colon is no blank, so none stands around the id either. -/
theorem IsPlainId.colon_notMem {s : List Char} (h : IsPlainId s) : ':' ∉ s := by
  obtain ⟨left, right, hsplit, hleft, hright⟩ := exists_padding s
  have hmark {t : List Char} (ht : ∀ c ∈ t, isBlank c = true) : ':' ∉ t := by
    intro hmem
    have hblank := ht ':' hmem
    revert hblank
    decide
  rw [hsplit]
  simp only [List.mem_append, not_or]
  exact ⟨⟨hmark hleft, h.colon⟩, hmark hright⟩

/-- The condition that stands in front of the last colon of a branch: none if it is blank. -/
def Branch.conditionIn (text : String) : Option String :=
  if allBlank text.toList then none else some (String.ofList (trim text.toList))

/-- A branch without a condition. -/
theorem Branch.read_id (hs : IsPlainId s.toList) :
    Branch.read s = .ok ⟨none, EventId.ofText s⟩ := by
  have hcut : cutLast ':' s.toList = none := cutLast_eq_none_iff.mpr hs.colon_notMem
  have hempty : (trim s.toList).isEmpty = false := by simpa using hs.ne_nil
  simp only [Branch.read, hcut, hempty]
  show Except.ok (⟨none, _⟩ : Branch) = _
  rw [EventId.normalize_trim]
  rfl

/-- The last colon ends the condition, whatever colons stand in it. -/
theorem Branch.read_condition (hs : IsPlainId s.toList) (condition : String) :
    Branch.read (condition ++ ":" ++ s) =
      .ok ⟨Branch.conditionIn condition, EventId.ofText s⟩ := by
  have hcut : cutLast ':' (condition ++ ":" ++ s).toList = some (condition.toList, s.toList) :=
    cutLast_eq_some_iff.mpr ⟨by simp, hs.colon_notMem⟩
  have hempty : (trim s.toList).isEmpty = false := by simpa using hs.ne_nil
  have hnone : (trim condition.toList).isEmpty = allBlank condition.toList := by
    rw [Bool.eq_iff_iff, List.isEmpty_iff, trim_eq_nil_iff, allBlank, List.all_eq_true]
  simp only [Branch.read, hcut, hempty, hnone, EventId.normalize_trim]
  rfl

/-- A reference, with a weight or without one. -/
theorem Reference.read_written (hs : IsPlainId s.toList) {text : String} {weight : Float}
    (h : Reference.Written s.toList text.toList weight) :
    Reference.read text = .ok ⟨EventId.ofText s, weight⟩ := by
  obtain ⟨left, right, hsplit, hleft, hright⟩ := exists_padding s.toList
  rw [hsplit] at h
  have hid : ∀ c ∈ trim s.toList, isIdChar c = true := by
    intro c hc
    have hstar : c ≠ '*' := fun heq => hs.star (heq ▸ hc)
    simp [isIdChar, hstar, hs.blank c hc]
  -- The blanks at the ends of the id count among those around it.
  have hparts := parts?_of_written hs.ne_nil hid (h.of_padded hleft hright)
  rw [Reference.read, hparts]
  show Except.ok (⟨String.ofList (EventId.normalize (trim s.toList)), weight⟩ : Reference) = _
  rw [EventId.normalize_trim]
  rfl

end

/-! ## Records as they are spelled -/

/-- A branch as it is spelled: an id alone, or an id behind a colon and maybe a condition in front
of the colon. -/
structure Branch.Spelled where
  /-- what stands in front of the colon, if there is one -/
  condition : Option String
  event : PlainId

/-- A reference as it is spelled. -/
structure Reference.Spelled where
  event : PlainId
  weight : Float
  text : String
  written : Reference.Written event.text.toList text.toList weight

/-- An event as it is spelled, if it leads on and changes nothing. -/
structure Event.Spelled where
  id : PlainId
  text : String
  branches : List Branch.Spelled
  next : Option PlainId

/-- A pool as it is spelled. -/
structure AgePool.Spelled where
  age : Int
  fits : fitsInt32 age = true
  references : List Reference.Spelled

namespace Branch.Spelled

/-- The text of a branch. -/
def text (b : Spelled) : String :=
  match b.condition with
  | none => b.event.text
  | some condition => condition ++ ":" ++ b.event.text

/-- The branch that is meant. -/
def meant (b : Spelled) : Branch := ⟨b.condition.bind conditionIn, b.event.id⟩

theorem read_text (b : Spelled) : readBranch (.text b.text) = .ok b.meant := by
  show (Branch.read b.text).mapError _ = _
  obtain ⟨condition, event⟩ := b
  cases condition with
  | none =>
    show (Branch.read event.text).mapError _ = _
    rw [Branch.read_id event.isPlain]
    rfl
  | some condition =>
    show (Branch.read (condition ++ ":" ++ event.text)).mapError _ = _
    rw [Branch.read_condition event.isPlain]
    rfl

end Branch.Spelled

namespace Reference.Spelled

/-- The reference that is meant. -/
def meant (r : Spelled) : Reference := ⟨r.event.id, r.weight⟩

theorem read_text (r : Spelled) : readReference (.text r.text) = .ok r.meant := by
  show (Reference.read r.text).mapError _ = _
  rw [Reference.read_written r.event.isPlain r.written]
  rfl

end Reference.Spelled

namespace Event.Spelled

/-- The event that is meant. -/
def meant (e : Spelled) : Event :=
  { plain e.id.id e.text with branches := e.branches.map (·.meant), next := e.next.map (·.id) }

/-- The members of its object; there are two names for what follows. -/
def members (e : Spelled) (follows : String) : List (Option String × Json) :=
  [(some "id", .text e.id.text), (some "event", .text e.text),
   (some "branch", .array (e.branches.map fun b => .text b.text))] ++
  e.next.toList.map fun next => (some follows, .text next.text)

/-- What the members fill. -/
def fills (e : Spelled) (follows : String) : List (Json.Layout.Fill Event) :=
  [⟨"id", .text e.id.text, 0, fun r => { r with id := e.id.id }⟩,
   ⟨"event", .text e.text, 1, fun r => { r with text := e.text }⟩,
   ⟨"branch", .array (e.branches.map fun b => .text b.text), 7,
    fun r => { r with branches := e.branches.map (·.meant) }⟩] ++
  e.next.toList.map fun next =>
    ⟨follows, .text next.text, 8, fun r => { r with next := some next.id }⟩

theorem takes_fills (e : Spelled) {follows : String}
    (hfollows : follows = "post_event" ∨ follows = "postEvent") :
    ∀ f ∈ e.fills follows, layout.Takes f := by
  have hbranches := Json.readList_map Branch.Spelled.read_text e.branches
  simp only [fills, List.forall_mem_append, List.forall_mem_cons, List.forall_mem_map]
  refine ⟨⟨⟨_, rfl, fun r => rfl⟩, ⟨_, rfl, fun r => rfl⟩, ⟨_, rfl, fun r => ?_⟩, by simp⟩,
    fun next _ => ?_⟩
  · show (Json.readList readBranch _).map _ = _
    rw [hbranches]
    rfl
  · rcases hfollows with rfl | rfl <;> exact ⟨_, rfl, fun r => rfl⟩

/-- The event is read, in whatever order its members stand. -/
theorem read_members (e : Spelled) {follows : String} {members : List (Option String × Json)}
    (hfollows : follows = "post_event" ∨ follows = "postEvent")
    (hmembers : members.Perm (e.members follows)) :
    layout.read (.object members) = .ok e.meant := by
  have hfills : e.members follows = (e.fills follows).map Json.Layout.Fill.member := by
    simp [Spelled.members, fills, Json.Layout.Fill.member]
  have hnodup : ((e.fills follows).map (·.place)).Nodup := by
    cases hnext : e.next <;> simp [fills, hnext]
  rw [hfills] at hmembers
  rw [Json.Layout.read_perm (e.takes_fills hfollows) hnodup ?_ ?_ hmembers]
  · cases hnext : e.next <;>
      simp [fills, Json.Layout.Fill.putAll, meant, layout, plain, hnext]
  · intro p hp hrequired
    rcases place_of_required hp hrequired with h | h <;> simp [fills, h]
  · cases hnext : e.next <;> simp [fills, hnext]

end Event.Spelled

namespace AgePool.Spelled

/-- The pool that is meant. -/
def meant (p : Spelled) : AgePool := ⟨p.age, p.references.map (·.meant)⟩

/-- The members of its object; there are two names for the references. -/
def members (p : Spelled) (name : String) : List (Option String × Json) :=
  [(some "age", .number (Json.spelled p.age)),
   (some name, .array (p.references.map fun r => .text r.text))]

/-- What the members fill. -/
def fills (p : Spelled) (name : String) : List (Json.Layout.Fill AgePool) :=
  [⟨"age", .number (Json.spelled p.age), 0, fun r => { r with age := p.age }⟩,
   ⟨name, .array (p.references.map fun r => .text r.text), 1,
    fun r => { r with references := p.references.map (·.meant) }⟩]

theorem takes_fills (p : Spelled) {name : String} (hname : name = "events" ∨ name = "event") :
    ∀ f ∈ p.fills name, layout.Takes f := by
  have hreferences (r : AgePool) : (Json.readList readReference
      (.array (p.references.map fun r => .text r.text))).map
        (fun references => { r with references }) =
      .ok { r with references := p.references.map (·.meant) } := by
    rw [Json.readList_map Reference.Spelled.read_text p.references]
    rfl
  simp only [fills, List.forall_mem_cons]
  refine ⟨⟨_, rfl, fun r => ?_⟩, ?_, by simp⟩
  · show (Json.readInt32 _).map _ = _
    rw [Json.readInt32_spelled p.fits]
    rfl
  · rcases hname with rfl | rfl <;> exact ⟨_, rfl, hreferences⟩

/-- The pool is read, in whatever order its members stand. -/
theorem read_members (p : Spelled) {name : String} {members : List (Option String × Json)}
    (hname : name = "events" ∨ name = "event") (hmembers : members.Perm (p.members name)) :
    layout.read (.object members) = .ok p.meant := by
  have hfills : p.members name = (p.fills name).map Json.Layout.Fill.member := rfl
  rw [hfills] at hmembers
  rw [Json.Layout.read_perm (p.takes_fills hname) (by simp [fills]) ?_ (by simp [fills]) hmembers]
  · rfl
  · simp [fills, layout, Json.Field.of]

end AgePool.Spelled

/-! ## All places -/

/-- **A text means the same id in every place.** The text is a word without a star and a colon, up
to blanks around it. Whether it stands as the id of an event, as what follows an event, in a branch
alone or behind a condition, which may hold colons, or in a pool with or without a weight, and with
any blanks around: the record is read, and has in that place the id that the text means. The
condition of a branch is kept without the blanks around it, and a blank one is none.

The id that any text means, means itself; and an integer with zeros behind a point is the id that
the integer is. -/
theorem textual_id_means_the_same :
    (∀ (e : Event.Spelled) (follows : String) (members : List (Option String × Json)),
      follows = "post_event" ∨ follows = "postEvent" → members.Perm (e.members follows) →
      Event.layout.read (.object members) = .ok e.meant) ∧
      (∀ (p : AgePool.Spelled) (name : String) (members : List (Option String × Json)),
        name = "events" ∨ name = "event" → members.Perm (p.members name) →
        AgePool.layout.read (.object members) = .ok p.meant) ∧
      (∀ raw, EventId.ofText (EventId.ofText raw) = EventId.ofText raw) ∧
      ∀ (n : Int) (k : Nat), fitsInt64 n = true → 1 ≤ k →
        eventIdOf (Json.spelled n) =
          .ok (EventId.ofText (intText n ++ "." ++ String.ofList (List.replicate k '0'))) := by
  refine ⟨fun e follows members hfollows hmembers => e.read_members hfollows hmembers,
    fun p name members hname hmembers => p.read_members hname hmembers, fun raw => ?_,
    fun n k hn hk => ?_⟩
  · rw [EventId.ofText, EventId.ofText, String.toList_ofList, EventId.normalize_normalize]
  · have htext : (intText n ++ "." ++ String.ofList (List.replicate k '0')).toList =
        intDigits n ++ '.' :: List.replicate k '0' := by
      simp [intText]
    rw [eventIdOf_eq, readEventId_spelled hn, EventId.ofText, htext,
      EventId.normalize_intDigits_zeros n hk]
    rfl

/-- An event whose ids are as a spreadsheet may leave them: with zeros behind a point, with blanks,
and behind a condition that holds a colon. -/
def Event.Spelled.untidy : Event.Spelled where
  id := ⟨"\t10001.0 ", by decide +kernel⟩
  text := "moves on"
  branches := [⟨none, ⟨"x.y", by decide +kernel⟩⟩, ⟨some " A:B ", ⟨" 10002.00 ", by decide +kernel⟩⟩]
  next := some ⟨"-7.0", by decide +kernel⟩

/-- A pool that refers to this event with a weight. -/
def AgePool.Spelled.untidy : AgePool.Spelled where
  age := 3
  fits := by decide
  references := [⟨Event.Spelled.untidy.id, _, "\t10001.0 * 2.5 ", by
    have htext : "\t10001.0 * 2.5 ".toList = [] ++ Event.Spelled.untidy.id.text.toList ++ [] ++
        '*' :: ([' '] ++ (['2'] ++ '.' :: ['5']) ++ [' ']) := by decide +kernel
    rw [htext]
    exact .weighted (by simp) (by simp) (List.all_eq_true.mp (by decide))
      (List.all_eq_true.mp (by decide)) (.fraction (by simp) (List.all_eq_true.mp (by decide))
        (by simp) (List.all_eq_true.mp (by decide)))⟩]

/-- The untidy event and its pool, and an integer below zero. -/
theorem textual_id_means_the_same_untidy :
    Event.layout.read (.object (Event.Spelled.untidy.members "postEvent").reverse) =
        .ok { Event.plain "10001" "moves on" with
              branches := [⟨none, "x.y"⟩, ⟨some "A:B", "10002"⟩], next := some "-7" } ∧
      AgePool.layout.read (.object (AgePool.Spelled.untidy.members "event")) =
        .ok ⟨3, [⟨"10001", Numeral.toFloat ⟨false, ['2'], some ['5'], none⟩⟩]⟩ ∧
      eventIdOf (Json.spelled (-5)) = .ok (EventId.ofText "-5.00") := by
  obtain ⟨hevent, hpool, -, hzeros⟩ := textual_id_means_the_same
  refine ⟨?_, ?_, ?_⟩
  · have hmeant : Event.Spelled.untidy.meant = { Event.plain "10001" "moves on" with
        branches := [⟨none, "x.y"⟩, ⟨some "A:B", "10002"⟩], next := some "-7" } := by
      decide +kernel
    rw [← hmeant]
    exact hevent _ "postEvent" _ (.inr rfl) (List.reverse_perm _)
  · have hmeant : AgePool.Spelled.untidy.meant =
        ⟨3, [⟨"10001", Numeral.toFloat ⟨false, ['2'], some ['5'], none⟩⟩]⟩ := by
      decide +kernel
    rw [← hmeant]
    exact hpool _ "event" _ (.inr rfl) (.refl _)
  · have htext : intText (-5) ++ "." ++ String.ofList (List.replicate 2 '0') = "-5.00" := by
      decide +kernel
    rw [← htext]
    exact hzeros (-5) 2 (by decide) (by decide)

end LifePath
