import LifePath.Proofs.Attribute.Agreement

/-!
# What a player may write

A player who hands out attributes by hand writes five numbers. A text consists of its words, of
blanks between any two of them and maybe of blanks at its ends (`Spells`), and `words` finds exactly
these words (`words_eq_iff`). The text holds five numbers if its words are five runs of ASCII digits
and each is a 32-bit number (`HoldsNumbers`).

What is written is accepted exactly if it holds five numbers that the budget can pay and of which
none is above the cap (`manual_accepts_exactly`). Otherwise the text itself is at fault, or else the
budget, or else the first number above the cap.
-/

namespace LifePath

open LifePath.Text LifePath.Decimal

/-- Whether a text is refused for what it is, and not for what it would spend. -/
def AllocationFault.IsAboutText : AllocationFault → Prop
  | .wrongShape _ | .outOfRange _ => True
  | .overBudget .. | .overCap .. => False

namespace Attributes

/-! ## Words -/

/-- A text that consists of words and of the blanks around them. -/
inductive Spells : List Char → List (List Char) → Prop where
  | blank {s : List Char} : (∀ c ∈ s, isBlank c = true) → Spells s []
  | word {lead word rest : List Char} {others : List (List Char)} :
      (∀ c ∈ lead, isBlank c = true) → word ≠ [] → (∀ c ∈ word, isBlank c = false) →
      (∀ c ∈ rest.head?, isBlank c = true) → Spells rest others →
      Spells (lead ++ word ++ rest) (word :: others)

/-- A blank divides the words of what stands before it from those of what stands behind it. -/
theorem words_append_blank {blank : Char} (hblank : isBlank blank = true) (s t : List Char) :
    words (s ++ blank :: t) = words s ++ words t := by
  unfold words
  rw [List.splitOnP_append_cons s t hblank, List.filter_append]

theorem words_blanks_append {lead : List Char} (hlead : ∀ c ∈ lead, isBlank c = true)
    (s : List Char) : words (lead ++ s) = words s := by
  induction lead with
  | nil => rfl
  | cons c rest ih =>
    obtain ⟨hc, hrest⟩ := List.forall_mem_cons.mp hlead
    have hcons : words (c :: (rest ++ s)) = words (rest ++ s) := words_append_blank hc [] _
    rw [List.cons_append, hcons, ih hrest]

/-- A word is found in front of a blank and at the end. -/
theorem words_word_append {word rest : List Char} (hne : word ≠ [])
    (hword : ∀ c ∈ word, isBlank c = false) (hrest : ∀ c ∈ rest.head?, isBlank c = true) :
    words (word ++ rest) = word :: words rest := by
  have hself : words word = [word] := by
    rw [words, List.splitOnP_eq_singleton hword]
    simp [hne]
  cases rest with
  | nil => rw [List.append_nil, hself]; rfl
  | cons c rest =>
    have hc : isBlank c = true := hrest c rfl
    have hcons : words (c :: rest) = words rest := words_append_blank hc [] rest
    rw [words_append_blank hc, hself, hcons]
    rfl

theorem Spells.words_eq {s : List Char} {ws : List (List Char)} (h : Spells s ws) :
    words s = ws := by
  induction h with
  | @blank s hblank =>
    have hnil := words_blanks_append hblank []
    rw [List.append_nil] at hnil
    exact hnil
  | word hlead hne hword hrest _ ih =>
    rw [List.append_assoc, words_blanks_append hlead, words_word_append hne hword hrest, ih]

/-- A text is blank, or it has a first word with a blank or nothing behind it. -/
theorem blank_or_first_word (s : List Char) :
    (∀ c ∈ s, isBlank c = true) ∨
      ∃ lead word rest, s = lead ++ word ++ rest ∧ (∀ c ∈ lead, isBlank c = true) ∧ word ≠ [] ∧
        (∀ c ∈ word, isBlank c = false) ∧ ∀ c ∈ rest.head?, isBlank c = true := by
  induction s with
  | nil => exact .inl (by simp)
  | cons c s ih =>
    cases hc : isBlank c with
    | true =>
      rcases ih with hblank | ⟨lead, word, rest, rfl, hlead, hword⟩
      · exact .inl (List.forall_mem_cons.mpr ⟨hc, hblank⟩)
      · exact .inr ⟨c :: lead, word, rest, rfl, List.forall_mem_cons.mpr ⟨hc, hlead⟩, hword⟩
    | false =>
      refine .inr ⟨[], c :: s.takeWhile (!isBlank ·), s.dropWhile (!isBlank ·), ?_, by simp,
        by simp, ?_, ?_⟩
      · simp
      · refine List.forall_mem_cons.mpr ⟨hc, fun d hd => ?_⟩
        simpa using List.mem_takeWhile_imp hd
      · intro d hd
        have hhead := List.head?_dropWhile_not (!isBlank ·) s
        rw [Option.mem_def.mp hd] at hhead
        simpa using hhead

/-- Every text spells its words. -/
theorem spells_words (s : List Char) : Spells s (words s) := by
  rcases blank_or_first_word s with hblank | ⟨lead, word, rest, hsplit, hlead, hne, hword, hrest⟩
  · have hspells : Spells s [] := .blank hblank
    rw [hspells.words_eq]
    exact hspells
  · -- What is left behind a word is no tail of the text, but it is shorter.
    have hshorter : rest.length < s.length := by
      have hpos : 0 < word.length := List.length_pos_iff.mpr hne
      rw [hsplit, List.length_append, List.length_append]
      omega
    have hspells : Spells s (word :: words rest) := by
      rw [hsplit]
      exact .word hlead hne hword hrest (spells_words rest)
    rw [hspells.words_eq]
    exact hspells
termination_by s.length

theorem words_eq_iff {s : List Char} {ws : List (List Char)} : words s = ws ↔ Spells s ws := by
  constructor
  · rintro rfl
    exact spells_words s
  · exact Spells.words_eq

/-! ## Numbers -/

/-- Whether a run of characters is a number: ASCII digits that make at most the greatest 32-bit
integer. -/
structure IsNumber (run : List Char) : Prop where
  digits : ∀ c ∈ run, c.isDigit = true
  le_max : (digitsValue run : Int) ≤ maxInt32

theorem readInt_of_unsigned {run : List Char} (h : ∀ c ∈ run.head?, c ≠ '-' ∧ c ≠ '+') :
    readInt run = (readNat run).map fun n : Nat => (n : Int) := by
  unfold readInt
  split
  · exact absurd rfl (h '-' rfl).1
  · exact absurd rfl (h '+' rfl).2
  · cases readNat run <;> rfl

/-- No run of digits has a sign. -/
theorem unsigned_of_digits {run : List Char} (h : ∀ c ∈ run, isDecimalDigit c = true) :
    ∀ c ∈ run.head?, c ≠ '-' ∧ c ≠ '+' := by
  intro c hc
  have hdigit := h c (List.mem_of_mem_head? hc)
  constructor <;> rintro rfl <;> revert hdigit <;> decide

theorem readInt32_eq_some_iff {run : List Char} {n : Int} (hne : run ≠ [])
    (hrun : ∀ c ∈ run, isDecimalDigit c = true) :
    readInt32 run = some n ↔ IsNumber run ∧ n = digitsValue run := by
  have hread : readInt32 run =
      ((readNat run).map fun m : Nat => (m : Int)).filter fitsInt32 := by
    rw [readInt32, readInt_of_unsigned (unsigned_of_digits hrun)]
  by_cases hdigits : ∀ c ∈ run, c.isDigit = true
  · have hnat : readNat run = some (digitsValue run) := by
      have hall : run.all Char.isDigit = true := List.all_eq_true.mpr hdigits
      have hempty : run.isEmpty = false := by simpa using hne
      rw [readNat, hall, hempty]
      rfl
    have hfits : fitsInt32 (digitsValue run) = true ↔ (digitsValue run : Int) ≤ maxInt32 := by
      rw [fitsInt32, Bool.and_eq_true, decide_eq_true_eq, decide_eq_true_eq, minInt32]
      omega
    rw [hread, hnat, Option.map_some, Option.filter_eq_some_iff, Option.some.injEq]
    constructor
    · rintro ⟨rfl, hfit⟩
      exact ⟨⟨hdigits, hfits.mp hfit⟩, rfl⟩
    · rintro ⟨hnumber, rfl⟩
      exact ⟨rfl, hfits.mpr hnumber.le_max⟩
  · have hnat : readNat run = none := by
      have hall : run.all Char.isDigit = false := by
        rw [Bool.eq_false_iff, ne_eq, List.all_eq_true]
        exact hdigits
      rw [readNat, hall, Bool.and_false]
      rfl
    rw [hread, hnat]
    constructor
    · intro h
      cases h
    · rintro ⟨hnumber, -⟩
      exact absurd hnumber.digits hdigits

/-- Runs of digits that are all numbers are read as these numbers. -/
theorem readRuns_of_isNumber {runs : List (List Char)} (hne : ∀ run ∈ runs, run ≠ [])
    (h : ∀ run ∈ runs, IsNumber run) :
    readRuns runs = .ok (runs.map fun run => (digitsValue run : Int)) := by
  induction runs with
  | nil => rfl
  | cons run rest ih =>
    obtain ⟨hrun, hrest⟩ := List.forall_mem_cons.mp h
    obtain ⟨hfirst, hothers⟩ := List.forall_mem_cons.mp hne
    have hread : readInt32 run = some (digitsValue run : Int) :=
      (readInt32_eq_some_iff hfirst fun c hc => isDecimalDigit_of_isDigit (hrun.digits c hc)).mpr
        ⟨hrun, rfl⟩
    rw [readRuns, hread]
    simp only [ih hothers hrest]
    rfl

/-- One run that is no number is enough to be out of range. -/
theorem readRuns_of_not_isNumber {runs : List (List Char)}
    (hruns : ∀ run ∈ runs, run ≠ [] ∧ ∀ c ∈ run, isDecimalDigit c = true)
    (h : ¬ ∀ run ∈ runs, IsNumber run) :
    ∃ run, readRuns runs = .error (.outOfRange run) := by
  induction runs with
  | nil => exact absurd (by simp) h
  | cons run rest ih =>
    obtain ⟨⟨hne, hdigits⟩, hothers⟩ := List.forall_mem_cons.mp hruns
    cases hread : readInt32 run with
    | none => exact ⟨String.ofList run, by rw [readRuns, hread]⟩
    | some n =>
      have hnumber := ((readInt32_eq_some_iff hne hdigits).mp hread).1
      obtain ⟨other, herror⟩ := ih hothers fun hrest =>
        h (List.forall_mem_cons.mpr ⟨hnumber, hrest⟩)
      refine ⟨other, ?_⟩
      rw [readRuns, hread]
      simp only [herror]
      rfl

/-! ## What is accepted -/

/-- A text of five numbers: its words are five runs of digits, each of them a number. -/
def HoldsNumbers (raw : List Char) (values : List Int) : Prop :=
  ∃ runs, Spells raw runs ∧ runs.length = 5 ∧ (∀ run ∈ runs, IsNumber run) ∧
    values = runs.map fun run => (digitsValue run : Int)

theorem spells_of_digitRuns? {raw : List Char} {runs : List (List Char)}
    (h : digitRuns? raw = some runs) : Spells raw runs := by
  unfold digitRuns? at h
  simp only at h
  split at h
  · exact words_eq_iff.mp (Option.some.inj h)
  · cases h

theorem Spells.words_ne_nil {s : List Char} {ws : List (List Char)} (h : Spells s ws) :
    ∀ w ∈ ws, w ≠ [] := by
  induction h with
  | blank => simp
  | word _ hne _ _ _ ih => exact List.forall_mem_cons.mpr ⟨hne, ih⟩

variable {s : Settings} {raw : String} {values : List Int}

/-- Of five numbers the sum is looked at, and then each of them. -/
theorem manual_of_holdsNumbers (h : HoldsNumbers raw.toList values) :
    manual s raw =
      if s.budget < values.sum then .error (.overBudget (min values.sum maxInt32) s.budget)
      else setEach s.cap (ofLife s.initialLife) (Code.allocatable.zip values) := by
  obtain ⟨runs, hspells, hlength, hnumbers, hvalues⟩ := h
  have hdigits : ∀ run ∈ runs, run.all isDecimalDigit = true := by
    intro run hrun
    rw [List.all_eq_true]
    exact fun c hc => isDecimalDigit_of_isDigit ((hnumbers run hrun).digits c hc)
  have hruns : digitRuns? raw.toList = some runs := by
    rw [digitRuns?, words_eq_iff.mpr hspells]
    exact if_pos (by simpa [hlength] using hdigits)
  have hread : readRuns runs = .ok values := by
    rw [readRuns_of_isNumber hspells.words_ne_nil hnumbers, hvalues]
  rw [manual, hruns]
  simp only [hread]
  rw [← List.sum_eq_foldl]

/-- A text that does not hold five numbers is itself at fault. -/
theorem manual_of_not_holdsNumbers (h : ¬ ∃ values, HoldsNumbers raw.toList values) :
    ∃ fault, manual s raw = .error fault ∧ fault.IsAboutText := by
  cases hruns : digitRuns? raw.toList with
  | none =>
    refine ⟨.wrongShape raw, ?_, trivial⟩
    rw [manual, hruns]
  | some runs =>
    obtain ⟨hlength, hdigits⟩ := digitRuns?_some hruns
    have hspells := spells_of_digitRuns? hruns
    obtain ⟨run, hread⟩ : ∃ run, readRuns runs = .error (.outOfRange run) := by
      refine readRuns_of_not_isNumber (fun run hrun => ⟨hspells.words_ne_nil run hrun, ?_⟩) ?_
      · exact List.all_eq_true.mp (hdigits run hrun)
      · exact fun hnumbers => h ⟨_, runs, hspells, hlength, hnumbers, rfl⟩
    refine ⟨.outOfRange run, ?_, trivial⟩
    rw [manual, hruns]
    simp only [hread]

theorem setEach_eq_error_iff_find? {cap : Int} {fault : AllocationFault} {pairs : List (Code × Int)}
    {a : Attributes} : setEach cap a pairs = .error fault ↔
      ∃ p, pairs.find? (fun p => cap < p.2) = some p ∧ fault = .overCap p.1 p.2 cap := by
  induction pairs generalizing a with
  | nil => simp [setEach]
  | cons pair rest ih =>
    obtain ⟨code, value⟩ := pair
    rw [setEach]
    by_cases hcap : value > cap
    · simp [hcap, eq_comm]
    · simp [hcap, ih]

/-- The first value above the cap is the one that is reported. -/
theorem setEach_eq_error_iff {cap : Int} {fault : AllocationFault} {pairs : List (Code × Int)}
    {a : Attributes} : setEach cap a pairs = .error fault ↔
      ∃ before code value after, pairs = before ++ (code, value) :: after ∧
        (∀ p ∈ before, p.2 ≤ cap) ∧ cap < value ∧ fault = .overCap code value cap := by
  simp only [setEach_eq_error_iff_find?, List.find?_eq_some_iff_append]
  constructor
  · rintro ⟨⟨code, value⟩, ⟨hover, before, after, hsplit, hbefore⟩, rfl⟩
    exact ⟨before, code, value, after, hsplit, by simpa using hbefore, by simpa using hover, rfl⟩
  · rintro ⟨before, code, value, after, hsplit, hbefore, hover, rfl⟩
    exact ⟨(code, value), ⟨by simpa using hover, before, after, hsplit, by simpa using hbefore⟩, rfl⟩

/-- What five numbers that are set one after the other make. -/
theorem setEach_allocatable_eq_ok_iff {cap life chr int str mny spr : Int} {a : Attributes} :
    setEach cap (ofLife life) (Code.allocatable.zip [chr, int, str, mny, spr]) = .ok a ↔
      (∀ n ∈ [chr, int, str, mny, spr], n ≤ cap) ∧ a = ⟨chr, int, str, mny, spr, life, []⟩ := by
  have hbounds : (∀ n ∈ [chr, int, str, mny, spr], n ≤ cap) ↔
      ∀ p ∈ Code.allocatable.zip [chr, int, str, mny, spr], p.2 ≤ cap := by
    simp [Code.allocatable]
  rw [hbounds]
  constructor
  · exact setEach_ok
  · rintro ⟨hcap, rfl⟩
    rw [setEach_of_le hcap]
    rfl

theorem HoldsNumbers.unique {text : List Char} {others : List Int} (h : HoldsNumbers text values)
    (hothers : HoldsNumbers text others) : values = others := by
  obtain ⟨runs, hspells, -, -, rfl⟩ := h
  obtain ⟨runs', hspells', -, -, rfl⟩ := hothers
  rw [← hspells.words_eq, ← hspells'.words_eq]

theorem HoldsNumbers.length_eq {text : List Char} (h : HoldsNumbers text values) :
    values.length = 5 := by
  obtain ⟨runs, -, hlength, -, rfl⟩ := h
  rw [List.length_map, hlength]

theorem manual_eq_ok_iff {a : Attributes} :
    manual s raw = .ok a ↔
      ∃ chr int str mny spr, HoldsNumbers raw.toList [chr, int, str, mny, spr] ∧
        chr + int + str + mny + spr ≤ s.budget ∧ (∀ n ∈ [chr, int, str, mny, spr], n ≤ s.cap) ∧
        a = ⟨chr, int, str, mny, spr, s.initialLife, []⟩ := by
  have hsum : ∀ chr int str mny spr : Int,
      [chr, int, str, mny, spr].sum = chr + int + str + mny + spr := by
    intro chr int str mny spr
    simp only [List.sum_cons, List.sum_nil]
    omega
  constructor
  · intro h
    by_cases hholds : ∃ values, HoldsNumbers raw.toList values
    · obtain ⟨values, hvalues⟩ := hholds
      obtain ⟨chr, int, str, mny, spr, rfl⟩ : ∃ chr int str mny spr,
          values = [chr, int, str, mny, spr] := by
        match values, hvalues.length_eq with
        | [chr, int, str, mny, spr], _ => exact ⟨chr, int, str, mny, spr, rfl⟩
      rw [manual_of_holdsNumbers hvalues, hsum] at h
      split at h
      · cases h
      · next hbudget =>
        obtain ⟨hcap, ha⟩ := setEach_allocatable_eq_ok_iff.mp h
        exact ⟨chr, int, str, mny, spr, hvalues, Int.not_lt.mp hbudget, hcap, ha⟩
    · obtain ⟨fault, herror, -⟩ := manual_of_not_holdsNumbers (s := s) hholds
      rw [herror] at h
      cases h
  · rintro ⟨chr, int, str, mny, spr, hvalues, hbudget, hcap, ha⟩
    rw [manual_of_holdsNumbers hvalues, hsum, if_neg (Int.not_lt.mpr hbudget)]
    exact setEach_allocatable_eq_ok_iff.mpr ⟨hcap, ha⟩

/-- A fault that the text is not to blame for is that of five numbers. -/
theorem manual_eq_error_iff {fault : AllocationFault} (hfault : ¬ fault.IsAboutText) :
    manual s raw = .error fault ↔ ∃ values, HoldsNumbers raw.toList values ∧
      (s.budget < values.sum ∧ fault = .overBudget (min values.sum maxInt32) s.budget ∨
        values.sum ≤ s.budget ∧
          ∃ before code value after, Code.allocatable.zip values = before ++ (code, value) :: after ∧
            (∀ p ∈ before, p.2 ≤ s.cap) ∧ s.cap < value ∧ fault = .overCap code value s.cap) := by
  constructor
  · intro h
    by_cases hholds : ∃ values, HoldsNumbers raw.toList values
    · obtain ⟨values, hvalues⟩ := hholds
      rw [manual_of_holdsNumbers hvalues] at h
      refine ⟨values, hvalues, ?_⟩
      split at h
      · next hbudget => exact .inl ⟨hbudget, (Except.error.inj h).symm⟩
      · next hbudget => exact .inr ⟨Int.not_lt.mp hbudget, setEach_eq_error_iff.mp h⟩
    · obtain ⟨other, herror, habout⟩ := manual_of_not_holdsNumbers (s := s) hholds
      rw [herror] at h
      obtain rfl := Except.error.inj h
      exact absurd habout hfault
  · rintro ⟨values, hvalues, ⟨hbudget, rfl⟩ | ⟨hbudget, hover⟩⟩
    · rw [manual_of_holdsNumbers hvalues, if_pos hbudget]
    · rw [manual_of_holdsNumbers hvalues, if_neg (Int.not_lt.mpr hbudget)]
      exact setEach_eq_error_iff.mpr hover

theorem setEach_not_isAboutText {cap : Int} {a : Attributes} {pairs : List (Code × Int)}
    {fault : AllocationFault} (h : setEach cap a pairs = .error fault) : ¬ fault.IsAboutText := by
  obtain ⟨before, code, value, after, -, -, -, rfl⟩ := setEach_eq_error_iff.mp h
  exact id

theorem manual_isAboutText_iff :
    (∃ fault, manual s raw = .error fault ∧ fault.IsAboutText) ↔
      ¬ ∃ values, HoldsNumbers raw.toList values := by
  constructor
  · rintro ⟨fault, herror, habout⟩ ⟨values, hvalues⟩
    rw [manual_of_holdsNumbers hvalues] at herror
    split at herror
    · obtain rfl := Except.error.inj herror
      exact habout
    · exact setEach_not_isAboutText herror habout
  · exact manual_of_not_holdsNumbers

/-- **What a player writes is accepted exactly if it holds five numbers that keep to the rules.**
The sum may be at most the budget and no number may be above the cap; then the numbers are handed
out in order, life is as the settings say, and nothing has happened. Otherwise the text is at fault
exactly if it does not hold five 32-bit numbers; the budget is, exactly if their sum is above it,
whatever the cap, and the sum is reported as a 32-bit integer; and if the budget can pay them, the
first number above the cap is. -/
theorem manual_accepts_exactly (s : Settings) (raw : String) :
    (∀ a, manual s raw = .ok a ↔
      ∃ chr int str mny spr, HoldsNumbers raw.toList [chr, int, str, mny, spr] ∧
        chr + int + str + mny + spr ≤ s.budget ∧ (∀ n ∈ [chr, int, str, mny, spr], n ≤ s.cap) ∧
        a = ⟨chr, int, str, mny, spr, s.initialLife, []⟩) ∧
    ((∃ fault, manual s raw = .error fault ∧ fault.IsAboutText) ↔
      ¬ ∃ values, HoldsNumbers raw.toList values) ∧
    (∀ total budget, manual s raw = .error (.overBudget total budget) ↔
      ∃ values, HoldsNumbers raw.toList values ∧ s.budget < values.sum ∧
        total = min values.sum maxInt32 ∧ budget = s.budget) ∧
    ∀ code value cap, manual s raw = .error (.overCap code value cap) ↔
      ∃ values before after, HoldsNumbers raw.toList values ∧ values.sum ≤ s.budget ∧
        Code.allocatable.zip values = before ++ (code, value) :: after ∧
        (∀ p ∈ before, p.2 ≤ s.cap) ∧ s.cap < value ∧ cap = s.cap := by
  refine ⟨fun a => manual_eq_ok_iff, manual_isAboutText_iff, fun total budget => ?_,
    fun code value cap => ?_⟩
  · rw [manual_eq_error_iff id]
    constructor
    · rintro ⟨values, hvalues, ⟨hbudget, hfault⟩ | ⟨_, _, _, _, _, _, _, _, hfault⟩⟩
      · obtain ⟨htotal, hlimit⟩ := AllocationFault.overBudget.inj hfault
        exact ⟨values, hvalues, hbudget, htotal, hlimit⟩
      · cases hfault
    · rintro ⟨values, hvalues, hbudget, rfl, rfl⟩
      exact ⟨values, hvalues, .inl ⟨hbudget, rfl⟩⟩
  · rw [manual_eq_error_iff id]
    constructor
    · rintro ⟨values, hvalues, ⟨-, hfault⟩ | ⟨hbudget, before, _, _, after, hsplit, hbefore, hover,
        hfault⟩⟩
      · cases hfault
      · obtain ⟨rfl, rfl, rfl⟩ := AllocationFault.overCap.inj hfault
        exact ⟨values, before, after, hvalues, hbudget, hsplit, hbefore, hover, rfl⟩
    · rintro ⟨values, before, after, hvalues, hbudget, hsplit, hbefore, hover, rfl⟩
      exact ⟨values, hvalues, .inr ⟨hbudget, before, code, value, after, hsplit, hbefore, hover, rfl⟩⟩

end Attributes

end LifePath
