import LifePath.Proofs.Condition.Writing

/-!
# Words

What a text means is put together from what its parts mean, if no part ends inside a list
(`Glyph.kept_append`), and blanks that are put in do not count (`Spaced.kept_eq`). A word is a text
that is taken whole and as it is: it has no parenthesis, no join and no blank, lists apart. A
written comparison is one (`Comparison.isWord_of_written`).
-/

namespace LifePath

open LifePath.Text LifePath.Decimal

namespace Glyph

/-! ## Parts of a text -/

/-- Whether a list is open after a text that begins inside a list or outside. -/
def listAfter (inList : Bool) (s : List Char) : Bool := s.foldl staysInList inList

/-- The characters that mean something in a text that begins inside a list or outside. -/
def kept (inList : Bool) (s : List Char) : List Glyph := (ofChars inList s).filter isKept

theorem map_char_ofChars_self (s : List Char) : ∀ inList, (ofChars inList s).map char = s := by
  induction s with
  | nil => exact fun _ => rfl
  | cons c rest ih =>
    intro inList
    rw [ofChars, List.map_cons, ih]

theorem ofChars_append (s t : List Char) :
    ∀ inList, ofChars inList (s ++ t) = ofChars inList s ++ ofChars (listAfter inList s) t := by
  induction s with
  | nil => exact fun _ => rfl
  | cons c rest ih =>
    intro inList
    rw [List.cons_append, ofChars, ofChars, ih]
    rfl

theorem listAfter_append (inList : Bool) (s t : List Char) :
    listAfter inList (s ++ t) = listAfter (listAfter inList s) t := List.foldl_append

theorem kept_append (inList : Bool) (s t : List Char) :
    kept inList (s ++ t) = kept inList s ++ kept (listAfter inList s) t := by
  rw [kept, ofChars_append, List.filter_append]
  rfl

theorem kept_cons_join (j : Join) (s : List Char) :
    kept false (j.mark :: s) = ofJoin j :: kept false s := by
  cases j <;> rfl

theorem kept_parentheses {s : List Char} (h : listAfter false s = false) :
    kept false ('(' :: (s ++ [')'])) = opening :: (kept false s ++ [closing]) := by
  have hopen : kept false ('(' :: (s ++ [')'])) = opening :: kept false (s ++ [')']) := rfl
  rw [hopen, kept_append, h]
  rfl

theorem listAfter_parentheses {s : List Char} (h : listAfter false s = false) :
    listAfter false ('(' :: (s ++ [')'])) = false := by
  have hopen : listAfter false ('(' :: (s ++ [')'])) = listAfter false (s ++ [')']) := rfl
  rw [hopen, listAfter_append, h]
  rfl

end Glyph

/-- Blanks that are put in are not kept. -/
theorem Spaced.kept_eq {inList : Bool} {s t : List Char} (h : Spaced inList s t) :
    Glyph.kept inList t = Glyph.kept inList s := by
  induction h with
  | nil => rfl
  | keep _ ih =>
    simp only [Glyph.kept, Glyph.ofChars, List.filter_cons] at ih ⊢
    rw [ih]
  | @blank c s t hblank _ ih =>
    -- a blank opens no list
    have hc : (c == '[') = false := by
      simpa using (ne_marks_of_isBlank hblank).2.1
    have hstays : Glyph.staysInList false c = false := by simpa [Glyph.staysInList] using hc
    rw [Glyph.kept, Glyph.ofChars, List.filter_cons_of_neg (by simp [Glyph.isKept, hc, hblank]),
      hstays]
    exact ih

/-! ## Comparisons -/

namespace Glyph

/-- A text that is taken as it is: nothing in it is a parenthesis, a join or a blank, lists apart,
and its lists are closed. -/
structure IsWord (s : List Char) : Prop where
  closed : listAfter false s = false
  plain : ∀ g ∈ ofChars false s, g.isSign = false ∧ g.isKept = true

theorem IsWord.append {s t : List Char} (hs : IsWord s) (ht : IsWord t) : IsWord (s ++ t) := by
  refine ⟨by rw [listAfter_append, hs.closed, ht.closed], ?_⟩
  intro g hg
  rw [ofChars_append, hs.closed] at hg
  rcases List.mem_append.mp hg with hg | hg
  · exact hs.plain g hg
  · exact ht.plain g hg

theorem IsWord.kept_eq {s : List Char} (hs : IsWord s) : kept false s = ofChars false s :=
  List.filter_eq_self.mpr fun g hg => (hs.plain g hg).2

theorem IsWord.text_kept {s : List Char} (hs : IsWord s) :
    Glyph.text (kept false s) = String.ofList s := by
  rw [hs.kept_eq, Glyph.text, map_char_ofChars_self]

/-- Whether a character stands for itself wherever it is outside a list. -/
def isWordChar (c : Char) : Bool :=
  !isBlank c && c != '[' && c != '(' && c != ')' && c != '&' && c != '|'

theorem isWord_of_wordChars {s : List Char} (h : ∀ c ∈ s, isWordChar c = true) : IsWord s := by
  induction s with
  | nil => exact ⟨rfl, by simp [ofChars]⟩
  | cons c rest ih =>
    obtain ⟨hc, hrest⟩ := List.forall_mem_cons.mp h
    simp only [isWordChar, Bool.and_eq_true, Bool.not_eq_true', bne_iff_ne, ne_eq] at hc
    obtain ⟨⟨⟨⟨⟨hblank, hbracket⟩, hopen⟩, hclose⟩, hand⟩, hor⟩ := hc
    have hstays : staysInList false c = false := by simpa [staysInList] using hbracket
    have hword := ih hrest
    refine ⟨by rw [listAfter, List.foldl_cons, hstays]; exact hword.closed, ?_⟩
    rw [ofChars, hstays, List.forall_mem_cons]
    refine ⟨?_, hword.plain⟩
    simp [isSign, isKept, opening, closing, ofJoin, Join.mark, hblank, hopen, hclose, hand, hor]

theorem plain_of_inList {g : Glyph} (h : g.inList = true) :
    g.isSign = false ∧ g.isKept = true := by
  obtain ⟨c, inList⟩ := g
  subst h
  simp [isSign, isKept, opening, closing, ofJoin]

/-- A list goes on until it is closed. -/
theorem inList_ofChars {s : List Char} (h : ∀ c ∈ s, c ≠ ']') :
    listAfter true s = true ∧ ∀ g ∈ ofChars true s, g.inList = true := by
  induction s with
  | nil => exact ⟨rfl, by simp [ofChars]⟩
  | cons c rest ih =>
    obtain ⟨hc, hrest⟩ := List.forall_mem_cons.mp h
    have hstays : staysInList true c = true := by simpa [staysInList] using hc
    obtain ⟨hlist, hglyphs⟩ := ih hrest
    refine ⟨by rw [listAfter, List.foldl_cons, hstays]; exact hlist, ?_⟩
    rw [ofChars, hstays, List.forall_mem_cons]
    exact ⟨rfl, hglyphs⟩

/-- A list is a word, whatever stands in it. -/
theorem isWord_list {inside : List Char} (h : ∀ c ∈ inside, c ≠ ']') :
    IsWord ('[' :: (inside ++ [']'])) := by
  obtain ⟨hlist, hglyphs⟩ := inList_ofChars h
  have hclosed : listAfter false ('[' :: (inside ++ [']'])) = false := by
    have hopen : listAfter false ('[' :: (inside ++ [']'])) = listAfter true (inside ++ [']']) := rfl
    rw [hopen, listAfter_append, hlist]
    rfl
  have hall : ∀ g ∈ ofChars false ('[' :: (inside ++ [']'])), g.inList = true := by
    -- the bracket that closes the list still belongs to it
    have hopen : ofChars false ('[' :: (inside ++ [']']))
        = ⟨'[', true⟩ :: ofChars true (inside ++ [']']) := rfl
    have hclose : ofChars true [']'] = [⟨']', true⟩] := rfl
    rw [hopen, ofChars_append, hlist, hclose, List.forall_mem_cons, List.forall_mem_append,
      List.forall_mem_singleton]
    exact ⟨rfl, hglyphs, rfl⟩
  exact ⟨hclosed, fun g hg => plain_of_inList (hall g hg)⟩

theorem isWordChar_of_visible {c : Char} (hlow : 33 ≤ c.toNat) (hhigh : c.toNat ≤ 126)
    (h : c ≠ '[' ∧ c ≠ '(' ∧ c ≠ ')' ∧ c ≠ '&' ∧ c ≠ '|') : isWordChar c = true := by
  simp [isWordChar, isBlank_eq_false_of_visible hlow hhigh, h]

end Glyph

namespace Comparison

open Glyph

theorem isWordChar_of_isCodeChar {c : Char} (h : isCodeChar c = true) : isWordChar c = true := by
  have hrange : 33 ≤ c.toNat ∧ c.toNat ≤ 126 := by
    simp only [isCodeChar, Bool.or_eq_true, decide_eq_true_eq] at h
    rcases h with h | rfl
    · unfold Char.isAlphanum Char.isAlpha Char.isUpper Char.isLower Char.isDigit at h
      simp only [Bool.or_eq_true, Bool.and_eq_true, decide_eq_true_eq, ge_iff_le,
        UInt32.le_iff_toNat_le] at h
      rcases h with (⟨hlow, hhigh⟩ | ⟨hlow, hhigh⟩) | ⟨hlow, hhigh⟩ <;>
        exact ⟨Nat.le_trans (by decide) hlow, Nat.le_trans hhigh (by decide)⟩
    · decide
  refine isWordChar_of_visible hrange.1 hrange.2 ?_
  refine ⟨?_, ?_, ?_, ?_, ?_⟩ <;> rintro rfl <;> revert h <;> decide

theorem isWordChar_of_isDigit {c : Char} (h : c.isDigit = true) : isWordChar c = true :=
  isWordChar_of_isCodeChar (by unfold isCodeChar Char.isAlphanum; simp [h])

theorem isWordChar_of_isOperatorChar {c : Char} (h : isOperatorChar c = true) :
    isWordChar c = true := by
  simp only [isOperatorChar, Bool.or_eq_true, decide_eq_true_eq] at h
  rcases h with (((rfl | rfl) | rfl) | rfl) | rfl <;>
    exact isWordChar_of_visible (by decide) (by decide) (by decide)

theorem isWord_symbol (operator : Operator) : IsWord operator.symbol.toList := by
  have hsymbol : ∀ c ∈ operator.symbol.toList, isOperatorChar c = true := by
    cases operator <;> simp [Operator.symbol, isOperatorChar]
  exact isWord_of_wordChars fun c hc => isWordChar_of_isOperatorChar (hsymbol c hc)

theorem isWord_intDigits (n : Int) : IsWord (intDigits n) := by
  apply isWord_of_wordChars
  have hdigits : ∀ c ∈ Nat.toDigits 10 n.natAbs, isWordChar c = true := fun c hc =>
    isWordChar_of_isDigit (isDigit_of_mem_toDigits hc)
  have hminus : isWordChar '-' = true :=
    isWordChar_of_visible (by decide) (by decide) (by decide)
  rw [intDigits]
  split
  · exact List.forall_mem_cons.mpr ⟨hminus, hdigits⟩
  · exact hdigits

theorem isWord_operand {operator : Operator} {operand : Operand} {s : List Char}
    (hfits : operand.Fits operator) (h : operand.Written s) : IsWord s := by
  cases operand with
  | integer n =>
    cases h with
    | integer => exact isWord_intDigits n
  | list items =>
    obtain ⟨inside, rfl, hplain, -⟩ := exists_inside hfits.2 h
    exact isWord_list fun c hc => (hplain c hc).2

/-- A written comparison is taken as it is. -/
theorem isWord_of_written {c : Comparison} {s : List Char} (hc : c.Printable) (h : c.Written s) :
    IsWord s := by
  obtain ⟨operand, hoperand, rfl⟩ := h
  have hcode : IsWord c.code.toList :=
    isWord_of_wordChars fun x hx => isWordChar_of_isCodeChar (hc.code x hx)
  exact (hcode.append (isWord_symbol c.operator)).append (isWord_operand hc.operand hoperand)

theorem ne_nil_of_written {c : Comparison} {s : List Char} (hc : c.Printable) (h : c.Written s) :
    s ≠ [] := by
  obtain ⟨operand, -, rfl⟩ := h
  simp [hc.code_ne_nil]

end Comparison

end LifePath
