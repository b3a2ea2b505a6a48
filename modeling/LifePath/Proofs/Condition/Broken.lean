import LifePath.Proofs.Condition.Composition
import LifePath.Proofs.Condition.Mention

/-!
# Broken structure

A text whose parentheses do not match, or whose members and joins do not take turns, is kept whole
as one leaf, and so is a group of which that is true or that lies too deep (`BrokenText`,
`BrokenGroup`). Nothing marks such a leaf: it is read as a comparison like any other, and has to be
refused there.

It never passes as a comparison. What can be read as an operand is a word, so a text with a sign
outside its lists has no operand (`Comparison.isWord_of_readOperand`), and a broken text has a sign
(`BrokenText.exists_sign`). A broken group is always malformed, since it begins with a parenthesis,
which is no part of a code. But the operator is tested before the operand: a broken text that begins
with a code and an operator that is none is refused for that operator (`DoubledEquals`).
-/

namespace LifePath

open Glyph LifePath.Decimal

/-! ## What is broken -/

/-- Whether a sequence is not empty and its members and joins do not take turns. -/
def OutOfTurn (elements : List Element) : Prop := elements ≠ [] ∧ takeTurns? elements = none

/-- Whether a group that holds a sequence is kept as its text. -/
def BrokenAt (depth : Nat) (elements : List Element) : Prop := 64 < depth ∨ OutOfTurn elements

/-- Whether a text is kept whole: its parentheses do not match, or it is out of turn. -/
def BrokenText (text : String) : Prop :=
  ¬ Balanced (ofText text) ∨ ∃ elements, Reads 0 (ofText text) elements ∧ OutOfTurn elements

/-- Some characters are read as a sequence, below so many parentheses, and a group in it is broken
but none around that group is. The last argument is the text of the group, parentheses included. -/
inductive BrokenGroup : Nat → List Glyph → List Element → List Glyph → Prop where
  | here {depth : Nat} {before inner after : List Glyph} {first inside more : List Element} :
      Reads depth before first → Reads (depth + 1) inner inside → BrokenAt (depth + 1) inside →
      Reads depth after more →
      BrokenGroup depth (before ++ opening :: (inner ++ closing :: after))
        (first ++
          .member (groupReading (depth + 1) (opening :: (inner ++ [closing])) inside) :: more)
        (opening :: (inner ++ [closing]))
  | inside {depth : Nat} {before inner after raw : List Glyph} {first inside more : List Element} :
      Reads depth before first → BrokenGroup (depth + 1) inner inside raw →
      ¬ BrokenAt (depth + 1) inside → Reads depth after more →
      BrokenGroup depth (before ++ opening :: (inner ++ closing :: after))
        (first ++
          .member (groupReading (depth + 1) (opening :: (inner ++ [closing])) inside) :: more)
        raw

/-- A code, and behind it an operator that takes no equals sign, with an equals sign. -/
def DoubledEquals (mark : Char) (text : String) : Prop :=
  ∃ code rest, code ≠ [] ∧ (∀ c ∈ code, Comparison.isCodeChar c = true) ∧
    (mark = '=' ∨ mark = '?') ∧ text.toList = code ++ mark :: '=' :: rest

/-! ## Leaves -/

/-- The texts of the leaves that an item of a sequence stands for. -/
def Element.leaves : Element → List String
  | .member c => c.leaves
  | .join _ => []

theorem leavesOfEach_of_takeTurns {elements : List Element} {members : List Condition}
    {joins : List Join} (h : takeTurns? elements = some (members, joins)) :
    leavesOfEach members = elements.flatMap Element.leaves := by
  induction h using takeTurns?_induction with
  | single c => simp [leavesOfEach, Element.leaves]
  | cons c j _ ih => simp [leavesOfEach, Element.leaves, ih]

/-- The leaves of a sequence that is read as a group are those of its items. -/
theorem leaves_reading (raw : List Glyph) {elements : List Element} (h : ¬ OutOfTurn elements) :
    (reading raw elements).leaves = elements.flatMap Element.leaves := by
  cases elements with
  | nil => simp [reading, Condition.always, Condition.leaves, leavesOfEach]
  | cons e rest =>
    cases hturns : takeTurns? (e :: rest) with
    | none => exact absurd ⟨by simp, hturns⟩ h
    | some p =>
      obtain ⟨members, joins⟩ := p
      rw [← leavesOfEach_of_takeTurns hturns]
      by_cases hsingle : members.length = 1
      · obtain ⟨c, rfl⟩ := List.length_eq_one_iff.mp hsingle
        simp [reading_of_single hturns, leavesOfEach]
      · have hlength := takeTurns?_length hturns
        rw [reading_of_takeTurns hturns (by omega), Condition.leaves]

/-- Out of turn, the whole is one leaf. -/
theorem reading_of_outOfTurn (raw : List Glyph) {elements : List Element} (h : OutOfTurn elements) :
    reading raw elements = .leaf (Glyph.text raw) :=
  reading_of_takeTurns_eq_none h.1 h.2 raw

theorem groupReading_of_brokenAt {depth : Nat} (raw : List Glyph) {elements : List Element}
    (h : BrokenAt depth elements) : groupReading depth raw elements = .leaf (Glyph.text raw) := by
  rw [groupReading]
  split
  · next hdepth =>
    exact reading_of_outOfTurn raw (h.resolve_left (by omega))
  · rfl

theorem leaves_groupReading {depth : Nat} (raw : List Glyph) {elements : List Element}
    (h : ¬ BrokenAt depth elements) :
    (groupReading depth raw elements).leaves = elements.flatMap Element.leaves := by
  rw [BrokenAt, not_or, Nat.not_lt] at h
  rw [groupReading, if_pos h.1, leaves_reading raw h.2]

namespace BrokenGroup

variable {depth : Nat} {gs raw : List Glyph} {elements : List Element}

/-- What is read in front of a sequence does not mend a group in it. -/
theorem append_left (before : List Glyph) (items : List Element)
    (hbefore : ∀ {start : List Glyph} {first : List Element}, start <+: gs →
      Reads depth start first → Reads depth (before ++ start) (items ++ first))
    (h : BrokenGroup depth gs elements raw) :
    BrokenGroup depth (before ++ gs) (items ++ elements) raw := by
  cases h with
  | here hstart hinner hbroken hafter =>
    rw [← List.append_assoc, ← List.append_assoc]
    exact .here (hbefore (List.prefix_append ..) hstart) hinner hbroken hafter
  | inside hstart hinner hsound hafter =>
    rw [← List.append_assoc, ← List.append_assoc]
    exact .inside (hbefore (List.prefix_append ..) hstart) hinner hsound hafter

/-- The characters are read as the sequence. -/
theorem reads (h : BrokenGroup depth gs elements raw) : Reads depth gs elements := by
  induction h with
  | here hbefore hinner _ hafter =>
    exact hbefore.append (by simp [isSign]) (.group hinner hafter)
  | inside hbefore _ _ hafter hinner =>
    exact hbefore.append (by simp [isSign]) (.group hinner hafter)

/-- A broken group begins with a parenthesis. -/
theorem exists_raw_eq (h : BrokenGroup depth gs elements raw) : ∃ rest, raw = opening :: rest := by
  induction h with
  | here => exact ⟨_, rfl⟩
  | inside _ _ _ _ ih => exact ih

/-- A broken group is a leaf of what the sequence stands for. -/
theorem mem_leaves (h : BrokenGroup depth gs elements raw) :
    Glyph.text raw ∈ elements.flatMap Element.leaves := by
  induction h with
  | here _ _ hbroken _ =>
    simp [Element.leaves, groupReading_of_brokenAt _ hbroken, Condition.leaves]
  | inside _ _ hsound _ ih =>
    rw [List.flatMap_append, List.flatMap_cons]
    refine List.mem_append_right _ (List.mem_append_left _ ?_)
    rw [Element.leaves, leaves_groupReading _ hsound]
    exact ih

end BrokenGroup

/-- A piece of a text with no sign in it. -/
def IsPiece (gs piece : List Glyph) : Prop :=
  piece <:+: gs ∧ ∀ g ∈ piece, g.isSign = false

theorem IsPiece.of_infix {gs more piece : List Glyph} (h : IsPiece gs piece)
    (hmore : gs <:+: more) : IsPiece more piece := ⟨h.1.trans hmore, h.2⟩

/-- Every leaf of a sequence is a piece without signs or a broken group. -/
theorem Reads.leaf_cases {depth : Nat} {gs : List Glyph} {elements : List Element}
    (h : Reads depth gs elements) :
    ∀ leaf ∈ elements.flatMap Element.leaves,
      (∃ piece, IsPiece gs piece ∧ leaf = Glyph.text piece) ∨
        ∃ raw, BrokenGroup depth gs elements raw ∧ leaf = Glyph.text raw := by
  induction h with
  | nil => simp
  | @text depth chunk rest elements hne hchunk hrest _ ih =>
    intro leaf hleaf
    rw [List.flatMap_cons, List.mem_append] at hleaf
    rcases hleaf with hleaf | hleaf
    · obtain rfl : leaf = Glyph.text chunk := by
        simpa [Element.leaves, Condition.leaves] using hleaf
      exact .inl ⟨chunk, ⟨(List.prefix_append ..).isInfix, hchunk⟩, rfl⟩
    · rcases ih leaf hleaf with ⟨piece, hpiece, rfl⟩ | ⟨raw, hraw, rfl⟩
      · exact .inl ⟨piece, hpiece.of_infix (List.suffix_append ..).isInfix, rfl⟩
      · refine .inr ⟨raw, hraw.append_left chunk [_] fun hprefix hstart => ?_, rfl⟩
        obtain ⟨more, rfl⟩ := hprefix
        refine .text hne hchunk (fun g hg => hrest g ?_) hstart
        rw [List.head?_append, Option.mem_def.mp hg]
        rfl
  | @join depth j rest elements hreads ih =>
    intro leaf hleaf
    rcases ih leaf hleaf with ⟨piece, hpiece, rfl⟩ | ⟨raw, hraw, rfl⟩
    · exact .inl ⟨piece, hpiece.of_infix (List.suffix_cons ..).isInfix, rfl⟩
    · exact .inr ⟨raw, hraw.append_left [_] [_] fun _ => .join, rfl⟩
  | @group depth inner rest inside elements hinner hreads ihinner ih =>
    intro leaf hleaf
    rw [List.flatMap_cons, List.mem_append] at hleaf
    rcases hleaf with hleaf | hleaf
    · by_cases hbroken : BrokenAt (depth + 1) inside
      · obtain rfl : leaf = Glyph.text (opening :: (inner ++ [closing])) := by
          simpa [Element.leaves, groupReading_of_brokenAt _ hbroken, Condition.leaves] using hleaf
        exact .inr ⟨_, .here .nil hinner hbroken hreads, rfl⟩
      · rw [Element.leaves, leaves_groupReading _ hbroken] at hleaf
        rcases ihinner leaf hleaf with ⟨piece, hpiece, rfl⟩ | ⟨raw, hraw, rfl⟩
        · refine .inl ⟨piece, hpiece.of_infix ?_, rfl⟩
          exact ⟨[opening], closing :: rest, by simp⟩
        · exact .inr ⟨raw, .inside .nil hraw hbroken hreads, rfl⟩
    · rcases ih leaf hleaf with ⟨piece, hpiece, rfl⟩ | ⟨raw, hraw, rfl⟩
      · refine .inl ⟨piece, hpiece.of_infix ?_, rfl⟩
        exact ⟨opening :: (inner ++ [closing]), [], by simp⟩
      · have hsplit : opening :: (inner ++ closing :: rest)
            = opening :: (inner ++ [closing]) ++ rest := by simp
        refine .inr ⟨raw, ?_, rfl⟩
        rw [hsplit]
        refine hraw.append_left _ [_] fun {start first} _ hstart => ?_
        simpa using Reads.group hinner hstart

/-! ## Texts read as comparisons -/

namespace Glyph

/-- What means something in a text means the same once the blanks are gone. -/
theorem ofChars_map_char_kept (s : List Char) :
    ∀ inList, ofChars inList ((kept inList s).map char) = kept inList s := by
  induction s with
  | nil => intro inList; rfl
  | cons c rest ih =>
    intro inList
    rw [kept, ofChars, List.filter_cons]
    split
    · rw [List.map_cons, ofChars]
      exact congrArg _ (ih _)
    · next hblank =>
      rw [staysInList_of_not_isKept hblank]
      exact ih _

end Glyph

namespace Comparison

theorem isWord_of_readNat {s : List Char} {n : Nat} (h : readNat s = some n) : IsWord s := by
  rw [readNat] at h
  split at h
  · next hdigits =>
    simp only [Bool.and_eq_true, List.all_eq_true] at hdigits
    exact isWord_of_wordChars fun c hc => isWordChar_of_isDigit (hdigits.2 c hc)
  · cases h

theorem isWord_of_readInt {s : List Char} {n : Int} (h : readInt s = some n) : IsWord s := by
  -- with a sign or without, what is left has to be read as digits
  have hdigits : ∀ {digits : List Char} {f : Int → Int},
      Option.map f (do let m ← readNat digits; pure (m : Int)) = some n → IsWord digits := by
    intro digits f h
    cases hread : readNat digits with
    | none =>
      rw [hread] at h
      cases h
    | some m => exact isWord_of_readNat hread
  have hsign : ∀ {c : Char} {digits : List Char}, isWordChar c = true → IsWord digits →
      IsWord (c :: digits) :=
    fun {c _} hc hword => (isWord_of_wordChars (s := [c]) (by simpa using hc)).append hword
  unfold readInt at h
  split at h
  · exact hsign (by decide) (hdigits h)
  · exact hsign (by decide) (hdigits h)
  · exact hdigits h

/-- What is read as an operand is a word. -/
theorem isWord_of_readOperand {s : List Char} {operand : Operand}
    (h : readOperand s = some operand) : IsWord s := by
  rw [readOperand] at h
  split at h
  · next inside hbrackets =>
    split at h
    · cases h
    · next hplain =>
      have hnone : ∀ c ∈ inside, c ≠ '[' ∧ c ≠ ']' := by simpa using hplain
      rw [eq_of_inBrackets? hbrackets]
      exact isWord_list fun c hc => (hnone c hc).2
  · obtain ⟨n, hread, -⟩ := Option.map_eq_some_iff.mp h
    rw [readInt32, Option.filter_eq_some_iff] at hread
    exact isWord_of_readInt hread.1

/-- What follows a code is an operator, unless it is one that takes no equals sign with an equals
sign behind it. -/
theorem doubled_of_ofSymbol?_eq_none {mark : Char} {rest symbol value : List Char}
    (hmark : isOperatorChar mark = true) (hsplit : splitSymbol (mark :: rest) = (symbol, value))
    (hnone : Operator.ofSymbol? (String.ofList symbol) = none) :
    (mark = '=' ∨ mark = '?') ∧ ∃ more, rest = '=' :: more := by
  simp only [isOperatorChar, Bool.or_eq_true, decide_eq_true_eq] at hmark
  unfold splitSymbol at hsplit
  split at hsplit
  · next more heq =>
    obtain ⟨rfl, rfl⟩ := List.cons.inj heq
    obtain ⟨rfl, -⟩ := Prod.mk.inj hsplit
    refine ⟨?_, more, rfl⟩
    rcases hmark with (((rfl | rfl) | rfl) | rfl) | rfl
    · exact absurd hnone (by decide +kernel)
    · exact absurd hnone (by decide +kernel)
    · exact .inl rfl
    · exact absurd hnone (by decide +kernel)
    · exact .inr rfl
  · next heq =>
    obtain ⟨rfl, rfl⟩ := List.cons.inj heq
    obtain ⟨rfl, -⟩ := Prod.mk.inj hsplit
    refine absurd hnone ?_
    rcases hmark with (((rfl | rfl) | rfl) | rfl) | rfl <;> decide +kernel
  · next heq => cases heq

theorem isWord_of_ofSymbol? {symbol : List Char} {operator : Operator}
    (h : Operator.ofSymbol? (String.ofList symbol) = some operator) : IsWord symbol := by
  have hsymbol : operator.symbol = String.ofList symbol := by
    simpa using List.find?_some h
  have hword := isWord_symbol operator
  rwa [hsymbol, String.toList_ofList] at hword

/-- An operator's symbol, taken from the front of a text, leaves the rest. -/
theorem append_of_splitSymbol {tail symbol value : List Char}
    (h : splitSymbol tail = (symbol, value)) : tail = symbol ++ value := by
  unfold splitSymbol at h
  split at h <;> obtain ⟨rfl, rfl⟩ := Prod.mk.inj h <;> rfl

/-- The operator is tested before the operand. -/
theorem read_of_doubledEquals {text : String} {mark : Char} (h : DoubledEquals mark text) :
    read text = .error (.unknownOperator (String.ofList [mark, '=']) text) := by
  obtain ⟨code, rest, hne, hcode, hmark, htext⟩ := h
  have hhead : ∀ c ∈ (mark :: '=' :: rest).head?, isOperatorChar c = true := by
    rcases hmark with rfl | rfl <;> simp [isOperatorChar]
  have hnone : Operator.ofSymbol? (String.ofList [mark, '=']) = none := by
    rcases hmark with rfl | rfl <;> decide +kernel
  obtain ⟨htake, hdrop⟩ := split_code hcode hhead
  unfold read
  simp only [htext, htake, hdrop, isGood_code hne hcode, splitSymbol, hnone]
  rfl

/-- A text that is no word is malformed, unless it is refused for its operator. -/
theorem read_of_not_isWord {text : String} (hword : ¬ IsWord text.toList)
    (hsymbol : ∀ mark, ¬ DoubledEquals mark text) : read text = .error (.malformed text) := by
  have htext := List.takeWhile_append_dropWhile (p := fun c => !isOperatorChar c) (l := text.toList)
  have hhead := List.head?_dropWhile_not (fun c => !isOperatorChar c) text.toList
  unfold read
  dsimp only
  generalize text.toList.takeWhile (fun c => !isOperatorChar c) = code at htext ⊢
  generalize text.toList.dropWhile (fun c => !isOperatorChar c) = tail at htext hhead ⊢
  cases tail with
  | nil => rfl
  | cons mark rest =>
    have hmark : isOperatorChar mark = true := by simpa using hhead
    by_cases hgood : code.isEmpty || !code.all isCodeChar
    · simp [hgood]
    · simp only [Bool.or_eq_true, Bool.not_eq_true', not_or, List.isEmpty_iff,
        Bool.not_eq_false, List.all_eq_true] at hgood
      obtain ⟨hne, hcode⟩ := hgood
      obtain ⟨symbol, value, hsplit⟩ : ∃ symbol value,
        splitSymbol (mark :: rest) = (symbol, value) := ⟨_, _, rfl⟩
      simp only [isGood_code hne hcode, hsplit]
      cases hop : Operator.ofSymbol? (String.ofList symbol) with
      | none =>
        obtain ⟨hdoubled, more, rfl⟩ := doubled_of_ofSymbol?_eq_none hmark hsplit hop
        exact absurd ⟨code, more, hne, hcode, hdoubled, htext.symm⟩ (hsymbol mark)
      | some operator =>
        cases hvalue : readOperand value with
        | none => rfl
        | some operand =>
          -- code, symbol and operand are words, and so is what they make up
          refine absurd ?_ hword
          rw [← htext, append_of_splitSymbol hsplit]
          have hcode' : IsWord code :=
            isWord_of_wordChars fun c hc => isWordChar_of_isCodeChar (hcode c hc)
          exact hcode'.append ((isWord_of_ofSymbol? hop).append (isWord_of_readOperand hvalue))

/-- No code has a parenthesis in it. -/
theorem read_parenthesis (s : List Char) :
    read (String.ofList ('(' :: s)) = .error (.malformed (String.ofList ('(' :: s))) := by
  unfold read
  simp only [String.toList_ofList]
  rw [List.takeWhile_cons_of_pos (by decide)]
  split
  · rfl
  · rfl

end Comparison

/-! ## Broken texts -/

theorem Reads.eq_nil {depth : Nat} {elements : List Element} (h : Reads depth [] elements) :
    elements = [] := by
  generalize hgs : ([] : List Glyph) = gs at h
  cases h with
  | nil => rfl
  | text hne => exact absurd (List.append_eq_nil_iff.mp hgs.symm).1 hne
  | join | group => cases hgs

/-- What is out of turn has a sign in it. -/
theorem Reads.exists_sign {depth : Nat} {gs : List Glyph} {elements : List Element}
    (h : Reads depth gs elements) (hturns : OutOfTurn elements) : ∃ g ∈ gs, g.isSign = true := by
  cases h with
  | nil => exact absurd rfl hturns.1
  | @text _ chunk rest elements _ _ hrest hreads =>
    cases rest with
    | nil =>
      -- a piece that nothing follows is a member alone
      obtain rfl := hreads.eq_nil
      cases hturns.2
    | cons g rest => exact ⟨g, by simp, hrest g rfl⟩
  | @join _ j => exact ⟨ofJoin j, by simp, isSign_ofJoin j⟩
  | group => exact ⟨opening, by simp, rfl⟩

/-- Without a sign there is nothing to balance. -/
theorem Glyph.exists_sign_of_not_balanced {gs : List Glyph} (h : ¬ Balanced gs) :
    ∃ g ∈ gs, g.isSign = true := by
  by_contra hnone
  have hcount : ∀ p, p <+: gs → ∀ sign : Glyph, sign.isSign = true → p.count sign = 0 := by
    intro p hp sign hsign
    exact List.count_eq_zero_of_not_mem fun hmem => hnone ⟨sign, hp.subset hmem, hsign⟩
  refine h ⟨fun p hp => ?_, ?_⟩
  · rw [hcount p hp closing rfl]
    exact Nat.zero_le _
  · rw [hcount gs List.prefix_rfl closing rfl, hcount gs List.prefix_rfl opening rfl]

namespace BrokenText

variable {text : String}

theorem exists_sign (h : BrokenText text) : ∃ g ∈ ofText text, g.isSign = true := by
  rcases h with hunbalanced | ⟨elements, hreads, hturns⟩
  · exact exists_sign_of_not_balanced hunbalanced
  · exact hreads.exists_sign hturns

/-- What is kept of a broken text is no word. -/
theorem not_isWord (h : BrokenText text) : ¬ IsWord (Glyph.text (ofText text)).toList := by
  intro hword
  obtain ⟨g, hg, hsign⟩ := h.exists_sign
  have hscan : ofChars false (Glyph.text (ofText text)).toList = ofText text := by
    rw [Glyph.text, String.toList_ofList]
    exact ofChars_map_char_kept text.toList false
  rw [← hscan] at hg
  exact Bool.false_ne_true ((hword.plain g hg).1.symm.trans hsign)

/-- A broken text is read as one leaf. -/
theorem read_eq (h : BrokenText text) :
    Condition.read text = .leaf (Glyph.text (ofText text)) := by
  rcases h with hunbalanced | ⟨elements, hreads, hturns⟩
  · exact read_of_not_balanced hunbalanced
  · rw [read_of_reads hreads, reading_of_outOfTurn _ hturns]

end BrokenText

/-! ## Main statement -/

/-- **Broken structure never decides.** Whatever the source is:

* a broken text is one leaf, which holds it without its blanks; that leaf is malformed, unless it
  begins with a code and an operator that takes no equals sign with one behind it, which is then
  reported as unknown;
* a broken group is malformed, and it is a leaf of the condition if the text is not broken itself;
* there is nothing else: the other leaves are pieces of the text without signs.

Neither the one fault nor the other asks the source for anything. -/
theorem broken_structure_never_decides (text : String) (source : Source) :
    (BrokenText text →
      let raw := Glyph.text (ofText text)
      Condition.read text = .leaf raw ∧
        ((∀ mark, ¬ DoubledEquals mark raw) →
          (Condition.read text).evaluate source = ⟨.error (.malformed raw), []⟩) ∧
        ∀ mark, DoubledEquals mark raw →
          (Condition.read text).evaluate source =
            ⟨.error (.unknownOperator (String.ofList [mark, '=']) raw), []⟩) ∧
      (∀ elements raw, BrokenGroup 0 (ofText text) elements raw →
        (Condition.leaf (Glyph.text raw)).evaluate source =
            ⟨.error (.malformed (Glyph.text raw)), []⟩ ∧
          (¬ BrokenText text → Glyph.text raw ∈ (Condition.read text).leaves)) ∧
      ∀ leaf ∈ (Condition.read text).leaves,
        (∃ piece, IsPiece (ofText text) piece ∧ leaf = Glyph.text piece) ∨
          BrokenText text ∧ leaf = Glyph.text (ofText text) ∨
          ∃ elements raw, BrokenGroup 0 (ofText text) elements raw ∧ leaf = Glyph.text raw := by
  refine ⟨fun hbroken => ?_, fun elements raw hgroup => ?_, fun leaf hleaf => ?_⟩
  · intro raw
    have hread : Condition.read text = .leaf raw := hbroken.read_eq
    rw [hread, Condition.evaluate, evaluateLeaf]
    refine ⟨rfl, fun hsymbol => ?_, fun mark hmark => ?_⟩
    · rw [Comparison.read_of_not_isWord hbroken.not_isWord hsymbol]
    · rw [Comparison.read_of_doubledEquals hmark]
  · refine ⟨?_, fun hsound => ?_⟩
    · obtain ⟨rest, rfl⟩ := hgroup.exists_raw_eq
      have hraw : Glyph.text (opening :: rest) = String.ofList ('(' :: rest.map char) := rfl
      rw [Condition.evaluate, evaluateLeaf, hraw, Comparison.read_parenthesis]
    · have hturns : ¬ OutOfTurn elements := fun h => hsound (.inr ⟨elements, hgroup.reads, h⟩)
      rw [read_of_reads hgroup.reads, leaves_reading _ hturns]
      exact hgroup.mem_leaves
  · by_cases hbroken : BrokenText text
    · rw [hbroken.read_eq, Condition.leaves, List.mem_singleton] at hleaf
      exact .inr (.inl ⟨hbroken, hleaf⟩)
    · rw [BrokenText, not_or, not_not] at hbroken
      obtain ⟨elements, hreads⟩ := (reads_iff_balanced _).mpr hbroken.1
      have hturns : ¬ OutOfTurn elements := fun h => hbroken.2 ⟨elements, hreads, h⟩
      rw [read_of_reads hreads, leaves_reading _ hturns] at hleaf
      rcases hreads.leaf_cases leaf hleaf with hpiece | ⟨raw, hgroup, hraw⟩
      · exact .inl hpiece
      · exact .inr (.inr ⟨elements, raw, hgroup, hraw⟩)

/-- The second of two members is a group that ends with a join. -/
theorem brokenGroup_danglingJoin :
    BrokenGroup 0 (ofText "A>1&(B<2|)")
      ([.member (.leaf "A>1"), .join .and] ++
        .member (groupReading 1 (ofText "(B<2|)") [.member (.leaf "B<2"), .join .or]) :: [])
      (ofText "(B<2|)") := by
  have hfirst : Reads 0 (ofText "A>1&") [.member (.leaf "A>1"), .join .and] :=
    .text (by decide : ofText "A>1" ≠ []) (by decide) (by decide) (.join (j := .and) .nil)
  have hinner : Reads 1 (ofText "B<2|") [.member (.leaf "B<2"), .join .or] :=
    .text (by decide : ofText "B<2" ≠ []) (by decide) (by decide) (.join (j := .or) .nil)
  exact .here hfirst hinner (.inr ⟨by simp, rfl⟩) .nil

/-- The group is refused although all attributes are known. -/
theorem broken_structure_never_decides_danglingJoin :
    (Condition.leaf "(B<2|)").evaluate (fun _ => some (.number 2)) =
      ⟨.error (.malformed "(B<2|)"), []⟩ :=
  ((broken_structure_never_decides "A>1&(B<2|)" fun _ => some (.number 2)).2.1 _ _
    brokenGroup_danglingJoin).1

/-- A join with nothing behind it goes unnoticed when the operator is doubled. -/
theorem unknown_operator_hides_broken_structure :
    BrokenText "CHR==5&" ∧
      ((Condition.read "CHR==5&").evaluate fun _ => none) =
        ⟨.error (.unknownOperator "==" "CHR==5&"), []⟩ ∧
      ((Condition.read "CHR==5&").evaluate fun _ => none) ≠
        ⟨.error (.malformed "CHR==5&"), []⟩ := by
  have hreads : Reads 0 (ofText "CHR==5&") [.member (.leaf "CHR==5"), .join .and] :=
    .text (by decide : ofText "CHR==5" ≠ []) (by decide) (by decide) (.join (j := .and) .nil)
  have hverdict : ((Condition.read "CHR==5&").evaluate fun _ => none) =
      ⟨.error (.unknownOperator "==" "CHR==5&"), []⟩ := by rfl
  refine ⟨.inr ⟨_, hreads, by simp, rfl⟩, hverdict, ?_⟩
  rw [hverdict]
  simp

end LifePath
