import LifePath.Condition.Comparison
import LifePath.Proofs.Text.Blank
import Mathlib.Data.List.Forall2

/-!
# Comparisons as they are written

A comparison is written as its code, the operator's symbol and the operand: a decimal integer, or
items between brackets with commas between them and any blanks around each. Whatever is written
that way reads back to the comparison (`Comparison.read_of_written`), provided that it can be
written at all (`Comparison.Printable`): its code is one, its integer has 32 bits, its items say
where they begin and end, and no order is asked for against a list. The text that has no blanks is
one of those that can be written (`Comparison.written_text`).
-/

namespace LifePath

open LifePath.Text LifePath.Decimal

/-- An item that a list gives back as it was put in. -/
structure IsItem (item : String) : Prop where
  trimmed : Trimmed item.toList
  plain : ∀ c ∈ item.toList, c ≠ ',' ∧ c ≠ '[' ∧ c ≠ ']'

/-- Whether an operand can stand behind an operator. -/
def Operand.Fits (operator : Operator) : Operand → Prop
  | .integer n => fitsInt32 n = true
  | .list items => operator.isOrdering = false ∧ ∀ item ∈ items, IsItem item

namespace Comparison

/-- A comparison that can be written. -/
structure Printable (c : Comparison) : Prop where
  code_ne_nil : c.code.toList ≠ []
  code : ∀ x ∈ c.code.toList, isCodeChar x = true
  operand : c.operand.Fits c.operator

end Comparison

/-- An item with blanks around it. -/
def Padded (item : String) (piece : List Char) : Prop :=
  ∃ left right, (∀ c ∈ left, isBlank c = true) ∧ (∀ c ∈ right, isBlank c = true) ∧
    piece = left ++ item.toList ++ right

/-- How an operand can be written. -/
inductive Operand.Written : Operand → List Char → Prop where
  | integer (n : Int) : Written (.integer n) (intDigits n)
  | empty {pad : List Char} :
      (∀ c ∈ pad, isBlank c = true) → Written (.list []) ('[' :: (pad ++ [']']))
  | list {item : String} {items : List String} {pieces : List (List Char)} :
      List.Forall₂ Padded (item :: items) pieces →
      Written (.list (item :: items)) ('[' :: ([','].intercalate pieces ++ [']']))

/-- How a comparison can be written, blanks outside lists apart. -/
def Comparison.Written (c : Comparison) (s : List Char) : Prop :=
  ∃ operand, c.operand.Written operand ∧
    s = c.code.toList ++ c.operator.symbol.toList ++ operand

/-! ## Operands -/

theorem Padded.trim_eq {item : String} {piece : List Char} (hitem : IsItem item)
    (h : Padded item piece) : trim piece = item.toList := by
  obtain ⟨left, right, hleft, hright, rfl⟩ := h
  exact trim_padded hitem.trimmed hleft hright

theorem ne_marks_of_isBlank {c : Char} (h : isBlank c = true) : c ≠ ',' ∧ c ≠ '[' ∧ c ≠ ']' := by
  refine ⟨?_, ?_, ?_⟩ <;> rintro rfl <;> revert h <;> decide

theorem Padded.plain {item : String} {piece : List Char} (hitem : IsItem item)
    (h : Padded item piece) : ∀ c ∈ piece, c ≠ ',' ∧ c ≠ '[' ∧ c ≠ ']' := by
  obtain ⟨left, right, hleft, hright, rfl⟩ := h
  intro c hc
  rcases List.mem_append.mp hc with hc | hc
  · rcases List.mem_append.mp hc with hc | hc
    · exact ne_marks_of_isBlank (hleft c hc)
    · exact hitem.plain c hc
  · exact ne_marks_of_isBlank (hright c hc)

namespace Comparison

/-- Pieces read as the items that were padded. -/
theorem readItems_pieces {items : List String} {pieces : List (List Char)}
    (hitems : ∀ item ∈ items, IsItem item) (h : List.Forall₂ Padded items pieces) :
    ((pieces.map trim).filter fun item => !item.isEmpty).map String.ofList = items := by
  induction h with
  | nil => rfl
  | @cons item piece items pieces hpiece _ ih =>
    obtain ⟨hitem, hrest⟩ := List.forall_mem_cons.mp hitems
    -- blank pieces are left out, but no item is one
    have hne : item.toList.isEmpty = false := by
      simpa using hitem.trimmed.ne_nil
    rw [List.map_cons, hpiece.trim_eq hitem, List.filter_cons_of_pos (by simpa using hne),
      List.map_cons, String.ofList_toList, ih hrest]

theorem pieces_plain {items : List String} {pieces : List (List Char)}
    (hitems : ∀ item ∈ items, IsItem item) (h : List.Forall₂ Padded items pieces) :
    ∀ piece ∈ pieces, ∀ c ∈ piece, c ≠ ',' ∧ c ≠ '[' ∧ c ≠ ']' := by
  induction h with
  | nil => simp
  | cons hpiece _ ih =>
    obtain ⟨hitem, hrest⟩ := List.forall_mem_cons.mp hitems
    exact List.forall_mem_cons.mpr ⟨hpiece.plain hitem, ih hrest⟩

/-- Between pieces joined by commas there are no brackets. -/
theorem joined_plain {pieces : List (List Char)}
    (h : ∀ piece ∈ pieces, ∀ c ∈ piece, c ≠ ',' ∧ c ≠ '[' ∧ c ≠ ']') :
    ∀ c ∈ [','].intercalate pieces, c ≠ '[' ∧ c ≠ ']' := by
  induction pieces with
  | nil => simp
  | cons piece rest ih =>
    obtain ⟨hpiece, hrest⟩ := List.forall_mem_cons.mp h
    cases rest with
    | nil =>
      rw [List.intercalate_singleton]
      exact fun c hc => (hpiece c hc).2
    | cons next rest =>
      rw [List.intercalate_cons_cons]
      intro c hc
      rcases List.mem_append.mp hc with hc | hc
      · rcases List.mem_append.mp hc with hc | hc
        · exact (hpiece c hc).2
        · obtain rfl := List.mem_singleton.mp hc
          decide
      · exact ih hrest c hc

/-- What stands between the brackets of a written list. -/
theorem exists_inside {items : List String} {s : List Char}
    (hitems : ∀ item ∈ items, IsItem item) (h : (Operand.list items).Written s) :
    ∃ inside, s = '[' :: (inside ++ [']']) ∧ (∀ c ∈ inside, c ≠ '[' ∧ c ≠ ']') ∧
      readItems inside = items := by
  cases h with
  | @empty pad hpad =>
    have hplain : ∀ c ∈ pad, c ≠ ',' ∧ c ≠ '[' ∧ c ≠ ']' :=
      fun c hc => ne_marks_of_isBlank (hpad c hc)
    refine ⟨pad, rfl, fun c hc => (hplain c hc).2, ?_⟩
    have hcomma : ',' ∉ pad := fun hc => (hplain _ hc).1 rfl
    rw [readItems, List.splitOn_eq_singleton hcomma, List.map_singleton, trim_of_blank hpad]
    rfl
  | @list item items pieces hpieces =>
    have hplain := pieces_plain hitems hpieces
    refine ⟨_, rfl, joined_plain hplain, ?_⟩
    have hne : pieces ≠ [] := by
      rintro rfl
      cases hpieces
    rw [readItems, List.splitOn_intercalate ',' (fun p hp hc => (hplain p hp _ hc).1 rfl) hne]
    exact readItems_pieces hitems hpieces

theorem inBrackets?_brackets (inside : List Char) :
    inBrackets? ('[' :: (inside ++ [']'])) = some inside := by
  simp [inBrackets?]

theorem eq_of_inBrackets? {s inside : List Char} (h : inBrackets? s = some inside) :
    s = '[' :: (inside ++ [']']) := by
  unfold inBrackets? at h
  split at h
  · next rest =>
    split at h
    · next hlast =>
      obtain rfl := Option.some.inj h
      obtain ⟨front, rfl⟩ := List.getLast?_eq_some_iff.mp hlast
      rw [List.dropLast_concat]
    · cases h
  · cases h

/-- Only a text that begins with a bracket stands in brackets. -/
theorem inBrackets?_eq_none {c : Char} {rest : List Char} (h : c ≠ '[') :
    inBrackets? (c :: rest) = none := by
  unfold inBrackets?
  split
  · next heq => exact absurd (List.cons.inj heq).1 h
  · rfl

/-- An integer begins with a digit or a minus. -/
theorem exists_intDigits_eq_cons (n : Int) :
    ∃ c rest, intDigits n = c :: rest ∧ (c = '-' ∨ c.isDigit = true) := by
  unfold intDigits
  split
  · exact ⟨'-', _, rfl, .inl rfl⟩
  · obtain ⟨c, rest, h, hc⟩ := exists_toDigits_eq_cons n.natAbs
    exact ⟨c, rest, h, .inr hc⟩

/-- A written operand reads back. -/
theorem readOperand_of_written {operator : Operator} {operand : Operand} {s : List Char}
    (hfits : operand.Fits operator) (h : operand.Written s) : readOperand s = some operand := by
  cases operand with
  | integer n =>
    cases h with
    | integer =>
      have hread := readInt32_intDigits hfits
      obtain ⟨c, rest, hdigits, hc⟩ := exists_intDigits_eq_cons n
      have hbracket : c ≠ '[' := by
        rintro rfl
        simp at hc
      rw [hdigits] at hread ⊢
      rw [readOperand, inBrackets?_eq_none hbracket, hread]
      rfl
  | list items =>
    obtain ⟨inside, rfl, hplain, hread⟩ := exists_inside hfits.2 h
    have hany : (inside.any fun c => c = '[' || c = ']') = false := by
      simpa using hplain
    rw [readOperand, inBrackets?_brackets]
    simp only [hany, hread]
    rfl

/-- No operand begins with an equals sign, so the symbol in front of it ends where it does. -/
theorem head?_ne_of_written {operand : Operand} {s : List Char} (h : operand.Written s) :
    s.head? ≠ some '=' := by
  cases h with
  | integer n =>
    obtain ⟨c, rest, hdigits, hc⟩ := exists_intDigits_eq_cons n
    rw [hdigits]
    rintro heq
    obtain rfl := Option.some.inj heq
    simp at hc
  | empty => simp
  | list => simp

/-! ## The whole comparison -/

theorem splitSymbol_symbol (operator : Operator) {s : List Char} (h : s.head? ≠ some '=') :
    splitSymbol (operator.symbol.toList ++ s) = (operator.symbol.toList, s) := by
  have hone : ∀ c : Char, splitSymbol (c :: s) = ([c], s) := by
    intro c
    unfold splitSymbol
    split
    · next heq =>
      obtain ⟨-, rfl⟩ := List.cons.inj heq
      simp at h
    · next heq =>
      obtain ⟨rfl, rfl⟩ := List.cons.inj heq
      rfl
    · next heq => simp at heq
  cases operator with
  | greater => exact hone '>'
  | less => exact hone '<'
  | equal => exact hone '='
  | includesAny => exact hone '?'
  | excludesAll => exact hone '!'
  | greaterEqual | lessEqual | notEqual => rfl

theorem isOperatorChar_eq_false {c : Char} (h : isCodeChar c = true) :
    isOperatorChar c = false := by
  cases hop : isOperatorChar c with
  | false => rfl
  | true =>
    simp only [isOperatorChar, Bool.or_eq_true, decide_eq_true_eq] at hop
    rcases hop with (((rfl | rfl) | rfl) | rfl) | rfl <;> revert h <;> decide

/-- A symbol begins with a character that ends the code. -/
theorem exists_symbol_eq_cons (operator : Operator) :
    ∃ c rest, operator.symbol.toList = c :: rest ∧ isOperatorChar c = true := by
  cases operator <;> exact ⟨_, _, rfl, rfl⟩

/-- No character of a code begins a symbol, so the code ends where the symbol begins. -/
theorem split_code {code tail : List Char} (hcode : ∀ c ∈ code, isCodeChar c = true)
    (htail : ∀ c ∈ tail.head?, isOperatorChar c = true) :
    (code ++ tail).takeWhile (fun c => !isOperatorChar c) = code ∧
      (code ++ tail).dropWhile (fun c => !isOperatorChar c) = tail := by
  have hplain : ∀ c ∈ code, (!isOperatorChar c) = true := by
    intro c hc
    rw [isOperatorChar_eq_false (hcode c hc)]
    rfl
  exact run_append hplain fun c hc => by simpa using htail c hc

/-- A code passes the test of codes. -/
theorem isGood_code {code : List Char} (hne : code ≠ []) (hcode : ∀ c ∈ code, isCodeChar c = true) :
    (code.isEmpty || !code.all isCodeChar) = false := by
  have hempty : code.isEmpty = false := by simpa using hne
  have hall : code.all isCodeChar = true := List.all_eq_true.mpr hcode
  rw [hempty, hall]
  rfl

/-- **A written comparison reads back.** -/
theorem read_of_written {c : Comparison} {s : List Char} (hc : c.Printable) (h : c.Written s) :
    Comparison.read (String.ofList s) = .ok c := by
  obtain ⟨operand, hoperand, rfl⟩ := h
  obtain ⟨x, rest, hsymbol, hx⟩ := exists_symbol_eq_cons c.operator
  have htail : c.operator.symbol.toList ++ operand = x :: (rest ++ operand) := by
    rw [hsymbol, List.cons_append]
  have hsplit := splitSymbol_symbol c.operator (head?_ne_of_written hoperand)
  have hvalue := readOperand_of_written hc.operand hoperand
  have hhead : ∀ y ∈ (c.operator.symbol.toList ++ operand).head?, isOperatorChar y = true := by
    rw [htail]
    simpa using hx
  obtain ⟨htake, hdrop⟩ := split_code hc.code hhead
  have hgood := isGood_code hc.code_ne_nil hc.code
  unfold read
  simp only [String.toList_ofList, List.append_assoc, htake, hdrop, hgood]
  rw [htail]
  simp only [← htail, hsplit, String.ofList_toList, Operator.ofSymbol?_symbol, hvalue]
  obtain ⟨code, operator, operand⟩ := c
  cases operand with
  | integer n => rfl
  | list items =>
    -- all that could still be refused is an order
    have hunordered : operator.isOrdering = false := hc.operand.1
    simp [hunordered]

/-- A comparison's own text is written with no blanks at all. -/
theorem written_text (c : Comparison) : c.Written c.text.toList := by
  obtain ⟨code, operator, operand⟩ := c
  refine ⟨operand.text.toList, ?_, by simp [text]⟩
  cases operand with
  | integer n =>
    simp only [Operand.text, intText, String.toList_ofList]
    exact .integer n
  | list items =>
    simp only [Operand.text, String.toList_append, String.toList_intercalate]
    cases items with
    | nil => exact @Operand.Written.empty [] (by simp)
    | cons item items =>
      refine .list ?_
      rw [List.forall₂_map_right_iff]
      exact List.forall₂_same.mpr fun item _ => ⟨[], [], by simp, by simp, by simp⟩

end Comparison

end LifePath
