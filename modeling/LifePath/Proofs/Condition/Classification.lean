import LifePath.Proofs.Condition.Comparison
import LifePath.Proofs.Decimal.Literal

/-!
# Which texts are comparisons

A text divides at its first operator character (`Divided`). What stands before it has to be a code,
the character itself and maybe an equals sign behind it are the operator's symbol (`SymbolAt`), and
the rest is an integer literal or a list between brackets (`Operand.Spelled`). `Judged` puts these
together: it gives each text one comparison or one fault, in the order in which the faults count.
None of this mentions how a text is searched, and `Comparison.read_eq_iff` says that reading judges
every text that way.

Whatever is read can be written (`Comparison.printable_of_read`), so its own text reads back to it.
-/

namespace LifePath

open LifePath.Text LifePath.Decimal

/-! ## The parts of a comparison -/

/-- The items that stand between brackets: the pieces that the commas divide, without the blank
ones and without the blanks around them. -/
def Listed (inside : List Char) (items : List String) : Prop :=
  ∃ pieces : List (List Char), pieces ≠ [] ∧ (∀ piece ∈ pieces, ',' ∉ piece) ∧
    inside = [','].intercalate pieces ∧
    items = (pieces.filter fun piece => !allBlank piece).map fun piece => String.ofList (trim piece)

/-- How an operand can be spelled. -/
inductive Operand.Spelled : List Char → Operand → Prop where
  | integer {s : List Char} {n : Int} : IntLiteral s n → minInt32 ≤ n → n ≤ maxInt32 →
      Spelled s (.integer n)
  | list {inside : List Char} {items : List String} : (∀ c ∈ inside, c ≠ '[' ∧ c ≠ ']') →
      Listed inside items → Spelled ('[' :: (inside ++ [']'])) (.list items)

/-- A text divides at its first operator character. -/
structure Divided (s code : List Char) (mark : Char) (rest : List Char) : Prop where
  split : s = code ++ mark :: rest
  code : ∀ c ∈ code, Comparison.isOperatorChar c = false
  mark : Comparison.isOperatorChar mark = true

/-- Whether a text can be the code of an attribute. -/
structure IsCode (code : List Char) : Prop where
  ne_nil : code ≠ []
  chars : ∀ c ∈ code, Comparison.isCodeChar c = true

/-- The symbol that an operator character begins, and what is left of the text behind the
character: an equals sign that comes next belongs to the symbol. -/
inductive SymbolAt (mark : Char) : List Char → List Char → List Char → Prop where
  | withEquals {value : List Char} : SymbolAt mark ('=' :: value) [mark, '='] value
  | alone {value : List Char} : value.head? ≠ some '=' → SymbolAt mark value [mark] value

/-- What a text is: a comparison, or no comparison for the first of these reasons that applies. -/
inductive Judged (text : String) : Except ConditionFault Comparison → Prop where
  | unmarked : (∀ c ∈ text.toList, Comparison.isOperatorChar c = false) →
      Judged text (.error (.malformed text))
  | notCode {code rest : List Char} {mark : Char} : Divided text.toList code mark rest →
      ¬ IsCode code → Judged text (.error (.malformed text))
  | noOperator {code rest symbol value : List Char} {mark : Char} :
      Divided text.toList code mark rest → IsCode code → SymbolAt mark rest symbol value →
      (∀ operator : Operator, operator.symbol.toList ≠ symbol) →
      Judged text (.error (.unknownOperator (String.ofList symbol) text))
  | noOperand {code rest value : List Char} {mark : Char} {operator : Operator} :
      Divided text.toList code mark rest → IsCode code →
      SymbolAt mark rest operator.symbol.toList value →
      (∀ operand, ¬ Operand.Spelled value operand) →
      Judged text (.error (.malformed text))
  | ordered {code rest value : List Char} {mark : Char} {operator : Operator}
      {items : List String} : Divided text.toList code mark rest → IsCode code →
      SymbolAt mark rest operator.symbol.toList value → Operand.Spelled value (.list items) →
      operator.isOrdering = true → Judged text (.error (.orderedList text))
  | comparison {code rest value : List Char} {mark : Char} {operator : Operator}
      {operand : Operand} : Divided text.toList code mark rest → IsCode code →
      SymbolAt mark rest operator.symbol.toList value → Operand.Spelled value operand →
      (operator.isOrdering = true → ∀ items, operand ≠ .list items) →
      Judged text (.ok ⟨String.ofList code, operator, operand⟩)

/-! ## Operands -/

/-- The pieces of a text that is divided at a character do not hold the character. -/
theorem not_mem_of_mem_splitOn {mark : Char} {s piece : List Char}
    (h : piece ∈ s.splitOn mark) : mark ∉ piece := by
  induction s generalizing piece with
  | nil =>
    rw [List.splitOn_nil, List.mem_singleton] at h
    simp [h]
  | cons c rest ih =>
    rw [List.splitOn_cons_eq_if_modifyHead] at h
    split at h
    · rcases List.mem_cons.mp h with rfl | h
      · simp
      · exact ih h
    · next hc =>
      -- the character goes to the first piece, and it is not the mark
      obtain ⟨first, others, hpieces⟩ := List.exists_cons_of_ne_nil (List.splitOn_ne_nil mark rest)
      rw [hpieces] at h ih
      rcases List.mem_cons.mp h with rfl | h
      · simp only [List.mem_cons, not_or]
        exact ⟨fun heq => hc (by simp [heq]), ih (List.mem_cons_self ..)⟩
      · exact ih (List.mem_cons_of_mem _ h)

namespace Comparison

theorem readItems_eq_iff {inside : List Char} {items : List String} :
    readItems inside = items ↔ Listed inside items := by
  have hitems : ∀ pieces : List (List Char),
      ((pieces.map trim).filter fun item => !item.isEmpty).map String.ofList =
        (pieces.filter fun piece => !allBlank piece).map
          fun piece => String.ofList (trim piece) := by
    intro pieces
    have hblank : ((fun item : List Char => !item.isEmpty) ∘ trim) =
        fun piece => !allBlank piece := by
      funext piece
      rw [Function.comp_apply, Bool.not_inj_iff, Bool.eq_iff_iff, List.isEmpty_iff,
        trim_eq_nil_iff, allBlank, List.all_eq_true]
    rw [List.filter_map, List.map_map, hblank]
    rfl
  rw [readItems, hitems]
  constructor
  · rintro rfl
    exact ⟨inside.splitOn ',', List.splitOn_ne_nil _ _, fun _ => not_mem_of_mem_splitOn,
      (List.intercalate_splitOn ',').symm, rfl⟩
  · rintro ⟨pieces, hne, hcomma, rfl, rfl⟩
    rw [List.splitOn_intercalate ',' hcomma hne]

theorem readOperand_eq_some_iff {s : List Char} {operand : Operand} :
    readOperand s = some operand ↔ Operand.Spelled s operand := by
  constructor
  · intro h
    rw [readOperand] at h
    split at h
    · next inside hbrackets =>
      obtain rfl := eq_of_inBrackets? hbrackets
      split at h
      · cases h
      · next hplain =>
        obtain rfl := Option.some.inj h
        exact .list (by simpa using hplain) (readItems_eq_iff.mp rfl)
    · obtain ⟨n, hread, rfl⟩ := Option.map_eq_some_iff.mp h
      rw [readInt32, Option.filter_eq_some_iff, fitsInt32, Bool.and_eq_true, decide_eq_true_eq,
        decide_eq_true_eq] at hread
      exact .integer (readInt_eq_some_iff.mp hread.1) hread.2.1 hread.2.2
  · rintro (@⟨_, n, hliteral, hlow, hhigh⟩ | @⟨inside, items, hplain, hitems⟩)
    · have hbrackets : inBrackets? s = none := by
        cases s with
        | nil => rfl
        | cons c rest => exact inBrackets?_eq_none fun hc =>
          hliteral.head?_ne (c := '[') (by decide) (by decide) (hc ▸ rfl)
      have hfits : fitsInt32 n = true := by simp [fitsInt32, hlow, hhigh]
      rw [readOperand, hbrackets, readInt32, readInt_eq_some_iff.mpr hliteral,
        Option.filter_some, if_pos hfits]
      rfl
    · have hany : (inside.any fun c => c = '[' || c = ']') = false := by simpa using hplain
      rw [readOperand, inBrackets?_brackets]
      simp only [hany, readItems_eq_iff.mpr hitems]
      rfl

/-! ## The whole text -/

variable {text : String} {code rest symbol value : List Char} {mark : Char}

/-- Where a text is divided is where the search for an operator character stops. -/
theorem cut_of_divided (h : Divided text.toList code mark rest) :
    text.toList.takeWhile (fun c => !isOperatorChar c) = code ∧
      text.toList.dropWhile (fun c => !isOperatorChar c) = mark :: rest := by
  rw [h.split]
  refine run_append (fun c hc => by simp [h.code c hc]) fun c hc => ?_
  obtain rfl : mark = c := by simpa using hc
  simp [h.mark]

theorem divided_or_unmarked (text : String) :
    (∃ code mark rest, Divided text.toList code mark rest) ∨
      ∀ c ∈ text.toList, isOperatorChar c = false := by
  have hsplit :=
    List.takeWhile_append_dropWhile (p := fun c => !isOperatorChar c) (l := text.toList)
  have hhead := List.head?_dropWhile_not (fun c => !isOperatorChar c) text.toList
  have hcode : ∀ c ∈ text.toList.takeWhile (fun c => !isOperatorChar c),
      isOperatorChar c = false := fun c hc => by simpa using List.mem_takeWhile_imp hc
  cases htail : text.toList.dropWhile (fun c => !isOperatorChar c) with
  | nil =>
    rw [htail, List.append_nil] at hsplit
    rw [hsplit] at hcode
    exact .inr hcode
  | cons mark rest =>
    rw [htail] at hsplit hhead
    exact .inl ⟨_, mark, rest, hsplit.symm, hcode, by simpa using hhead⟩

/-- A text is either tested as a code and passes, or fails. -/
theorem isGood_iff : (code.isEmpty || !code.all isCodeChar) = false ↔ IsCode code := by
  rw [Bool.or_eq_false_iff, List.isEmpty_eq_false_iff, Bool.not_eq_false', List.all_eq_true]
  exact ⟨fun h => ⟨h.1, h.2⟩, fun h => ⟨h.ne_nil, h.chars⟩⟩

theorem splitSymbol_eq_iff :
    splitSymbol (mark :: rest) = (symbol, value) ↔ SymbolAt mark rest symbol value := by
  constructor
  · intro h
    unfold splitSymbol at h
    split at h
    · next heq =>
      obtain ⟨rfl, rfl⟩ := List.cons.inj heq
      obtain ⟨rfl, rfl⟩ := Prod.mk.inj h
      exact .withEquals
    · next hnone heq =>
      obtain ⟨rfl, rfl⟩ := List.cons.inj heq
      obtain ⟨rfl, rfl⟩ := Prod.mk.inj h
      refine .alone fun hhead => ?_
      obtain ⟨more, rfl⟩ := List.head?_eq_some_iff.mp hhead
      exact hnone more rfl
    · next heq => cases heq
  · intro h
    cases h with
    | withEquals => rfl
    | alone hhead =>
      unfold splitSymbol
      split
      · next heq =>
        obtain ⟨-, rfl⟩ := List.cons.inj heq
        exact absurd rfl hhead
      · next heq =>
        obtain ⟨rfl, rfl⟩ := List.cons.inj heq
        rfl
      · next heq => cases heq

theorem ofSymbol?_eq_some_iff {operator : Operator} :
    Operator.ofSymbol? (String.ofList symbol) = some operator ↔
      operator.symbol.toList = symbol := by
  constructor
  · intro h
    have hsymbol : operator.symbol = String.ofList symbol := by simpa using List.find?_some h
    rw [hsymbol, String.toList_ofList]
  · rintro rfl
    rw [String.ofList_toList, Operator.ofSymbol?_symbol]

theorem ofSymbol?_eq_none_iff :
    Operator.ofSymbol? (String.ofList symbol) = none ↔
      ∀ operator : Operator, operator.symbol.toList ≠ symbol := by
  rw [Option.eq_none_iff_forall_ne_some]
  exact forall_congr' fun operator => not_congr ofSymbol?_eq_some_iff

/-- What is left to decide once the code and the symbol have been found. -/
theorem read_of_parts (h : Divided text.toList code mark rest) (hcode : IsCode code)
    (hsymbol : SymbolAt mark rest symbol value) :
    read text =
      match Operator.ofSymbol? (String.ofList symbol) with
      | none => .error (.unknownOperator (String.ofList symbol) text)
      | some operator =>
        match readOperand value with
        | none => .error (.malformed text)
        | some (.list items) =>
          if operator.isOrdering then .error (.orderedList text)
          else .ok ⟨String.ofList code, operator, .list items⟩
        | some operand => .ok ⟨String.ofList code, operator, operand⟩ := by
  obtain ⟨htake, hdrop⟩ := cut_of_divided h
  unfold read
  simp only [htake, hdrop, isGood_iff.mpr hcode, splitSymbol_eq_iff.mpr hsymbol]
  rfl

theorem read_of_judged {result : Except ConditionFault Comparison} (h : Judged text result) :
    read text = result := by
  cases h with
  | unmarked hplain =>
    have hdrop : text.toList.dropWhile (fun c => !isOperatorChar c) = [] := by
      rw [List.dropWhile_eq_nil_iff]
      exact fun c hc => by simp [hplain c hc]
    unfold read
    simp only [hdrop]
  | notCode hdivided hcode =>
    obtain ⟨htake, hdrop⟩ := cut_of_divided hdivided
    have hbad := eq_true_of_ne_false (mt isGood_iff.mp hcode)
    unfold read
    simp only [htake, hdrop, hbad]
    rfl
  | noOperator hdivided hcode hsymbol hnone =>
    rw [read_of_parts hdivided hcode hsymbol, ofSymbol?_eq_none_iff.mpr hnone]
  | @noOperand _ _ value _ operator hdivided hcode hsymbol hnone =>
    have hread : readOperand value = none :=
      Option.eq_none_iff_forall_ne_some.mpr fun operand hread =>
        hnone operand (readOperand_eq_some_iff.mp hread)
    rw [read_of_parts hdivided hcode hsymbol, ofSymbol?_eq_some_iff.mpr rfl, hread]
  | ordered hdivided hcode hsymbol hspelled hordering =>
    rw [read_of_parts hdivided hcode hsymbol, ofSymbol?_eq_some_iff.mpr rfl,
      readOperand_eq_some_iff.mpr hspelled]
    exact if_pos hordering
  | @comparison _ _ _ _ operator operand hdivided hcode hsymbol hspelled hsuits =>
    rw [read_of_parts hdivided hcode hsymbol, ofSymbol?_eq_some_iff.mpr rfl,
      readOperand_eq_some_iff.mpr hspelled]
    cases operand with
    | integer n => rfl
    | list items => exact if_neg fun hordering => hsuits hordering items rfl

/-- No text is left out. -/
theorem exists_judged (text : String) : ∃ result, Judged text result := by
  rcases divided_or_unmarked text with ⟨code, mark, rest, hdivided⟩ | hplain
  · by_cases hcode : IsCode code
    · obtain ⟨symbol, value, hsplit⟩ : ∃ symbol value,
        splitSymbol (mark :: rest) = (symbol, value) := ⟨_, _, rfl⟩
      have hsymbol := splitSymbol_eq_iff.mp hsplit
      cases hop : Operator.ofSymbol? (String.ofList symbol) with
      | none => exact ⟨_, .noOperator hdivided hcode hsymbol (ofSymbol?_eq_none_iff.mp hop)⟩
      | some operator =>
        obtain rfl := ofSymbol?_eq_some_iff.mp hop
        cases hvalue : readOperand value with
        | none =>
          refine ⟨_, .noOperand hdivided hcode hsymbol fun operand hspelled => ?_⟩
          rw [readOperand_eq_some_iff.mpr hspelled] at hvalue
          cases hvalue
        | some operand =>
          have hspelled := readOperand_eq_some_iff.mp hvalue
          cases operand with
          | integer n => exact ⟨_, .comparison hdivided hcode hsymbol hspelled (by simp)⟩
          | list items =>
            by_cases hordering : operator.isOrdering = true
            · exact ⟨_, .ordered hdivided hcode hsymbol hspelled hordering⟩
            · exact ⟨_, .comparison hdivided hcode hsymbol hspelled fun h => absurd h hordering⟩
    · exact ⟨_, .notCode hdivided hcode⟩
  · exact ⟨_, .unmarked hplain⟩

theorem read_eq_iff {result : Except ConditionFault Comparison} :
    read text = result ↔ Judged text result := by
  refine ⟨?_, read_of_judged⟩
  rintro rfl
  obtain ⟨result, hjudged⟩ := exists_judged text
  rwa [read_of_judged hjudged]

/-! ## Reading what was read -/

theorem mem_intercalate {c : Char} {sep piece : List Char} {pieces : List (List Char)}
    (hpiece : piece ∈ pieces) (hc : c ∈ piece) : c ∈ sep.intercalate pieces := by
  induction pieces with
  | nil => cases hpiece
  | cons first others ih =>
    cases others with
    | nil =>
      obtain rfl := List.mem_singleton.mp hpiece
      rwa [List.intercalate_singleton]
    | cons next others =>
      rw [List.intercalate_cons_cons, List.append_assoc]
      rcases List.mem_cons.mp hpiece with rfl | hpiece
      · exact List.mem_append_left _ hc
      · exact List.mem_append_right _ (List.mem_append_right _ (ih hpiece))

/-- The items of a list that was read can be put in a list again. -/
theorem isItem_of_listed {inside : List Char} {items : List String}
    (hplain : ∀ c ∈ inside, c ≠ '[' ∧ c ≠ ']') (h : Listed inside items) :
    ∀ item ∈ items, IsItem item := by
  obtain ⟨pieces, hne, hcomma, rfl, rfl⟩ := h
  intro item hitem
  obtain ⟨piece, hpiece, rfl⟩ := List.mem_map.mp hitem
  obtain ⟨hmem, hblank⟩ := List.mem_filter.mp hpiece
  have htrim : trim piece ≠ [] := by
    rw [ne_eq, trim_eq_nil_iff, ← List.all_eq_true]
    simpa [allBlank] using hblank
  -- what trimming leaves is part of the piece, and the piece of what stands between the brackets
  have hinside : ∀ c ∈ trim piece, c ∈ piece := by
    obtain ⟨left, right, hsplit, -, -⟩ := exists_padding piece
    intro c hc
    rw [hsplit]
    exact List.mem_append_left _ (List.mem_append_right _ hc)
  constructor
  · rw [String.toList_ofList]
    exact trimmed_trim htrim
  · rw [String.toList_ofList]
    intro c hc
    refine ⟨fun heq => hcomma piece hmem (heq ▸ hinside c hc), ?_⟩
    exact hplain c (mem_intercalate hmem (hinside c hc))

theorem printable_of_read {c : Comparison} (h : read text = .ok c) : c.Printable := by
  cases read_eq_iff.mp h with
  | @comparison code rest value mark operator operand hdivided hcode hsymbol hspelled hsuits =>
    refine ⟨by simpa using hcode.ne_nil, by simpa using hcode.chars, ?_⟩
    cases hspelled with
    | integer _ hlow hhigh => simp [Operand.Fits, fitsInt32, hlow, hhigh]
    | @list _ items hplain hlisted =>
      refine ⟨Bool.eq_false_iff.mpr fun hordering => hsuits hordering items rfl, ?_⟩
      exact isItem_of_listed hplain hlisted

/-! ## Main statement -/

/-- **Which texts are comparisons.** Every text is judged in one way, and reading it gives what it
is judged to be: a comparison, or the fault that counts first. Whenever a text is read as a
comparison, the text of that comparison without blanks is read as the same one. -/
theorem read_judges_every_text (text : String) :
    (∃! result, Judged text result) ∧ (∀ result, read text = result ↔ Judged text result) ∧
      ∀ c, read text = .ok c → read c.text = .ok c := by
  refine ⟨⟨read text, read_eq_iff.mp rfl, ?_⟩, fun result => read_eq_iff, ?_⟩
  · exact fun result hjudged => (read_of_judged hjudged).symm
  · intro c hread
    have htext := read_of_written (printable_of_read hread) (written_text c)
    rwa [String.ofList_toList] at htext

/-- The operator is tested before the operand, and the blank item does not count. -/
theorem read_judges_every_text_untidy :
    read "EVT?=5" = .error (.unknownOperator "?=" "EVT?=5") ∧
      read "EVT?[1, 2,, ]" = .ok ⟨"EVT", .includesAny, .list ["1", "2"]⟩ ∧
      read "EVT?[1,2]" = .ok ⟨"EVT", .includesAny, .list ["1", "2"]⟩ := by
  have hread : read "EVT?[1, 2,, ]" = .ok ⟨"EVT", .includesAny, .list ["1", "2"]⟩ := by rfl
  have hdivided : Divided "EVT?=5".toList ['E', 'V', 'T'] '?' ['=', '5'] :=
    ⟨rfl, by simp [isOperatorChar], by decide⟩
  have hcode : IsCode ['E', 'V', 'T'] := ⟨by simp, List.all_eq_true.mp (by decide)⟩
  have hnone : ∀ operator : Operator, operator.symbol.toList ≠ ['?', '='] := by
    intro operator
    cases operator <;> decide
  refine ⟨?_, hread, (read_judges_every_text _).2.2 _ hread⟩
  exact ((read_judges_every_text _).2.1 _).mpr (.noOperator hdivided hcode .withEquals hnone)

end Comparison

end LifePath
