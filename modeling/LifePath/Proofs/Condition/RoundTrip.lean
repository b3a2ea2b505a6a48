import LifePath.Condition.Evaluation
import LifePath.Proofs.Condition.Reading
import LifePath.Proofs.Condition.Words

/-!
# Reading undoes writing

However a formula is written, with more parentheses than it needs and with blanks wherever they
mean nothing, reading gives a condition that stands for it (`read_undoes_writing`).

The induction is over the ways to write a formula. What it says of a member holds whatever is read
behind it (`MemberReads`); of a row, that members and joins take turns (`RowReads`); and of a
whole, that the sequence that is read stands for the formula with whatever raw text (`WholeReads`).
-/

namespace LifePath

open Glyph

/-! ## What is read -/

/-- A member's text is read as one condition, in front of anything that begins with a sign. -/
structure MemberReads (depth : Nat) (f : Formula) (s : List Char) : Prop where
  closed : listAfter false s = false
  reads : ∃ c : Condition, c.StandsFor f ∧ ∀ (rest : List Glyph) (elements : List Element),
    (∀ g ∈ rest.head?, g.isSign = true) → Reads depth rest elements →
      Reads depth (kept false s ++ rest) (.member c :: elements)

/-- The text of members with joins is read as conditions that take turns with these joins. -/
structure RowReads (depth : Nat) (members : List Formula) (joins : List Join) (s : List Char) :
    Prop where
  closed : listAfter false s = false
  reads : ∃ conditions elements, Reads depth (kept false s) elements ∧
    takeTurns? elements = some (conditions, joins) ∧
    List.Forall₂ Condition.StandsFor conditions members

/-- A whole text is read as a sequence that stands for the formula. -/
structure WholeReads (depth : Nat) (f : Formula) (s : List Char) : Prop where
  closed : listAfter false s = false
  reads : ∃ elements, Reads depth (kept false s) elements ∧
    ∀ raw, (reading raw elements).StandsFor f

/-- A comparison is one leaf. -/
theorem memberReads_comparison {depth : Nat} {c : Comparison} {s : List Char}
    (hc : c.Printable) (h : c.Written s) : MemberReads depth (.comparison c) s := by
  have hword := Comparison.isWord_of_written hc h
  have hread := Comparison.read_of_written hc h
  refine ⟨hword.closed, .leaf (Glyph.text (kept false s)), ?_, ?_⟩
  · rw [hword.text_kept]
    exact .leaf hread
  · -- what follows begins with a sign, so the text ends with the comparison
    intro rest elements hrest hreads
    have hne : kept false s ≠ [] := by
      rw [hword.kept_eq]
      intro hnil
      have := map_char_ofChars_self s false
      rw [hnil] at this
      exact Comparison.ne_nil_of_written hc h this.symm
    refine .text hne ?_ hrest hreads
    rw [hword.kept_eq]
    exact fun g hg => (hword.plain g hg).1

/-- Parentheses around a whole are read as one member, if they are not too deep. -/
theorem WholeReads.parentheses {depth : Nat} {f : Formula} {s : List Char}
    (hdepth : depth < maxDepth) (h : WholeReads (depth + 1) f s) :
    MemberReads depth f ('(' :: (s ++ [')'])) := by
  obtain ⟨hclosed, inside, hinside, hstands⟩ := h
  have hgroup : ∀ raw, groupReading (depth + 1) raw inside = reading raw inside :=
    fun raw => if_pos hdepth
  refine ⟨listAfter_parentheses hclosed,
    groupReading (depth + 1) (opening :: (kept false s ++ [closing])) inside, ?_, ?_⟩
  · rw [hgroup]
    exact hstands _
  · intro rest elements hrest hreads
    rw [kept_parentheses hclosed, List.cons_append, List.append_assoc, List.singleton_append]
    exact .group hinside hreads

/-- A member alone is a whole. -/
theorem MemberReads.whole {depth : Nat} {f : Formula} {s : List Char}
    (h : MemberReads depth f s) : WholeReads depth f s := by
  obtain ⟨hclosed, c, hstands, hreads⟩ := h
  refine ⟨hclosed, [.member c], ?_, fun _ => hstands⟩
  have := hreads [] [] (by simp) .nil
  rwa [List.append_nil] at this

/-- A member alone is a row. -/
theorem MemberReads.last {depth : Nat} {f : Formula} {s : List Char}
    (h : MemberReads depth f s) : RowReads depth [f] [] s := by
  obtain ⟨hclosed, c, hstands, hreads⟩ := h
  refine ⟨hclosed, [c], [.member c], ?_, rfl, .cons hstands .nil⟩
  have := hreads [] [] (by simp) .nil
  rwa [List.append_nil] at this

/-- A member and a join in front of a row make a row. -/
theorem MemberReads.cons {depth : Nat} {f : Formula} {members : List Formula} {j : Join}
    {joins : List Join} {s t : List Char} (h : MemberReads depth f s)
    (hrow : RowReads depth members joins t) :
    RowReads depth (f :: members) (j :: joins) (s ++ j.mark :: t) := by
  obtain ⟨hclosed, c, hstands, hreads⟩ := h
  obtain ⟨hclosed', conditions, elements, hreads', hturns, hmembers⟩ := hrow
  refine ⟨?_, c :: conditions, .member c :: .join j :: elements, ?_, ?_, .cons hstands hmembers⟩
  · rw [listAfter_append, hclosed]
    cases j <;> exact hclosed'
  · rw [kept_append, hclosed, kept_cons_join]
    exact hreads _ _ (by simp [isSign_ofJoin]) (.join hreads')
  · rw [takeTurns?, hturns]
    rfl

/-- A row of at least two members is a whole. -/
theorem RowReads.whole {depth : Nat} {members : List Formula} {joins : List Join}
    {s : List Char} (hlength : 2 ≤ members.length) (h : RowReads depth members joins s) :
    WholeReads depth (.group members joins) s := by
  obtain ⟨hclosed, conditions, elements, hreads, hturns, hmembers⟩ := h
  refine ⟨hclosed, elements, hreads, fun raw => ?_⟩
  -- a row of one would be read as its member
  rw [reading_of_takeTurns hturns (hmembers.length_eq ▸ hlength)]
  exact .group hmembers

/-! ## Every way to write a formula -/

mutual

theorem Formula.Whole.reads {depth : Nat} {f : Formula} {s : List Char} (hf : f.WellFormed) :
    Formula.Whole depth f s → WholeReads depth f s
  | .member h => (Formula.Member.reads hf h).whole
  | .always => ⟨rfl, [], .nil, fun _ => .group .nil⟩
  | .group h => by
    cases hf with
    | always => cases h -- no row is empty
    | group hlength _ hmembers => exact (Formula.Row.reads hmembers h).whole hlength

theorem Formula.Member.reads {depth : Nat} {f : Formula} {s : List Char} (hf : f.WellFormed) :
    Formula.Member depth f s → MemberReads depth f s
  | .comparison h => by
    cases hf with
    | comparison hc => exact memberReads_comparison hc h
  | .parentheses hdepth h => (Formula.Whole.reads hf h).parentheses hdepth

theorem Formula.Row.reads {depth : Nat} {members : List Formula} {joins : List Join}
    {s : List Char} (hmembers : ∀ f ∈ members, f.WellFormed) :
    Formula.Row depth members joins s → RowReads depth members joins s
  | .last h => (Formula.Member.reads (hmembers _ (List.mem_cons_self ..)) h).last
  | .cons h hrow =>
    (Formula.Member.reads (hmembers _ (List.mem_cons_self ..)) h).cons
      (Formula.Row.reads (fun f hf => hmembers f (List.mem_cons_of_mem _ hf)) hrow)

end

/-- What is written reads as what it was written for, with blanks put in or not. -/
theorem read_of_whole {f : Formula} (hf : f.WellFormed) {s : List Char} {text : String}
    (h : Formula.Whole 0 f s) (hspaced : Spaced false s text.toList) :
    (Condition.read text).StandsFor f := by
  obtain ⟨-, elements, hreads, hstands⟩ := h.reads hf
  have hkept : Glyph.ofText text = kept false s := hspaced.kept_eq
  rw [← hkept] at hreads
  rw [read_of_reads hreads]
  exact hstands _

/-- The text of a comparison is decided as the comparison is. -/
theorem checkCondition_text {c : Comparison} (hc : c.Printable) (source : Source) :
    checkCondition source c.text = c.decide (source c.code) := by
  have hstands : (Condition.read c.text).StandsFor (.comparison c) :=
    read_of_whole (.comparison hc) (.member (.comparison c.written_text)) (.refl _ _)
  rw [checkCondition]
  generalize Condition.read c.text = condition at hstands ⊢
  cases hstands with
  | leaf hread =>
    rw [Condition.evaluate, evaluateLeaf, hread]

/-- **Reading undoes writing.** A formula in which groups are not nested too deep can be written,
and however it is written, with more parentheses and with blanks put in, the text reads as a
condition of the same shape and joins whose leaves read as the formula's comparisons. -/
theorem read_undoes_writing (f : Formula) (hf : f.WellFormed) :
    (f.groupDepth ≤ maxDepth + 1 → Formula.Whole 0 f f.chars) ∧
      ∀ (s : List Char) (text : String), Formula.Whole 0 f s → Spaced false s text.toList →
        (Condition.read text).StandsFor f :=
  ⟨Formula.whole_chars hf, fun _ _ => read_of_whole hf⟩

/-- Either of two comparisons, one with an item that is full of marks. -/
def toldOrGentle : Formula :=
  .group [.comparison ⟨"EVT", .includesAny, .list ["a & (b"]⟩,
    .comparison ⟨"CHR", .greaterEqual, .integer (-5)⟩] [.or]

theorem toldOrGentle_wellFormed : toldOrGentle.WellFormed := by
  have hletter : Text.isBlank 'a' = false ∧ Text.isBlank 'b' = false := by decide
  have hitem : IsItem "a & (b" :=
    ⟨⟨by simp, by simpa using hletter.1, by simpa using hletter.2⟩, by simp⟩
  have hcode : (∀ x ∈ "EVT".toList, Comparison.isCodeChar x = true) ∧
      ∀ x ∈ "CHR".toList, Comparison.isCodeChar x = true := by
    simp [Comparison.isCodeChar]
  refine .group (by decide) (by decide) ?_
  intro f hf
  rcases List.mem_cons.mp hf with rfl | hf
  · exact .comparison ⟨by simp, hcode.1, rfl, by simpa using hitem⟩
  · obtain rfl := List.mem_singleton.mp hf
    exact .comparison ⟨by simp, hcode.2, rfl⟩

theorem toldOrGentle_written :
    Formula.Whole 0 toldOrGentle "(EVT?[ a & (b])|((CHR>=-5))".toList := by
  have hblank : Text.isBlank ' ' = true := by decide
  have hpadded : Padded "a & (b" " a & (b".toList :=
    ⟨[' '], [], by simpa using hblank, by simp, rfl⟩
  have htold : Formula.Member 0 (.comparison ⟨"EVT", .includesAny, .list ["a & (b"]⟩)
      "(EVT?[ a & (b])".toList := by
    refine @Formula.Member.parentheses 0 _ "EVT?[ a & (b]".toList (by decide) (.member ?_)
    exact .comparison ⟨"[ a & (b]".toList, .list (.cons hpadded .nil), rfl⟩
  have hgentle : Formula.Member 0 (.comparison ⟨"CHR", .greaterEqual, .integer (-5)⟩)
      "((CHR>=-5))".toList := by
    refine @Formula.Member.parentheses 0 _ "(CHR>=-5)".toList (by decide) (.member ?_)
    refine @Formula.Member.parentheses 1 _ "CHR>=-5".toList (by decide) (.member ?_)
    exact .comparison ⟨"-5".toList, .integer (-5), rfl⟩
  exact .group (.cons htold (.last hgentle))

theorem toldOrGentle_spaced :
    Spaced false "(EVT?[ a & (b])|((CHR>=-5))".toList
      " (EVT?[ a & (b] )|(( CHR> =-5))".toList := by
  repeat' first | exact .nil | apply Spaced.keep | apply Spaced.blank (by decide)

/-- Parentheses that are not needed, a blank inside a symbol, and marks inside a list. -/
theorem read_undoes_writing_toldOrGentle :
    toldOrGentle.WellFormed ∧
      Formula.Whole 0 toldOrGentle "(EVT?[ a & (b])|((CHR>=-5))".toList ∧
      (Condition.read " (EVT?[ a & (b] )|(( CHR> =-5))").StandsFor toldOrGentle :=
  ⟨toldOrGentle_wellFormed, toldOrGentle_written,
    (read_undoes_writing toldOrGentle toldOrGentle_wellFormed).2 _ _ toldOrGentle_written
      toldOrGentle_spaced⟩

end LifePath
