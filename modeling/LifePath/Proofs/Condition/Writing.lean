import LifePath.Proofs.Condition.Comparison
import LifePath.Proofs.Condition.Grammar

/-!
# Conditions as they are written

A `Formula` is what a condition is about: comparisons, and groups of formulas with joins between
them. `Formula.Whole` says how one is written before any blanks are put in. A group is its members
with the joins between them, and a member is a comparison or stands in parentheses; more
parentheses may be put around anything, as long as no more than `maxDepth` are open at one place.
`Spaced` then puts in the blanks, anywhere outside lists.

Every well-formed formula in which groups are not nested too deep can be written
(`Formula.whole_chars`), with just the parentheses that its members need.
-/

namespace LifePath

open LifePath.Text (isBlank)

/-- A condition as it is meant. -/
inductive Formula where
  | comparison (c : Comparison)
  /-- members joined from left to right -/
  | group (members : List Formula) (joins : List Join)

/-- A condition that has a formula's shape and joins, and whose leaves read as its comparisons. -/
inductive Condition.StandsFor : Condition → Formula → Prop where
  | leaf {text : String} {c : Comparison} :
      Comparison.read text = .ok c → StandsFor (.leaf text) (.comparison c)
  | group {conditions : List Condition} {members : List Formula} {joins : List Join} :
      List.Forall₂ StandsFor conditions members →
      StandsFor (.group conditions joins) (.group members joins)

namespace Formula

/-- A formula that a text can mean: its comparisons can be written, and a group that is not empty
has at least two members and a join between any two of them. -/
inductive WellFormed : Formula → Prop where
  | comparison {c : Comparison} : c.Printable → WellFormed (.comparison c)
  | always : WellFormed (.group [] [])
  | group {members : List Formula} {joins : List Join} :
      2 ≤ members.length → joins.length + 1 = members.length →
      (∀ f ∈ members, WellFormed f) → WellFormed (.group members joins)

mutual

/-- How a formula is written below so many parentheses, blanks outside lists apart. -/
inductive Whole : Nat → Formula → List Char → Prop where
  | member {depth : Nat} {f : Formula} {s : List Char} : Member depth f s → Whole depth f s
  | always {depth : Nat} : Whole depth (.group [] []) []
  | group {depth : Nat} {members : List Formula} {joins : List Join} {s : List Char} :
      Row depth members joins s → Whole depth (.group members joins) s

/-- How a formula is written where it is the member of a group, or as if it were. -/
inductive Member : Nat → Formula → List Char → Prop where
  | comparison {depth : Nat} {c : Comparison} {s : List Char} :
      c.Written s → Member depth (.comparison c) s
  | parentheses {depth : Nat} {f : Formula} {s : List Char} :
      depth < maxDepth → Whole (depth + 1) f s → Member depth f ('(' :: (s ++ [')']))

/-- How members are written with the joins between them. -/
inductive Row : Nat → List Formula → List Join → List Char → Prop where
  | last {depth : Nat} {f : Formula} {s : List Char} : Member depth f s → Row depth [f] [] s
  | cons {depth : Nat} {f : Formula} {members : List Formula} {j : Join} {joins : List Join}
      {s t : List Char} :
      Member depth f s → Row depth members joins t →
      Row depth (f :: members) (j :: joins) (s ++ j.mark :: t)

end

end Formula

/-- Blanks are put into a text, but for its lists; the text begins inside a list or outside. -/
inductive Spaced : Bool → List Char → List Char → Prop where
  | nil {inList : Bool} : Spaced inList [] []
  | keep {inList : Bool} {c : Char} {s t : List Char} :
      Spaced (Glyph.staysInList inList c) s t → Spaced inList (c :: s) (c :: t)
  | blank {c : Char} {s t : List Char} :
      isBlank c = true → Spaced false s t → Spaced false s (c :: t)

/-- No blanks need be put in. -/
theorem Spaced.refl (s : List Char) : ∀ inList, Spaced inList s s := by
  induction s with
  | nil => exact fun _ => .nil
  | cons c rest ih => exact fun inList => .keep (ih _)

/-! ## Every formula can be written -/

namespace Formula

mutual

/-- The text of a formula, with no blanks and with parentheses around the groups in groups. -/
def chars : Formula → List Char
  | .comparison c => c.text.toList
  | .group members joins => rowChars members joins

/-- The text of a formula that is a member. -/
def memberChars : Formula → List Char
  | .comparison c => c.text.toList
  | .group members joins => '(' :: (rowChars members joins ++ [')'])

/-- The text of members with the joins between them. -/
def rowChars : List Formula → List Join → List Char
  | f :: rest, j :: joins => memberChars f ++ j.mark :: rowChars rest joins
  | f :: _, [] => memberChars f
  | [], _ => []

end

mutual

/-- How deep groups are nested in a formula, itself included. -/
def groupDepth : Formula → Nat
  | .comparison _ => 0
  | .group members _ => maxGroupDepth members + 1

/-- The depth of the deepest of some formulas. -/
def maxGroupDepth : List Formula → Nat
  | [] => 0
  | f :: rest => max (groupDepth f) (maxGroupDepth rest)

end

theorem groupDepth_le_of_mem {members : List Formula} {f : Formula} (h : f ∈ members) :
    f.groupDepth ≤ maxGroupDepth members := by
  induction members with
  | nil => cases h
  | cons first rest ih =>
    rw [maxGroupDepth]
    rcases List.mem_cons.mp h with rfl | h
    · exact Nat.le_max_left ..
    · exact Nat.le_trans (ih h) (Nat.le_max_right ..)

/-- Members are written one by one. -/
theorem row_rowChars {depth : Nat} {members : List Formula}
    (hmembers : ∀ f ∈ members, Member depth f f.memberChars) (hne : members ≠ []) :
    ∀ {joins : List Join}, joins.length + 1 = members.length →
      Row depth members joins (rowChars members joins) := by
  induction members with
  | nil => exact absurd rfl hne
  | cons f rest ih =>
    obtain ⟨hf, hrest⟩ := List.forall_mem_cons.mp hmembers
    intro joins hjoins
    cases joins with
    | nil =>
      obtain rfl : rest = [] := by simpa using hjoins.symm
      exact .last hf
    | cons j joins =>
      have hlength : joins.length + 1 = rest.length := by simpa using hjoins
      have hne : rest ≠ [] := by
        rintro rfl
        simp at hlength
      exact .cons hf (ih hrest hne hlength)

theorem whole_and_member {f : Formula} (hf : f.WellFormed) :
    ∀ depth, (depth + f.groupDepth ≤ maxDepth + 1 → Whole depth f f.chars) ∧
      (depth + f.groupDepth ≤ maxDepth → Member depth f f.memberChars) := by
  -- a group that is a member spends one parenthesis on being one
  have hmember : ∀ {depth : Nat} {members : List Formula} {joins : List Join},
      (∀ depth, depth + groupDepth (.group members joins) ≤ maxDepth + 1 →
        Whole depth (.group members joins) (chars (.group members joins))) →
      depth + groupDepth (.group members joins) ≤ maxDepth →
      Member depth (.group members joins) (memberChars (.group members joins)) := by
    intro depth members joins hwhole hdepth
    have hpos : 0 < groupDepth (.group members joins) := by
      rw [groupDepth]
      exact Nat.succ_pos _
    exact .parentheses (by omega) (hwhole (depth + 1) (by omega))
  induction hf with
  | @comparison c _ =>
    have hwritten : ∀ depth, Member depth (.comparison c) c.text.toList :=
      fun depth => .comparison c.written_text
    exact fun depth => ⟨fun _ => .member (hwritten depth), fun _ => hwritten depth⟩
  | always =>
    have hwhole : ∀ depth, Whole depth (.group [] []) (chars (.group [] [])) := fun _ => .always
    exact fun depth => ⟨fun _ => hwhole depth, hmember fun depth _ => hwhole depth⟩
  | @group members joins hlength hjoins _ ih =>
    have hwhole : ∀ depth, depth + groupDepth (.group members joins) ≤ maxDepth + 1 →
        Whole depth (.group members joins) (chars (.group members joins)) := by
      intro depth hdepth
      rw [groupDepth] at hdepth
      refine .group (row_rowChars ?_ ?_ hjoins)
      · intro f hf
        have := groupDepth_le_of_mem hf
        exact (ih f hf depth).2 (by omega)
      · rintro rfl
        simp at hlength
    exact fun depth => ⟨hwhole depth, hmember hwhole⟩

/-- **Every formula can be written** whose groups are not nested too deep. -/
theorem whole_chars {f : Formula} (hf : f.WellFormed) (hdepth : f.groupDepth ≤ maxDepth + 1) :
    Whole 0 f f.chars :=
  (whole_and_member hf 0).1 (by omega)

end Formula

end LifePath
