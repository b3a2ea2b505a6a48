import LifePath.Proofs.Condition.Broken

/-!
# Nothing of a text is lost

Whatever a text is, reading keeps all of it. Written out from left to right, the leaves and joins of
the condition are the text without its blanks and with some of its parentheses left out
(`Thinned`); a leaf that stands for a broken group still has the parentheses of the group. What is
left out is never in a list, so the lists of the one text are those of the other
(`Thinned.ofChars_eq`).

The shape of the condition is sound in the same way for all texts. Both that and the bound on its
depth hold of every condition that is put together as groups are (`Reads.forall_member`), and each
is said there of one group.
-/

namespace LifePath

open Glyph

mutual

/-- The members and joins of all groups, the outer ones first. -/
def Condition.groups : Condition → List (List Condition × List Join)
  | .leaf _ => []
  | .group members joins => (members, joins) :: groupsOfEach members

def groupsOfEach : List Condition → List (List Condition × List Join)
  | [] => []
  | c :: rest => c.groups ++ groupsOfEach rest

end

mutual

/-- The number of groups on the longest way down. -/
def Condition.depth : Condition → Nat
  | .leaf _ => 0
  | .group members _ => depthOfEach members + 1

def depthOfEach : List Condition → Nat
  | [] => 0
  | c :: rest => max c.depth (depthOfEach rest)

end

mutual

/-- The texts of the leaves and the marks of the joins, in order. -/
def Condition.flatten : Condition → List Char
  | .leaf text => text.toList
  | .group members joins => flattenRow members joins

/-- Members with their joins between them. -/
def flattenRow : List Condition → List Join → List Char
  | [], joins => joins.map Join.mark
  | c :: rest, [] => c.flatten ++ flattenRow rest []
  | c :: rest, j :: joins => c.flatten ++ j.mark :: flattenRow rest joins

end

/-- Whether a character is a parenthesis outside lists. -/
def Glyph.isParenthesis (g : Glyph) : Bool := g = opening || g = closing

/-- A text without the parentheses outside its lists. -/
def withoutParentheses (s : List Char) : List Char :=
  ((ofChars false s).filter fun g => !g.isParenthesis).map char

/-! ## What a sequence is put together to -/

theorem mem_of_takeTurns {elements : List Element} {members : List Condition} {joins : List Join}
    (h : takeTurns? elements = some (members, joins)) : ∀ c ∈ members, .member c ∈ elements := by
  induction h using takeTurns?_induction with
  | single c => simp
  | cons c j _ ih =>
    simp only [List.mem_cons]
    rintro d (rfl | hd)
    · exact .inl rfl
    · exact .inr (.inr (ih d hd))

/-- A sequence is put together to one of four: the condition that always holds, its only member, a
group of its members, or one leaf. -/
theorem reading_cases (raw : List Glyph) (elements : List Element) :
    (elements = [] ∧ reading raw elements = .always) ∨
      (∃ c, takeTurns? elements = some ([c], []) ∧ reading raw elements = c) ∨
      (∃ members joins, takeTurns? elements = some (members, joins) ∧ 2 ≤ members.length ∧
        reading raw elements = .group members joins) ∨
      OutOfTurn elements ∧ reading raw elements = .leaf (Glyph.text raw) := by
  by_cases hne : elements = []
  · subst hne
    exact .inl ⟨rfl, rfl⟩
  · cases hturns : takeTurns? elements with
    | none =>
      have hbroken : OutOfTurn elements := ⟨hne, hturns⟩
      exact .inr (.inr (.inr ⟨hbroken, reading_of_outOfTurn raw hbroken⟩))
    | some p =>
      obtain ⟨members, joins⟩ := p
      have hlength := takeTurns?_length hturns
      by_cases hsingle : members.length = 1
      · obtain ⟨c, rfl⟩ := List.length_eq_one_iff.mp hsingle
        obtain rfl : joins = [] := List.length_eq_zero_iff.mp (by simpa using hlength)
        exact .inr (.inl ⟨c, rfl, reading_of_single hturns raw⟩)
      · refine .inr (.inr (.inl ⟨members, joins, rfl, by omega, ?_⟩))
        exact reading_of_takeTurns hturns (by omega) raw

/-- What holds of leaves and of whatever a group inside is put together to, holds of all members
that are read. It can depend on how many parentheses are around them. -/
theorem Reads.forall_member {P : Nat → Condition → Prop} {depth : Nat} {gs : List Glyph}
    {elements : List Element} (hleaf : ∀ depth text, P depth (.leaf text))
    (hreading : ∀ depth raw elements, depth < 64 → (∀ c, .member c ∈ elements → P (depth + 1) c) →
      P depth (reading raw elements))
    (h : Reads depth gs elements) : ∀ c, .member c ∈ elements → P depth c := by
  induction h with
  | nil => simp
  | text _ _ _ _ ih =>
    intro c hc
    rcases List.mem_cons.mp hc with heq | hc
    · obtain rfl := Element.member.inj heq
      exact hleaf _ _
    · exact ih c hc
  | join _ ih =>
    intro c hc
    rcases List.mem_cons.mp hc with heq | hc
    · cases heq
    · exact ih c hc
  | group _ _ ihinner ih =>
    intro c hc
    rcases List.mem_cons.mp hc with heq | hc
    · obtain rfl := Element.member.inj heq
      rw [groupReading]
      split
      · next hdepth => exact hreading _ _ _ hdepth ihinner
      · exact hleaf _ _
    · exact ih c hc

/-- What a text is read as is one leaf, or put together from members that are read. -/
theorem read_cases (text : String) :
    Condition.read text = .leaf (Glyph.text (ofText text)) ∨
      ∃ elements, Reads 0 (ofText text) elements ∧
        Condition.read text = reading (ofText text) elements := by
  by_cases hbalanced : Balanced (ofText text)
  · obtain ⟨elements, hreads⟩ := (reads_iff_balanced _).mpr hbalanced
    exact .inr ⟨elements, hreads, read_of_reads hreads⟩
  · exact .inl (read_of_not_balanced hbalanced)

/-! ## Shape and depth -/

/-- Whether a group has no members and no joins, or at least two members and a join between any two
that are neighbours. -/
def IsRow (group : List Condition × List Join) : Prop :=
  group = ([], []) ∨ 2 ≤ group.1.length ∧ group.2.length + 1 = group.1.length

/-- All groups are sound. -/
def Condition.InRows (c : Condition) : Prop := ∀ group ∈ c.groups, IsRow group

theorem mem_groupsOfEach {group : List Condition × List Join} {members : List Condition} :
    group ∈ groupsOfEach members ↔ ∃ c ∈ members, group ∈ c.groups := by
  induction members with
  | nil => simp [groupsOfEach]
  | cons c rest ih => simp [groupsOfEach, ih]

theorem inRows_reading (raw : List Glyph) {elements : List Element}
    (h : ∀ c, .member c ∈ elements → c.InRows) : (reading raw elements).InRows := by
  rcases reading_cases raw elements with ⟨-, heq⟩ | ⟨c, hturns, heq⟩ |
    ⟨members, joins, hturns, hlength, heq⟩ | ⟨-, heq⟩ <;> rw [heq]
  · intro group hgroup
    obtain rfl : group = ([], []) := by
      simpa [Condition.always, Condition.groups, groupsOfEach] using hgroup
    exact .inl rfl
  · exact h c (mem_of_takeTurns hturns c (by simp))
  · intro group hgroup
    rw [Condition.groups] at hgroup
    rcases List.mem_cons.mp hgroup with rfl | hgroup
    · exact .inr ⟨hlength, takeTurns?_length hturns⟩
    · obtain ⟨c, hc, hgroup⟩ := mem_groupsOfEach.mp hgroup
      exact h c (mem_of_takeTurns hturns c hc) group hgroup
  · simp [Condition.InRows, Condition.groups]

theorem inRows_read (text : String) : (Condition.read text).InRows := by
  have hleaf : ∀ s, (Condition.leaf s).InRows := by simp [Condition.InRows, Condition.groups]
  rcases read_cases text with heq | ⟨elements, hreads, heq⟩ <;> rw [heq]
  · exact hleaf _
  · exact inRows_reading _ (hreads.forall_member (P := fun _ c => c.InRows) (fun _ => hleaf)
      fun _ raw _ _ => inRows_reading raw)

mutual

/-- A condition whose groups are sound is one in which no member is passed over for want of a
join. -/
theorem Condition.InRows.wellJoined : ∀ {c : Condition}, c.InRows → c.WellJoined
  | .leaf _, _ => trivial
  | .group members joins, h => by
    refine ⟨fun hne => ?_, eachWellJoined_of_inRows fun c hc group hgroup => ?_⟩
    · rcases h (members, joins) (by simp [Condition.groups]) with hempty | ⟨-, hlength⟩
      · exact absurd (Prod.mk.inj hempty).1 hne
      · exact hlength
    · refine h group ?_
      rw [Condition.groups]
      exact List.mem_cons_of_mem _ (mem_groupsOfEach.mpr ⟨c, hc, hgroup⟩)

theorem eachWellJoined_of_inRows :
    ∀ {members : List Condition}, (∀ c ∈ members, c.InRows) → EachWellJoined members
  | [], _ => trivial
  | c :: _, h =>
    ⟨(h c (List.mem_cons_self ..)).wellJoined,
      eachWellJoined_of_inRows fun d hd => h d (List.mem_cons_of_mem _ hd)⟩

end

theorem depthOfEach_le {n : Nat} {members : List Condition} (h : ∀ c ∈ members, c.depth ≤ n) :
    depthOfEach members ≤ n := by
  induction members with
  | nil => exact Nat.zero_le n
  | cons c rest ih =>
    obtain ⟨hc, hrest⟩ := List.forall_mem_cons.mp h
    exact Nat.max_le.mpr ⟨hc, ih hrest⟩

/-- A sequence adds at most one group to its members. -/
theorem depth_reading_le (raw : List Glyph) {elements : List Element} {n : Nat}
    (h : ∀ c, .member c ∈ elements → c.depth ≤ n) : (reading raw elements).depth ≤ n + 1 := by
  rcases reading_cases raw elements with ⟨-, heq⟩ | ⟨c, hturns, heq⟩ |
    ⟨members, joins, hturns, -, heq⟩ | ⟨-, heq⟩ <;> rw [heq]
  · simp [Condition.always, Condition.depth, depthOfEach]
  · exact Nat.le_succ_of_le (h c (mem_of_takeTurns hturns c (by simp)))
  · rw [Condition.depth]
    exact Nat.succ_le_succ (depthOfEach_le fun c hc => h c (mem_of_takeTurns hturns c hc))
  · simp [Condition.depth]

theorem depth_read_le (text : String) : (Condition.read text).depth ≤ 65 := by
  rcases read_cases text with heq | ⟨elements, hreads, heq⟩ <;> rw [heq]
  · simp [Condition.depth]
  · -- below `depth` parentheses there is room for the groups of those down to the last depth
    have hmembers := hreads.forall_member (P := fun depth c => c.depth ≤ 64 - depth)
      (fun depth text => by simp [Condition.depth]) fun depth raw elements hdepth hinside => by
        have hle := depth_reading_le raw hinside
        omega
    exact depth_reading_le _ hmembers

/-! ## Text -/

/-- What an item of a sequence is written as. -/
def Element.flatten : Element → List Char
  | .member c => c.flatten
  | .join j => [j.mark]

theorem flattenRow_of_takeTurns {elements : List Element} {members : List Condition}
    {joins : List Join} (h : takeTurns? elements = some (members, joins)) :
    flattenRow members joins = elements.flatMap Element.flatten := by
  induction h using takeTurns?_induction with
  | single c => simp [flattenRow, Element.flatten]
  | cons c j _ ih => simp [flattenRow, Element.flatten, ih]

/-- Some characters with some of the parentheses outside lists left out. -/
inductive Thinned : List Glyph → List Glyph → Prop where
  | nil : Thinned [] []
  | keep {g : Glyph} {gs hs : List Glyph} : Thinned gs hs → Thinned (g :: gs) (g :: hs)
  | leaveOut {g : Glyph} {gs hs : List Glyph} : g.isParenthesis = true → Thinned gs hs →
      Thinned (g :: gs) hs

namespace Thinned

theorem refl : ∀ gs : List Glyph, Thinned gs gs
  | [] => .nil
  | _ :: gs => .keep (refl gs)

theorem append {gs hs more others : List Glyph} (h : Thinned gs hs) (hmore : Thinned more others) :
    Thinned (gs ++ more) (hs ++ others) := by
  induction h with
  | nil => exact hmore
  | keep _ ih => exact .keep ih
  | leaveOut hg _ ih => exact .leaveOut hg ih

theorem filter_eq {gs hs : List Glyph} (h : Thinned gs hs) :
    (hs.filter fun g => !g.isParenthesis) = gs.filter fun g => !g.isParenthesis := by
  induction h with
  | nil => rfl
  | keep _ ih => rw [List.filter_cons, List.filter_cons, ih]
  | leaveOut hg _ ih => rw [List.filter_cons_of_neg (by simp [hg]), ih]

/-- A parenthesis that is left out opens and closes no list. -/
theorem ofChars_eq {gs hs : List Glyph} (h : Thinned gs hs) :
    ∀ {inList : Bool}, ofChars inList (gs.map char) = gs →
      ofChars inList (hs.map char) = hs := by
  induction h with
  | nil => exact fun _ => rfl
  | keep _ ih =>
    intro inList heq
    rw [List.map_cons, ofChars] at heq ⊢
    obtain ⟨hfirst, hrest⟩ := List.cons.inj heq
    rw [hfirst, ih hrest]
  | leaveOut hg _ ih =>
    intro inList heq
    rw [List.map_cons, ofChars] at heq
    obtain ⟨hfirst, hrest⟩ := List.cons.inj heq
    simp only [isParenthesis, Bool.or_eq_true, decide_eq_true_eq] at hg
    rcases hg with rfl | rfl
    · obtain rfl : inList = false := by simpa [opening] using hfirst
      exact ih hrest
    · obtain rfl : inList = false := by simpa [closing] using hfirst
      exact ih hrest

end Thinned

theorem toList_text (gs : List Glyph) : (Glyph.text gs).toList = gs.map char :=
  String.toList_ofList

/-- Put together, a sequence is written as its items one after the other, or as its text. -/
theorem flatten_reading (raw : List Glyph) (elements : List Element) :
    (reading raw elements).flatten = elements.flatMap Element.flatten ∨
      (reading raw elements).flatten = raw.map char := by
  rcases reading_cases raw elements with ⟨rfl, heq⟩ | ⟨c, hturns, heq⟩ |
    ⟨members, joins, hturns, -, heq⟩ | ⟨-, heq⟩ <;> rw [heq]
  · exact .inl rfl
  · refine .inl ?_
    rw [← flattenRow_of_takeTurns hturns, flattenRow, flattenRow, List.map_nil, List.append_nil]
  · exact .inl (flattenRow_of_takeTurns hturns)
  · exact .inr (toList_text raw)

/-- The items of a sequence are written as its text, with some of the parentheses left out. -/
theorem Reads.exists_thinned {depth : Nat} {gs : List Glyph} {elements : List Element}
    (h : Reads depth gs elements) :
    ∃ hs, Thinned gs hs ∧ elements.flatMap Element.flatten = hs.map char := by
  induction h with
  | nil => exact ⟨[], .nil, rfl⟩
  | @text _ chunk _ _ _ _ _ _ ih =>
    obtain ⟨hs, hthin, heq⟩ := ih
    refine ⟨chunk ++ hs, (Thinned.refl chunk).append hthin, ?_⟩
    rw [List.flatMap_cons, heq, List.map_append, Element.flatten, Condition.flatten, toList_text]
  | @join _ j _ _ _ ih =>
    obtain ⟨hs, hthin, heq⟩ := ih
    refine ⟨ofJoin j :: hs, .keep hthin, ?_⟩
    rw [List.flatMap_cons, heq]
    cases j <;> rfl
  | @group depth inner rest inside elements _ _ ihinner ih =>
    obtain ⟨hs, hthin, heq⟩ := ih
    obtain ⟨within, hwithin, hinside⟩ := ihinner
    have hsplit : opening :: (inner ++ closing :: rest)
        = opening :: (inner ++ [closing]) ++ rest := by simp
    rw [hsplit, List.flatMap_cons, heq]
    -- a group is written as its text, or as its items without its parentheses
    have hgroup : ∃ kept, Thinned (opening :: (inner ++ [closing])) kept ∧
        (groupReading (depth + 1) (opening :: (inner ++ [closing])) inside).flatten
          = kept.map char := by
      have hraw := Thinned.refl (opening :: (inner ++ [closing]))
      rw [groupReading]
      split
      · rcases flatten_reading (opening :: (inner ++ [closing])) inside with hflat | hflat
        · refine ⟨within ++ [], .leaveOut rfl (hwithin.append (.leaveOut rfl .nil)), ?_⟩
          rw [hflat, hinside, List.append_nil]
        · exact ⟨_, hraw, hflat⟩
      · exact ⟨_, hraw, toList_text _⟩
    obtain ⟨kept, hkept, hflat⟩ := hgroup
    refine ⟨kept ++ hs, hkept.append hthin, ?_⟩
    rw [Element.flatten, hflat, List.map_append]

/-- A condition is written as the text it was read from, with some of the parentheses left out. -/
theorem exists_thinned_read (text : String) :
    ∃ hs, Thinned (ofText text) hs ∧ (Condition.read text).flatten = hs.map char := by
  have hwhole := Thinned.refl (ofText text)
  rcases read_cases text with heq | ⟨elements, hreads, heq⟩ <;> rw [heq]
  · exact ⟨_, hwhole, toList_text _⟩
  · rcases flatten_reading (ofText text) elements with hflat | hflat <;> rw [hflat]
    · exact hreads.exists_thinned
    · exact ⟨_, hwhole, rfl⟩

/-- A text of whose parentheses some are left out is the same text without parentheses. -/
theorem Thinned.withoutParentheses_eq {gs hs : List Glyph} (h : Thinned gs hs)
    (hlists : ofChars false (gs.map char) = gs) :
    withoutParentheses (hs.map char) = withoutParentheses (gs.map char) := by
  rw [withoutParentheses, withoutParentheses, h.ofChars_eq hlists, hlists, h.filter_eq]

theorem map_char_ofText (text : String) : (ofText text).map char = stripBlanks text.toList :=
  map_char_ofChars text.toList false

/-- Whatever a text is, what it is read as has sound groups, so evaluation passes over no member,
and lies at most 65 groups deep. Written out, it is the text without its blanks, when the
parentheses outside lists are left out of both: no operand and no join is lost, repeated or
moved. -/
theorem read_loses_no_text (text : String) :
    (∀ group ∈ (Condition.read text).groups, IsRow group) ∧
      (Condition.read text).WellJoined ∧ (Condition.read text).depth ≤ 65 ∧
      withoutParentheses (Condition.read text).flatten
        = withoutParentheses (stripBlanks text.toList) := by
  refine ⟨inRows_read text, (inRows_read text).wellJoined, depth_read_le text, ?_⟩
  obtain ⟨hs, hthin, hflat⟩ := exists_thinned_read text
  rw [hflat, ← map_char_ofText]
  exact hthin.withoutParentheses_eq (ofChars_map_char_kept text.toList false)

end LifePath
