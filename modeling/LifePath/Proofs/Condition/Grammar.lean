import LifePath.Condition.Read

/-!
# The grammar of conditions

A condition means something with its blanks left out, lists apart. What is left is a sequence of
texts, joins, and groups between parentheses, which hold such sequences again; `Reads` says so by
recursion. A sequence whose members and joins take turns is a group of a condition, and any other
is a leaf that holds the raw text (`reading`). Groups below more than 64 parentheses are leaves
whatever they hold.

Nothing here counts open parentheses as it goes: `Balanced` compares their numbers in every prefix.
That a text can be read exactly if it is balanced is `Glyph.reads_iff_balanced`.
-/

namespace LifePath

open LifePath.Text (isBlank)

/-! ## Characters and lists -/

/-- A character of a condition, and whether it belongs to a list. -/
structure Glyph where
  char : Char
  inList : Bool
deriving Repr, DecidableEq

namespace Glyph

/-- Whether what comes after a character is in a list. A list begins at `[` and ends with the next
`]`, or with the text if there is none. -/
def staysInList (inList : Bool) (c : Char) : Bool := if inList then c != ']' else c == '['

/-- The characters of a text that begins inside a list or outside. -/
def ofChars (inList : Bool) : List Char → List Glyph
  | [] => []
  | c :: rest => ⟨c, inList || c == '['⟩ :: ofChars (staysInList inList c) rest

/-- Whether a character means something: a blank does only in a list. -/
def isKept (g : Glyph) : Bool := g.inList || !isBlank g.char

/-- The characters of a condition that mean something. -/
def ofText (text : String) : List Glyph := (ofChars false text.toList).filter isKept

/-- The text of some characters. -/
def text (gs : List Glyph) : String := String.ofList (gs.map char)

/-- A parenthesis that opens a group. -/
def opening : Glyph := ⟨'(', false⟩

/-- A parenthesis that closes a group. -/
def closing : Glyph := ⟨')', false⟩

/-- The mark of a join. -/
def ofJoin (j : Join) : Glyph := ⟨j.mark, false⟩

/-- Whether a character is a parenthesis or a join. -/
def isSign (g : Glyph) : Bool :=
  g = opening || g = closing || g = ofJoin .and || g = ofJoin .or

theorem isSign_ofJoin (j : Join) : (ofJoin j).isSign = true := by cases j <;> rfl

/-- A sign that is no parenthesis is a join. -/
theorem exists_ofJoin_of_isSign {g : Glyph} (hopen : g ≠ opening) (hclose : g ≠ closing)
    (h : g.isSign = true) : ∃ j, g = ofJoin j := by
  simp only [isSign, hopen, hclose, decide_false, Bool.false_or, Bool.or_eq_true,
    decide_eq_true_eq] at h
  rcases h with rfl | rfl
  · exact ⟨.and, rfl⟩
  · exact ⟨.or, rfl⟩

/-- No prefix closes more parentheses than it opens, and none stays open. -/
def Balanced (gs : List Glyph) : Prop :=
  (∀ p, p <+: gs → p.count closing ≤ p.count opening) ∧ gs.count closing = gs.count opening

end Glyph

/-! ## Sequences -/

/-- An item of a sequence. -/
inductive Element where
  | member (c : Condition)
  | join (j : Join)
deriving Repr

/-- The members and the joins of a sequence in which they take turns, beginning and ending with a
member. -/
def takeTurns? : List Element → Option (List Condition × List Join)
  | [.member c] => some ([c], [])
  | .member c :: .join j :: rest => (takeTurns? rest).map fun p => (c :: p.1, j :: p.2)
  | _ => none

/-- What holds of a single member, and of a member and a join in front of what it holds of, holds
wherever members and joins take turns. -/
@[elab_as_elim]
theorem takeTurns?_induction
    {motive : ∀ (elements : List Element) (members : List Condition) (joins : List Join),
      takeTurns? elements = some (members, joins) → Prop}
    (single : ∀ c, motive [.member c] [c] [] rfl)
    (cons : ∀ (c : Condition) (j : Join) {elements : List Element} {members : List Condition}
      {joins : List Join} (h : takeTurns? elements = some (members, joins)),
      motive elements members joins h →
      motive (.member c :: .join j :: elements) (c :: members) (j :: joins) (by simp [takeTurns?, h])) :
    ∀ {elements : List Element} {members : List Condition} {joins : List Join}
      (h : takeTurns? elements = some (members, joins)), motive elements members joins h
  | [], _, _, h => by cases h
  | [.member c], _, _, h => by
    cases h
    exact single c
  | .member c :: .member c' :: rest, _, _, h => by cases h
  | .join j :: rest, _, _, h => by cases h
  | .member c :: .join j :: rest, _, _, h => by
    obtain ⟨⟨members, joins⟩, hrest, heq⟩ := Option.map_eq_some_iff.mp h
    cases heq
    exact cons c j hrest (takeTurns?_induction single cons hrest)

theorem takeTurns?_length {elements : List Element} {members : List Condition} {joins : List Join}
    (h : takeTurns? elements = some (members, joins)) : joins.length + 1 = members.length := by
  induction h using takeTurns?_induction with
  | single c => rfl
  | cons c j _ ih => simpa using ih

/-- The condition that a sequence stands for; `raw` is its text. -/
def reading (raw : List Glyph) : List Element → Condition
  | [] => .always
  | elements =>
    match takeTurns? elements with
    | some ([c], _) => c
    | some (members, joins) => .group members joins
    | none => .leaf (Glyph.text raw)

/-- What members and joins that take turns stand for: the only member, or a group. -/
def Condition.ofTurns : List Condition → List Join → Condition
  | [c], _ => c
  | members, joins => .group members joins

theorem reading_eq_ofTurns {elements : List Element} {members : List Condition}
    {joins : List Join} (h : takeTurns? elements = some (members, joins)) (raw : List Glyph) :
    reading raw elements = .ofTurns members joins := by
  cases elements with
  | nil => cases h
  | cons e rest =>
    rw [reading, h]
    · match members with
      | [] | [_] | _ :: _ :: _ => rfl
    · simp

theorem reading_of_single {elements : List Element} {c : Condition} {joins : List Join}
    (h : takeTurns? elements = some ([c], joins)) (raw : List Glyph) : reading raw elements = c :=
  reading_eq_ofTurns h raw

theorem reading_of_takeTurns {elements : List Element} {members : List Condition}
    {joins : List Join} (h : takeTurns? elements = some (members, joins))
    (hlength : 2 ≤ members.length) (raw : List Glyph) :
    reading raw elements = .group members joins := by
  rw [reading_eq_ofTurns h]
  match members, hlength with
  | _ :: _ :: _, _ => rfl

theorem reading_of_takeTurns_eq_none {elements : List Element} (hne : elements ≠ [])
    (h : takeTurns? elements = none) (raw : List Glyph) :
    reading raw elements = .leaf (Glyph.text raw) := by
  obtain ⟨e, rest, rfl⟩ := List.exists_cons_of_ne_nil hne
  rw [reading, h]
  simp

/-- The condition that a group at a depth stands for; `raw` is its text with the parentheses. -/
def groupReading (depth : Nat) (raw : List Glyph) (elements : List Element) : Condition :=
  if depth ≤ 64 then reading raw elements else .leaf (Glyph.text raw)

open Glyph in
/-- The sequence that some characters are read as, below so many parentheses. A text goes up to the
next parenthesis or join. -/
inductive Reads : Nat → List Glyph → List Element → Prop where
  | nil {depth : Nat} : Reads depth [] []
  | text {depth : Nat} {chunk rest : List Glyph} {elements : List Element} :
      chunk ≠ [] → (∀ g ∈ chunk, g.isSign = false) → (∀ g ∈ rest.head?, g.isSign = true) →
      Reads depth rest elements →
      Reads depth (chunk ++ rest) (.member (.leaf (Glyph.text chunk)) :: elements)
  | join {depth : Nat} {j : Join} {rest : List Glyph} {elements : List Element} :
      Reads depth rest elements → Reads depth (ofJoin j :: rest) (.join j :: elements)
  | group {depth : Nat} {inner rest : List Glyph} {inside elements : List Element} :
      Reads (depth + 1) inner inside → Reads depth rest elements →
      Reads depth (opening :: (inner ++ closing :: rest))
        (.member (groupReading (depth + 1) (opening :: (inner ++ [closing])) inside) :: elements)

namespace Glyph

/-! ## What can be read -/

/-- Whether some characters can be read, at any depth. -/
def Readable (gs : List Glyph) : Prop := ∀ depth, ∃ elements, Reads depth gs elements

theorem Readable.cons_text {g : Glyph} {rest : List Glyph} (hg : g.isSign = false)
    (h : Readable rest) : Readable (g :: rest) := by
  intro depth
  obtain ⟨elements, hreads⟩ := h depth
  have hsingle : (∀ g ∈ rest.head?, g.isSign = true) →
      ∃ elements, Reads depth (g :: rest) elements := by
    intro hrest
    rw [← List.singleton_append]
    exact ⟨_, .text (by simp) (by simpa using hg) hrest hreads⟩
  -- a text in front of a text goes on with it, and stands alone in front of anything else
  cases hreads with
  | nil => exact hsingle (by simp)
  | join => exact hsingle (by simp [isSign_ofJoin])
  | group => exact hsingle (by simp [isSign])
  | text hne hchunk hrest hreads =>
    rw [← List.cons_append]
    refine ⟨_, .text (by simp) ?_ hrest hreads⟩
    intro g' hg'
    rcases List.mem_cons.mp hg' with rfl | hg'
    · exact hg
    · exact hchunk g' hg'

theorem Readable.cons_join {rest : List Glyph} (j : Join) (h : Readable rest) :
    Readable (ofJoin j :: rest) := by
  intro depth
  obtain ⟨elements, hreads⟩ := h depth
  exact ⟨_, .join hreads⟩

theorem Readable.group {inner rest : List Glyph} (hinner : Readable inner) (h : Readable rest) :
    Readable (opening :: (inner ++ closing :: rest)) := by
  intro depth
  obtain ⟨inside, hinside⟩ := hinner (depth + 1)
  obtain ⟨elements, hreads⟩ := h depth
  exact ⟨_, .group hinside hreads⟩

/-! ## Counting parentheses

`openAfter` goes through a text with the number of parentheses that are open. It is the bridge from
counts in prefixes to the recursion of `Reads`. -/

/-- The number of parentheses that are open after some characters if `n` are open before them; none
if one is closed that is not open. -/
def openAfter (n : Nat) : List Glyph → Option Nat
  | [] => some n
  | g :: rest =>
    if g = opening then openAfter (n + 1) rest
    else if g = closing then
      match n with
      | 0 => none
      | n + 1 => openAfter n rest
    else openAfter n rest

@[simp] theorem openAfter_opening (n : Nat) (rest : List Glyph) :
    openAfter n (opening :: rest) = openAfter (n + 1) rest := by
  simp [openAfter]

@[simp] theorem openAfter_closing_succ (n : Nat) (rest : List Glyph) :
    openAfter (n + 1) (closing :: rest) = openAfter n rest := by
  simp [openAfter, opening, closing]

@[simp] theorem openAfter_closing_zero (rest : List Glyph) :
    openAfter 0 (closing :: rest) = none := by
  simp [openAfter, opening, closing]

theorem openAfter_other {g : Glyph} (hopen : g ≠ opening) (hclose : g ≠ closing) (n : Nat)
    (rest : List Glyph) : openAfter n (g :: rest) = openAfter n rest := by
  simp [openAfter, hopen, hclose]

theorem forall_prefix_cons {α : Type} {P : List α → Prop} {x : α} {xs : List α} :
    (∀ p, p <+: x :: xs → P p) ↔ P [] ∧ ∀ p, p <+: xs → P (x :: p) := by
  simp only [List.prefix_cons_iff]
  constructor
  · intro h
    exact ⟨h [] (.inl rfl), fun p hp => h (x :: p) (.inr ⟨p, rfl, hp⟩)⟩
  · rintro ⟨hnil, hcons⟩ p (rfl | ⟨p, rfl, hp⟩)
    · exact hnil
    · exact hcons p hp

/-- All parentheses are closed in the end exactly if the numbers of opening and closing ones in the
prefixes and in the whole say so. -/
theorem openAfter_eq_zero_iff (gs : List Glyph) :
    ∀ n, openAfter n gs = some 0 ↔
      (∀ p, p <+: gs → p.count closing ≤ n + p.count opening) ∧
        gs.count closing = n + gs.count opening := by
  induction gs with
  | nil =>
    intro n
    simp only [openAfter, List.prefix_nil, forall_eq, List.count_nil, Option.some.injEq]
    omega
  | cons g rest ih =>
    intro n
    have hne : closing ≠ opening := by decide
    rw [forall_prefix_cons]
    by_cases hopen : g = opening
    · subst hopen
      simp only [openAfter_opening, ih, List.count_nil, List.count_cons_self,
        List.count_cons_of_ne hne.symm, Nat.add_right_comm n 1, Nat.add_assoc, Nat.zero_le,
        true_and]
    · by_cases hclose : g = closing
      · subst hclose
        cases n with
        | zero =>
          simp only [openAfter_closing_zero, List.count_cons_self, List.count_cons_of_ne hne]
          constructor
          · intro h
            cases h
          · rintro ⟨⟨-, h⟩, -⟩
            have := h [] List.nil_prefix
            simp at this
        | succ n =>
          simp only [openAfter_closing_succ, ih, List.count_nil, List.count_cons_self,
            List.count_cons_of_ne hne, Nat.add_right_comm n 1, Nat.add_le_add_iff_right,
            Nat.add_right_cancel_iff, Nat.zero_le, true_and]
      · simp only [openAfter_other hopen hclose, ih, List.count_nil,
          List.count_cons_of_ne hopen, List.count_cons_of_ne hclose, Nat.zero_le, true_and]

theorem balanced_iff_openAfter (gs : List Glyph) : Balanced gs ↔ openAfter 0 gs = some 0 := by
  simp [openAfter_eq_zero_iff, Balanced]

/-- What is read leaves the number of open parentheses as it was. -/
theorem openAfter_of_reads {depth : Nat} {gs : List Glyph} {elements : List Element}
    (h : Reads depth gs elements) :
    ∀ (n : Nat) (more : List Glyph), openAfter n (gs ++ more) = openAfter n more := by
  induction h with
  | nil => intro n more; rfl
  | @text _ chunk rest _ _ hchunk _ _ ih =>
    intro n more
    have hskip : ∀ cs : List Glyph, (∀ g ∈ cs, g.isSign = false) →
        openAfter n (cs ++ (rest ++ more)) = openAfter n (rest ++ more) := by
      intro cs
      induction cs with
      | nil => intro _; rfl
      | cons g cs ihcs =>
        intro hcs
        have hg := hcs g (List.mem_cons_self ..)
        simp only [isSign, Bool.or_eq_false_iff, decide_eq_false_iff_not] at hg
        rw [List.cons_append, openAfter_other hg.1.1.1 hg.1.1.2]
        exact ihcs fun g' hg' => hcs g' (List.mem_cons_of_mem _ hg')
    rw [List.append_assoc, hskip chunk hchunk, ih]
  | @join _ j rest _ _ ih =>
    intro n more
    rw [List.cons_append, openAfter_other (by cases j <;> decide) (by cases j <;> decide), ih]
  | @group _ inner rest _ _ _ _ ihinner ih =>
    intro n more
    rw [List.cons_append, List.append_assoc, List.cons_append, openAfter_opening, ihinner,
      openAfter_closing_succ, ih]

/-- If the `n` parentheses that are open are closed in the end, the text falls into one readable
piece for each of them and one more. -/
theorem readable_pieces (gs : List Glyph) :
    ∀ n, openAfter n gs = some 0 →
      ∃ (first : List Glyph) (rests : List (List Glyph)), rests.length = n ∧
        gs = first ++ rests.flatMap (closing :: ·) ∧ Readable first ∧ ∀ r ∈ rests, Readable r := by
  induction gs with
  | nil =>
    intro n h
    obtain rfl : n = 0 := by simpa [openAfter] using h
    exact ⟨[], [], rfl, rfl, fun _ => ⟨[], .nil⟩, by simp⟩
  | cons g rest ih =>
    intro n h
    by_cases hopen : g = opening
    · subst hopen
      rw [openAfter_opening] at h
      obtain ⟨inner, pieces, hlen, hgs, hinner, hpieces⟩ := ih (n + 1) h
      obtain ⟨first, rests, rfl⟩ := List.exists_cons_of_length_eq_add_one hlen
      refine ⟨opening :: (inner ++ closing :: first), rests, by simpa using hlen, by simp [hgs],
        .group hinner (hpieces first (List.mem_cons_self ..)),
        fun r hr => hpieces r (List.mem_cons_of_mem _ hr)⟩
    · by_cases hclose : g = closing
      · subst hclose
        cases n with
        | zero => simp at h
        | succ n =>
          rw [openAfter_closing_succ] at h
          obtain ⟨first, rests, hlen, hgs, hfirst, hrests⟩ := ih n h
          refine ⟨[], first :: rests, by simpa using hlen, by simp [hgs], fun _ => ⟨[], .nil⟩, ?_⟩
          intro r hr
          rcases List.mem_cons.mp hr with rfl | hr
          · exact hfirst
          · exact hrests r hr
      · rw [openAfter_other hopen hclose] at h
        obtain ⟨first, rests, hlen, hgs, hfirst, hrests⟩ := ih n h
        refine ⟨g :: first, rests, hlen, by simp [hgs], ?_, hrests⟩
        by_cases hsign : g.isSign = true
        · obtain ⟨j, rfl⟩ := exists_ofJoin_of_isSign hopen hclose hsign
          exact hfirst.cons_join j
        · exact hfirst.cons_text (by simpa using hsign)

/-- A text can be read exactly if its parentheses are balanced. -/
theorem reads_iff_balanced (gs : List Glyph) : (∃ elements, Reads 0 gs elements) ↔ Balanced gs := by
  rw [balanced_iff_openAfter]
  constructor
  · rintro ⟨elements, h⟩
    have := openAfter_of_reads h 0 []
    rwa [List.append_nil] at this
  · intro h
    obtain ⟨first, rests, hlen, hgs, hfirst, -⟩ := readable_pieces gs 0 h
    obtain rfl : rests = [] := List.eq_nil_of_length_eq_zero hlen
    rw [List.flatMap_nil, List.append_nil] at hgs
    subst hgs
    exact hfirst 0

end Glyph

end LifePath
