import LifePath.Proofs.Condition.RoundTrip
import LifePath.Proofs.Condition.Runs

/-!
# Conditions compose as text

Two conditions with a `|` between them are read as one flat group, in which a true `|` ends
everything that follows; all the same, the whole is the first condition and, only if that is false,
the second. A condition between parentheses is the condition itself, unless the parentheses push a
group of it below the depth down to which groups are read (`Shallow`).

A `Proper` text is one that is read as members and joins that take turns. `TakesTurns` follows
these through the two ways of putting texts together: with a join between them the members are put
one behind the other (`TakesTurns.join`), and between parentheses they become one member
(`TakesTurns.parentheses`). What the joins mean is said by runs (`Verdict.anyOf_append`).
-/

namespace LifePath

open Glyph

/-! ## Sequences put together -/

/-- A sequence in front of one that begins with a sign. -/
theorem Reads.append {depth : Nat} {gs more : List Glyph} {elements others : List Element}
    (h : Reads depth gs elements) (hmore : ∀ g ∈ more.head?, g.isSign = true)
    (hothers : Reads depth more others) : Reads depth (gs ++ more) (elements ++ others) := by
  induction h with
  | nil => exact hothers
  | @text _ chunk rest _ hne hchunk hrest _ ih =>
    rw [List.append_assoc]
    refine .text hne hchunk ?_ (ih hothers)
    cases rest with
    | nil => exact hmore
    | cons g rest => exact hrest
  | join _ ih => exact .join (ih hothers)
  | group hinner _ _ ih =>
    rw [List.cons_append, List.append_assoc, List.cons_append]
    exact .group hinner (ih hothers)

theorem takeTurns?_append (j : Join) {elements others : List Element}
    {members more : List Condition} {joins marks : List Join}
    (h : takeTurns? elements = some (members, joins))
    (hothers : takeTurns? others = some (more, marks)) :
    takeTurns? (elements ++ .join j :: others) = some (members ++ more, joins ++ j :: marks) := by
  induction h using takeTurns?_induction with
  | single c => simp [takeTurns?, hothers]
  | cons c k _ ih => simp [takeTurns?, ih]

/-- Where members and joins take turns, the raw text is of no account. -/
theorem reading_eq_reading {elements : List Element} {members : List Condition}
    {joins : List Join} (h : takeTurns? elements = some (members, joins)) (raw raw' : List Glyph) :
    reading raw elements = reading raw' elements := by
  rw [reading_eq_ofTurns h, reading_eq_ofTurns h]

/-! ## Depth -/

namespace Glyph

/-- In no prefix are more than `n` parentheses open. -/
def NestedWithin (n : Nat) (gs : List Glyph) : Prop :=
  ∀ p, p <+: gs → p.count opening ≤ p.count closing + n

theorem NestedWithin.of_append {n : Nat} {as bs : List Glyph}
    (has : as.count opening = as.count closing) (h : NestedWithin n (as ++ bs)) :
    NestedWithin n bs := by
  intro p hp
  have hcount := h (as ++ p) ((List.prefix_append_right_inj as).mpr hp)
  rw [List.count_append, List.count_append] at hcount
  omega

theorem NestedWithin.of_opening {n : Nat} {gs more : List Glyph}
    (h : NestedWithin n (opening :: (gs ++ more))) : ∃ m, n = m + 1 ∧ NestedWithin m gs := by
  have hcount : ∀ p, p <+: gs → p.count opening + 1 ≤ p.count closing + n := by
    intro p hp
    have hprefix : p <+: gs ++ more := hp.trans (List.prefix_append gs more)
    have hcons := h (opening :: p) (List.cons_prefix_cons.mpr ⟨rfl, hprefix⟩)
    have hne : opening ≠ closing := by decide
    rwa [List.count_cons_self, List.count_cons_of_ne hne] at hcons
  have hpos := hcount [] List.nil_prefix
  rw [List.count_nil, List.count_nil] at hpos
  refine ⟨n - 1, by omega, fun p hp => ?_⟩
  have := hcount p hp
  omega

end Glyph

theorem Reads.count_eq {depth : Nat} {gs : List Glyph} {elements : List Element}
    (h : Reads depth gs elements) : gs.count opening = gs.count closing := by
  have hopen := openAfter_of_reads h 0 []
  rw [List.append_nil] at hopen
  exact ((balanced_iff_openAfter gs).mpr hopen).2.symm

/-- At another depth the same is read, if at neither depth a group is too deep. -/
theorem Reads.shift {depth : Nat} {gs : List Glyph} {elements : List Element}
    (h : Reads depth gs elements) :
    ∀ {depth' n : Nat}, NestedWithin n gs → depth + n ≤ 64 → depth' + n ≤ 64 →
      Reads depth' gs elements := by
  induction h with
  | nil =>
    intro depth' n _ _ _
    exact .nil
  | @text depth chunk rest elements hne hchunk hrest _ ih =>
    intro depth' n hnested hdepth hdepth'
    have hnone : ∀ sign : Glyph, sign.isSign = true → chunk.count sign = 0 := by
      intro sign hsign
      rw [List.count_eq_zero]
      intro hmem
      rw [hchunk sign hmem] at hsign
      cases hsign
    have heven : chunk.count opening = chunk.count closing := by
      rw [hnone opening (by decide), hnone closing (by decide)]
    exact .text hne hchunk hrest (ih (hnested.of_append heven) hdepth hdepth')
  | @join depth j rest elements _ ih =>
    intro depth' n hnested hdepth hdepth'
    have heven : [ofJoin j].count opening = [ofJoin j].count closing := by cases j <;> decide
    have hrest : NestedWithin n rest := NestedWithin.of_append heven hnested
    exact .join (ih hrest hdepth hdepth')
  | @group depth inner rest inside elements hinner _ ihinner ih =>
    intro depth' n hnested hdepth hdepth'
    -- inside the group one parenthesis fewer can be open
    obtain ⟨m, rfl, hinside⟩ := hnested.of_opening
    have heven : (opening :: (inner ++ [closing])).count opening =
        (opening :: (inner ++ [closing])).count closing := by
      have hne : closing ≠ opening := by decide
      rw [List.count_cons_self, List.count_cons_of_ne hne.symm, List.count_append,
        List.count_append, hinner.count_eq]
      rfl
    have hrest : NestedWithin (m + 1) rest := by
      refine NestedWithin.of_append heven ?_
      simpa using hnested
    have hgroup : groupReading (depth + 1) (opening :: (inner ++ [closing])) inside =
        groupReading (depth' + 1) (opening :: (inner ++ [closing])) inside := by
      rw [groupReading, groupReading, if_pos (by omega), if_pos (by omega)]
    rw [hgroup]
    exact .group (ihinner hinside (by omega) (by omega)) (ih hrest hdepth hdepth')

/-! ## Verdicts put together -/

theorem runsAfter_append {α : Type} (next : α) (more : List α) (marks : List Join) :
    ∀ {rest : List α} {joins : List Join}, joins.length = rest.length →
      runsAfter (rest ++ next :: more) (joins ++ .or :: marks) =
        ((runsAfter rest joins).1, (runsAfter rest joins).2 ++ runs (next :: more) marks) := by
  intro rest
  induction rest with
  | nil =>
    intro joins h
    obtain rfl : joins = [] := by simpa using h
    rfl
  | cons first rest ih =>
    intro joins h
    cases joins with
    | nil => simp at h
    | cons j joins =>
      have hrest := ih (by simpa using h)
      cases j <;> simp [runsAfter, hrest]

/-- A `|` between two rows of members divides no run. -/
theorem runs_append {α : Type} {members more : List α} {joins : List Join} (marks : List Join)
    (h : joins.length + 1 = members.length) (hmore : more ≠ []) :
    runs (members ++ more) (joins ++ .or :: marks) = runs members joins ++ runs more marks := by
  obtain ⟨first, rest, rfl⟩ := List.exists_cons_of_length_eq_add_one h.symm
  obtain ⟨next, more, rfl⟩ := List.exists_cons_of_ne_nil hmore
  have hlength : joins.length = rest.length := by simpa using h
  simp only [List.cons_append, runs, runsAfter_append next more marks hlength]

namespace Verdict

theorem andThen_pure (v : Verdict) : v.andThen pure = v := by
  obtain ⟨outcome, asked⟩ := v
  cases outcome <;> simp [andThen, pure]

theorem anyOf_append (rs more : List (List Verdict)) :
    anyOf (rs ++ more) = (anyOf rs).andThen fun b => if b then pure true else anyOf more := by
  induction rs with
  | nil => simp [anyOf]
  | cons run rest ih =>
    rw [List.cons_append, anyOf, anyOf, andThen_assoc]
    congr 1
    funext b
    cases b
    · simpa using ih
    · simp

theorem ite_pure (b : Bool) : (if b then pure true else pure false) = pure b := by
  cases b <;> rfl

/-- A run alone is what its members come to. -/
theorem anyOf_singleton (run : List Verdict) : anyOf [run] = allOf run := by
  simp only [anyOf, ite_pure]
  exact andThen_pure _

theorem allOf_singleton (v : Verdict) : allOf [v] = v := by
  simp only [allOf, ite_pure]
  exact andThen_pure _

end Verdict

theorem evaluate_reading (source : Source) {elements : List Element} {members : List Condition}
    {joins : List Join} (h : takeTurns? elements = some (members, joins)) (raw : List Glyph) :
    (reading raw elements).evaluate source =
      .anyOf (runs (members.map (·.evaluate source)) joins) := by
  match members, joins, takeTurns?_length h with
  | [c], [], _ =>
    rw [reading_of_single h, List.map_singleton]
    exact ((Verdict.anyOf_singleton _).trans (Verdict.allOf_singleton _)).symm
  | first :: second :: rest, joins, _ =>
    rw [reading_of_takeTurns h (by simp), Condition.evaluate, evaluateGroup_eq]

/-! ## Texts put together -/

/-- A text is read as members and joins that take turns, and its lists are closed. -/
structure TakesTurns (text : String) (members : List Condition) (joins : List Join) : Prop where
  closed : listAfter false text.toList = false
  reads : ∃ elements, Reads 0 (ofText text) elements ∧
    takeTurns? elements = some (members, joins)

namespace TakesTurns

variable {s t text : String} {members more : List Condition} {joins marks : List Join}

theorem evaluate_eq (h : TakesTurns s members joins) (source : Source) :
    (Condition.read s).evaluate source =
      .anyOf (runs (members.map (·.evaluate source)) joins) := by
  obtain ⟨elements, hreads, hturns⟩ := h.reads
  rw [read_of_reads hreads, evaluate_reading source hturns]

theorem length_eq (h : TakesTurns s members joins) : joins.length + 1 = members.length := by
  obtain ⟨elements, -, hturns⟩ := h.reads
  exact takeTurns?_length hturns

theorem join {j : Join} (hs : TakesTurns s members joins) (ht : TakesTurns t more marks)
    (htext : text.toList = s.toList ++ j.mark :: t.toList) :
    TakesTurns text (members ++ more) (joins ++ j :: marks) := by
  obtain ⟨elements, hreads, hturns⟩ := hs.reads
  obtain ⟨others, hreads', hturns'⟩ := ht.reads
  have hmark : listAfter false (j.mark :: t.toList) = listAfter false t.toList := by
    cases j <;> rfl
  have hkept : ofText text = ofText s ++ ofJoin j :: ofText t := by
    have hsplit := kept_append false s.toList (j.mark :: t.toList)
    rw [hs.closed, kept_cons_join, ← htext] at hsplit
    exact hsplit
  refine ⟨?_, elements ++ .join j :: others, ?_, takeTurns?_append j hturns hturns'⟩
  · rw [htext, listAfter_append, hs.closed, hmark, ht.closed]
  · rw [hkept]
    exact hreads.append (by simp [isSign_ofJoin]) (.join hreads')

/-- Between parentheses it is one member, if that makes no group too deep. -/
theorem parentheses (h : TakesTurns s members joins)
    (htext : text.toList = '(' :: (s.toList ++ [')'])) (hshallow : NestedWithin 64 (ofText text)) :
    TakesTurns text [Condition.read s] [] := by
  obtain ⟨elements, hreads, hturns⟩ := h.reads
  have hkept : ofText text = opening :: (ofText s ++ [closing]) := by
    have hsplit := kept_parentheses h.closed
    rw [← htext] at hsplit
    exact hsplit
  rw [hkept] at hshallow
  obtain ⟨m, hm, hnested⟩ := hshallow.of_opening
  have hinner : Reads 1 (ofText s) elements := hreads.shift hnested (by omega) (by omega)
  refine ⟨by rw [htext]; exact listAfter_parentheses h.closed, [.member (Condition.read s)], ?_, ?_⟩
  · rw [hkept, read_of_reads hreads,
      reading_eq_reading hturns _ (opening :: (ofText s ++ [closing]))]
    exact .group hinner .nil
  · rfl

end TakesTurns

/-! ## Main statement -/

/-- A text with balanced parentheses and closed lists that is read as members and joins that take
turns, beginning and ending with a member. -/
structure Proper (text : String) : Prop where
  balanced : Balanced (ofText text)
  closed : listAfter false text.toList = false
  turns : ∃ elements, Reads 0 (ofText text) elements ∧ (takeTurns? elements).isSome

/-- Whether every group in a text is within the depth down to which groups are read. -/
def Shallow (text : String) : Prop := NestedWithin maxDepth (ofText text)

theorem Proper.takesTurns {text : String} (h : Proper text) :
    ∃ members joins, TakesTurns text members joins := by
  obtain ⟨elements, hreads, hsome⟩ := h.turns
  obtain ⟨⟨members, joins⟩, hturns⟩ := Option.isSome_iff_exists.mp hsome
  exact ⟨members, joins, h.closed, elements, hreads, hturns⟩

/-- **Conditions compose as text.** For proper texts, in outcome, fault and what is asked for:

* with a `|` between them, they are the first and, only if that is false, the second;
* between parentheses, a text is what it is without them;
* between parentheses each and with an `&` between them, they are the first and, only if that is
  true, the second;

the latter two as long as the parentheses push no group too deep. -/
theorem conditions_compose {s t : String} (hs : Proper s) (ht : Proper t) (source : Source) :
    let verdict (text : String) : Verdict := (Condition.read text).evaluate source
    (verdict (s ++ "|" ++ t) =
        (verdict s).andThen fun b => if b then .pure true else verdict t) ∧
      (Shallow ("(" ++ s ++ ")") → verdict ("(" ++ s ++ ")") = verdict s) ∧
      (Shallow ("(" ++ s ++ ")") → Shallow ("(" ++ t ++ ")") →
        verdict ("(" ++ s ++ ")&(" ++ t ++ ")") =
          (verdict s).andThen fun b => if b then verdict t else .pure false) := by
  intro verdict
  obtain ⟨members, joins, hs⟩ := hs.takesTurns
  obtain ⟨more, marks, ht⟩ := ht.takesTurns
  have hinside : ∀ text : String, ("(" ++ text ++ ")").toList = '(' :: (text.toList ++ [')']) := by
    intro text
    simp
  refine ⟨?_, fun hshallow => ?_, fun hshallow hshallow' => ?_⟩
  · have hboth : TakesTurns (s ++ "|" ++ t) (members ++ more) (joins ++ .or :: marks) :=
      hs.join ht (by simp [Join.mark])
    have hmore : more.map (·.evaluate source) ≠ [] := by
      have hlength := ht.length_eq
      rintro hnil
      simp [List.map_eq_nil_iff.mp hnil] at hlength
    simp only [verdict]
    rw [hboth.evaluate_eq, hs.evaluate_eq, ht.evaluate_eq, List.map_append,
      runs_append marks (by simpa using hs.length_eq) hmore, Verdict.anyOf_append]
  · simp only [verdict]
    rw [(hs.parentheses (hinside s) hshallow).evaluate_eq]
    exact (Verdict.anyOf_singleton _).trans (Verdict.allOf_singleton _)
  · have hboth : TakesTurns ("(" ++ s ++ ")&(" ++ t ++ ")")
        [Condition.read s, Condition.read t] [.and] :=
      (hs.parentheses (hinside s) hshallow).join (ht.parentheses (hinside t) hshallow')
        (by simp [Join.mark])
    simp only [verdict]
    rw [hboth.evaluate_eq]
    refine (Verdict.anyOf_singleton _).trans ?_
    rw [Verdict.allOf]
    congr 1
    funext b
    exact congrArg (fun v => if b then v else .pure false) (Verdict.allOf_singleton _)

theorem shallow_of_count {text : String} (h : (ofText text).count opening ≤ maxDepth) :
    Shallow text := by
  intro p hp
  have hle := hp.sublist.count_le opening
  omega

/-- The group `(B|)` is no condition, but it is not come to, so the whole holds. -/
theorem conditions_compose_degraded :
    let source : Source := fun _ => some (.number 5)
    Proper "A>1|(B|)" ∧ Proper "C>1" ∧ Shallow "(A>1|(B|))" ∧ Shallow "(C>1)" ∧
      (Condition.read "(A>1|(B|))&(C>1)").evaluate source = ⟨.ok true, ["A", "C"]⟩ := by
  intro source
  have hs : Proper "A>1|(B|)" := by
    have htext : ofText "A>1|(B|)" = [⟨'A', false⟩, ⟨'>', false⟩, ⟨'1', false⟩] ++ ofJoin .or ::
        opening :: (([⟨'B', false⟩] ++ [ofJoin .or]) ++ [closing]) := by decide
    refine ⟨(balanced_iff_openAfter _).mpr (by decide), by decide, ?_⟩
    rw [htext]
    exact ⟨_, .text (by simp) (by decide) (by decide)
      (.join (.group (.text (by simp) (by decide) (by decide) (.join .nil)) .nil)), rfl⟩
  have ht : Proper "C>1" := by
    have htext : ofText "C>1" = [⟨'C', false⟩, ⟨'>', false⟩, ⟨'1', false⟩] ++ [] := by decide
    refine ⟨(balanced_iff_openAfter _).mpr (by decide), by decide, ?_⟩
    rw [htext]
    exact ⟨_, .text (by simp) (by decide) (by decide) .nil, rfl⟩
  have hshallow : Shallow "(A>1|(B|))" := shallow_of_count (by decide)
  have hshallow' : Shallow "(C>1)" := shallow_of_count (by decide)
  have hverdict : (Condition.read "A>1|(B|)").evaluate source = ⟨.ok true, ["A"]⟩ := by rfl
  have hverdict' : (Condition.read "C>1").evaluate source = ⟨.ok true, ["C"]⟩ := by rfl
  have hboth := (conditions_compose hs ht source).2.2 hshallow hshallow'
  refine ⟨hs, ht, hshallow, hshallow', hboth.trans ?_⟩
  simp only [hverdict, hverdict']
  rfl

end LifePath
