import LifePath.Proofs.Condition.Grammar

/-!
# Reading follows the grammar

`Condition.read` strips a text, cuts it into tokens and goes through them once, with a frame for
each parenthesis that is open. Here this is tied to the recursion of `Reads`: going through the
tokens of a text that is read as a sequence does nothing but put the elements of that sequence and
their text into the innermost frame (`readTokens_of_reads`). What the frames further out hold does
not matter to it, nor do they change, so the induction is on the sequence alone.

A frame that began empty and took in a sequence closes to the reading of that sequence
(`Frame.close_of_elements`).
-/

namespace LifePath

open LifePath.Text (isBlank)

namespace Glyph

/-! ## Tokens -/

/-- The token that a character is by itself. -/
def token? (g : Glyph) : Option Token := if g.inList then none else Token.single? g.char

/-- The tokens of some characters. -/
def tokens : List Glyph → List Token
  | [] => []
  | g :: rest =>
    match g.token? with
    | some t => t :: tokens rest
    | none => Token.addChar g.char (tokens rest)

theorem token?_ofJoin (j : Join) : (ofJoin j).token? = some (.join j) := by cases j <;> rfl

/-- A sign is a token by itself, and not a text. -/
theorem token?_of_isSign {g : Glyph} (h : g.isSign = true) :
    ∃ t, g.token? = some t ∧ ∀ cs, t ≠ .text cs := by
  simp only [isSign, Bool.or_eq_true, decide_eq_true_eq] at h
  rcases h with ((rfl | rfl) | rfl) | rfl
  · exact ⟨.opening, rfl, by simp⟩
  · exact ⟨.closing, rfl, by simp⟩
  · exact ⟨.join .and, rfl, by simp⟩
  · exact ⟨.join .or, rfl, by simp⟩

/-- Only signs are tokens by themselves. -/
theorem token?_eq_none {g : Glyph} (h : g.isSign = false) : g.token? = none := by
  obtain ⟨c, inList⟩ := g
  cases inList with
  | true => rfl
  | false =>
    simp only [isSign, opening, closing, ofJoin, Join.mark, Bool.or_eq_false_iff,
      decide_eq_false_iff_not, Glyph.mk.injEq, and_true] at h
    obtain ⟨⟨⟨hopen, hclose⟩, hand⟩, hor⟩ := h
    simp [token?, Token.single?, hopen, hclose, hand, hor]

theorem stripBlanksFrom_cons (inList : Bool) (c : Char) (rest : List Char) :
    stripBlanksFrom inList (c :: rest) =
      if (⟨c, inList || c == '['⟩ : Glyph).isKept then
        c :: stripBlanksFrom (staysInList inList c) rest
      else stripBlanksFrom (staysInList inList c) rest := by
  have hclose : isBlank ']' = false := by decide
  rw [stripBlanksFrom]
  split
  · next hc =>
    subst hc
    cases inList <;> simp [isKept, staysInList]
  · next hne =>
    split
    · next hc =>
      subst hc
      cases inList <;> simp [isKept, staysInList, hclose]
    · next hne' =>
      have hopen : (c == '[') = false := by simpa using hne
      have hclose : (c != ']') = true := by simpa using hne'
      cases inList with
      | true => simp [isKept, staysInList, hclose]
      | false => cases hblank : isBlank c <;> simp [isKept, staysInList, hopen, hblank]

theorem scanFrom_cons (inList : Bool) (c : Char) (rest : List Char) :
    Token.scanFrom inList (c :: rest) =
      match (⟨c, inList || c == '['⟩ : Glyph).token? with
      | some t => t :: Token.scanFrom (staysInList inList c) rest
      | none => Token.addChar c (Token.scanFrom (staysInList inList c) rest) := by
  cases inList with
  | true => simp [Token.scanFrom, token?, staysInList]
  | false =>
    by_cases hc : c = '['
    · subst hc
      simp [Token.scanFrom, token?, staysInList, Token.single?]
    · have hopen : (c == '[') = false := by simpa using hc
      cases hsingle : Token.single? c <;>
        simp [Token.scanFrom, token?, staysInList, hopen, hsingle]

/-- A blank that is left out stands outside lists and begins none. -/
theorem staysInList_of_not_isKept {inList : Bool} {c : Char}
    (h : ¬ (⟨c, inList || c == '['⟩ : Glyph).isKept = true) : staysInList inList c = inList := by
  simp only [isKept, Bool.or_eq_true, Bool.not_eq_true', not_or, Bool.not_eq_false,
    Bool.not_eq_true] at h
  simp [staysInList, h.1.1, h.1.2]

/-- Stripping leaves the characters that mean something. -/
theorem map_char_ofChars (s : List Char) :
    ∀ inList, ((ofChars inList s).filter isKept).map char = stripBlanksFrom inList s := by
  induction s with
  | nil => intro inList; rfl
  | cons c rest ih =>
    intro inList
    rw [stripBlanksFrom_cons, ofChars, List.filter_cons]
    split
    · rw [List.map_cons, ih]
    · exact ih _

/-- Cutting the stripped text gives the tokens of the characters that mean something. -/
theorem tokens_ofChars (s : List Char) :
    ∀ inList, tokens ((ofChars inList s).filter isKept)
      = Token.scanFrom inList (stripBlanksFrom inList s) := by
  induction s with
  | nil => intro inList; rfl
  | cons c rest ih =>
    intro inList
    rw [stripBlanksFrom_cons, ofChars, List.filter_cons]
    split
    · rw [tokens, scanFrom_cons, ih]
    · next hblank =>
      rw [staysInList_of_not_isKept hblank]
      exact ih _

/-- A text that ends at a sign, or with the whole, is one token. -/
theorem tokens_append_text {chunk rest : List Glyph} (hne : chunk ≠ [])
    (hchunk : ∀ g ∈ chunk, g.isSign = false) (hrest : ∀ g ∈ rest.head?, g.isSign = true) :
    tokens (chunk ++ rest) = .text (chunk.map char) :: tokens rest := by
  induction chunk with
  | nil => exact absurd rfl hne
  | cons g chunk ih =>
    have hg : g.token? = none := token?_eq_none (hchunk g (List.mem_cons_self ..))
    have hchunk' : ∀ g ∈ chunk, g.isSign = false :=
      fun g' hg' => hchunk g' (List.mem_cons_of_mem _ hg')
    rw [List.cons_append, tokens, hg]
    cases chunk with
    | cons g' chunk =>
      rw [ih (by simp) hchunk']
      rfl
    | nil =>
      cases rest with
      | nil => rfl
      | cons g' rest =>
        obtain ⟨t, ht, htext⟩ := token?_of_isSign (hrest g' rfl)
        rw [List.nil_append, tokens, ht]
        cases t with
        | text cs => exact absurd rfl (htext cs)
        | join | opening | closing => rfl

end Glyph

namespace Frame

/-! ## Frames -/

/-- Takes in an element of a sequence, without its text. -/
def addElement (f : Frame) : Element → Frame
  | .member c => f.addMember c
  | .join j => f.addJoin j

/-- Takes in a sequence. -/
def addElements (f : Frame) (elements : List Element) : Frame := elements.foldl addElement f

variable {f : Frame}

theorem addElements_cons (e : Element) (elements : List Element) :
    f.addElements (e :: elements) = (f.addElement e).addElements elements := rfl

@[simp] theorem addText_nil : f.addText [] = f := by simp [addText]

@[simp] theorem addText_addText (cs ds : List Char) :
    (f.addText cs).addText ds = f.addText (cs ++ ds) := by
  simp [addText]

theorem addElement_addText (cs : List Char) (e : Element) :
    (f.addText cs).addElement e = (f.addElement e).addText cs := by
  cases hdeep : f.tooDeep <;> cases e <;> simp [addElement, addMember, addJoin, addText, hdeep]

/-- Text and elements are kept apart, so their order does not matter. -/
theorem addElements_addText (cs : List Char) (elements : List Element) :
    (f.addText cs).addElements elements = (f.addElements elements).addText cs := by
  induction elements generalizing f with
  | nil => rfl
  | cons e rest ih =>
    rw [addElements_cons, addElement_addText, ih, addElements_cons]

@[simp] theorem tooDeep_addElement (e : Element) : (f.addElement e).tooDeep = f.tooDeep := by
  cases e <;> simp only [addElement, addMember, addJoin] <;> split <;> rfl

@[simp] theorem tooDeep_addElements (elements : List Element) :
    (f.addElements elements).tooDeep = f.tooDeep := by
  induction elements generalizing f with
  | nil => rfl
  | cons e rest ih =>
    rw [addElements_cons, ih, tooDeep_addElement]

@[simp] theorem text_addElement (e : Element) : (f.addElement e).text = f.text := by
  cases e <;> simp only [addElement, addMember, addJoin] <;> split <;> rfl

@[simp] theorem text_addElements (elements : List Element) :
    (f.addElements elements).text = f.text := by
  induction elements generalizing f with
  | nil => rfl
  | cons e rest ih =>
    rw [addElements_cons, ih, text_addElement]

/-! ## Taking turns -/

/-- A frame that was broken stays broken. -/
theorem broken_addElements (hbroken : f.broken = true) (elements : List Element) :
    (f.addElements elements).broken = true := by
  induction elements generalizing f with
  | nil => exact hbroken
  | cons e rest ih =>
    have hstep : (f.addElement e).broken = true := by
      cases e <;> simp only [addElement, addMember, addJoin] <;> split <;> simp [hbroken]
    exact ih hstep

theorem wellFormed_of_broken (hbroken : f.broken = true) : f.wellFormed = false := by
  simp [wellFormed, hbroken]

/-- Taken in by a sound frame that expects a member, a sequence whose members and joins take turns
is kept in order, and any other makes the frame ill-formed unless it is empty. -/
theorem addElements_takeTurns :
    ∀ (elements : List Element) {f : Frame}, f.tooDeep = false → f.broken = false →
      f.joins.length = f.members.length →
      match takeTurns? elements with
      | some (members, joins) =>
        (f.addElements elements).broken = false ∧
          (f.addElements elements).members = f.members ++ members ∧
          (f.addElements elements).joins = f.joins ++ joins ∧ joins.length + 1 = members.length
      | none => elements = [] ∨ (f.addElements elements).wellFormed = false
  | [], _, _, _, _ => .inl rfl
  | [.member c], f, hdeep, hbroken, hlen => by
    simp [takeTurns?, addElements, addElement, addMember, hdeep, hbroken, hlen]
  | .member c :: .member c' :: rest, f, hdeep, hbroken, hlen => by
    -- two members without a join between them
    refine .inr (wellFormed_of_broken ?_)
    refine broken_addElements (f := (f.addMember c).addMember c') ?_ rest
    simp [addMember, hdeep, hlen]
  | .join j :: rest, f, hdeep, hbroken, hlen => by
    -- a join without a member in front of it
    refine .inr (wellFormed_of_broken ?_)
    refine broken_addElements (f := f.addJoin j) ?_ rest
    simp [addJoin, hdeep, hlen]
  | .member c :: .join j :: rest, f, hdeep, hbroken, hlen => by
    have ih := addElements_takeTurns rest (f := (f.addMember c).addJoin j)
      (by simp [addMember, addJoin, hdeep]) (by simp [addMember, addJoin, hdeep, hbroken, hlen])
      (by simp [addMember, addJoin, hdeep, hlen])
    have hadd : f.addElements (.member c :: .join j :: rest)
        = ((f.addMember c).addJoin j).addElements rest := rfl
    have hmembers : ((f.addMember c).addJoin j).members = f.members ++ [c] := by
      simp [addMember, addJoin, hdeep]
    have hjoins : ((f.addMember c).addJoin j).joins = f.joins ++ [j] := by
      simp [addMember, addJoin, hdeep]
    rw [hmembers, hjoins] at ih
    rw [takeTurns?, hadd]
    cases hturns : takeTurns? rest with
    | some p =>
      obtain ⟨members, joins⟩ := p
      rw [hturns] at ih
      simpa using ih
    | none =>
      rw [hturns] at ih
      rcases ih with rfl | hill
      · -- a join with nothing after it
        refine .inr ?_
        simp [wellFormed, addElements, addMember, addJoin, hdeep, hlen]
      · exact .inr hill

/-- A frame that is too deep or ill-formed closes to a leaf. -/
theorem close_eq_leaf (h : f.tooDeep = true ∨ f.wellFormed = false) :
    f.close = .leaf (String.ofList f.text) := by
  rcases h with h | h <;> simp [close, h]

theorem close_eq_ofTurns (hdeep : f.tooDeep = false) (hbroken : f.broken = false)
    (hlen : f.joins.length + 1 = f.members.length) :
    f.close = .ofTurns f.members f.joins := by
  have hwell : f.wellFormed = true := by simp [wellFormed, hbroken, hlen]
  rw [close, hdeep, hwell]
  match f.members with
  | [] | [_] | _ :: _ :: _ => rfl

/-- A frame that began empty and took in a sequence closes to the reading of the sequence, or to a
leaf if it is too deep. -/
theorem close_of_elements (text cs : List Char) (deep : Bool) (elements : List Element)
    (raw : List Glyph) (hraw : raw.map Glyph.char = text ++ cs) :
    (((start text deep).addElements elements).addText cs).close =
      if deep then .leaf (Glyph.text raw) else reading raw elements := by
  have htext : (((start text deep).addElements elements).addText cs).text = raw.map Glyph.char := by
    simp [addText, start, hraw]
  have hdeep : (((start text deep).addElements elements).addText cs).tooDeep = deep := by
    simp [addText, start]
  cases deep with
  | true =>
    rw [close_eq_leaf (.inl hdeep), htext]
    rfl
  | false =>
    have hturns := addElements_takeTurns elements (f := start text false) rfl rfl rfl
    cases htake : takeTurns? elements with
    | none =>
      rw [htake] at hturns
      rcases hturns with rfl | hill
      · rfl
      · have hne : elements ≠ [] := by
          rintro rfl
          cases hill
        have hill : (((start text false).addElements elements).addText cs).wellFormed = false := hill
        rw [close_eq_leaf (.inr hill), htext, if_neg (by decide),
          reading_of_takeTurns_eq_none hne htake]
        rfl
    | some p =>
      obtain ⟨members, joins⟩ := p
      rw [htake] at hturns
      obtain ⟨hbroken, hmembers, hjoins, hlen⟩ := hturns
      have hmembers : (((start text false).addElements elements).addText cs).members = members :=
        hmembers
      have hjoins : (((start text false).addElements elements).addText cs).joins = joins := hjoins
      rw [close_eq_ofTurns hdeep hbroken (by rw [hmembers, hjoins, hlen]), hmembers, hjoins,
        if_neg (by decide), reading_eq_ofTurns htake]

end Frame

/-! ## The tokens of a sequence -/

/-- **Reading a sequence.** Going through the tokens of what is read as a sequence puts its elements
and its text into the innermost frame, whatever frames stand around it. -/
theorem readTokens_of_reads {depth : Nat} {gs : List Glyph} {elements : List Element}
    (h : Reads depth gs elements) :
    ∀ (whole : List Char) (top : Frame) (below : List Frame) (more : List Glyph),
      below.length = depth → (∀ g ∈ more.head?, g.isSign = true) →
      readTokens whole top below (Glyph.tokens (gs ++ more)) =
        readTokens whole ((top.addElements elements).addText (gs.map Glyph.char)) below
          (Glyph.tokens more) := by
  induction h with
  | nil =>
    intro whole top below more hdepth hmore
    rw [List.nil_append, List.map_nil, Frame.addText_nil]
    rfl
  | @text depth chunk rest elements hne hchunk hrest _ ih =>
    intro whole top below more hdepth hmore
    have hrest' : ∀ g ∈ (rest ++ more).head?, g.isSign = true := by
      cases rest with
      | nil => exact hmore
      | cons g rest => exact hrest
    rw [List.append_assoc, Glyph.tokens_append_text hne hchunk hrest', readTokens,
      ih whole _ below more hdepth hmore, Frame.addElements_addText, Frame.addText_addText,
      List.map_append]
    rfl
  | @join depth j rest elements _ ih =>
    intro whole top below more hdepth hmore
    rw [List.cons_append, Glyph.tokens, Glyph.token?_ofJoin]
    show readTokens whole ((top.addJoin j).addText [j.mark]) below (Glyph.tokens (rest ++ more)) = _
    rw [ih whole _ below more hdepth hmore, Frame.addElements_addText, Frame.addText_addText]
    rfl
  | @group depth inner rest inside elements _ _ ihinner ih =>
    intro whole top below more hdepth hmore
    have hclosing : ∀ g ∈ (Glyph.closing :: (rest ++ more)).head?, g.isSign = true := by
      simp [Glyph.isSign]
    have hstart : decide (maxDepth ≤ below.length) = decide (64 < depth + 1) := by
      simp only [maxDepth, hdepth, Nat.lt_succ_iff]
    have hraw : (Glyph.opening :: (inner ++ [Glyph.closing])).map Glyph.char
        = ['('] ++ (inner.map Glyph.char ++ [')']) := by
      simp [Glyph.opening, Glyph.closing]
    -- the group has a frame of its own, which closes to its reading
    have hgroup := Frame.close_of_elements ['('] (inner.map Glyph.char ++ [')'])
      (decide (maxDepth ≤ below.length)) inside _ hraw
    rw [List.cons_append, List.append_assoc, List.cons_append, Glyph.tokens]
    show readTokens whole (.start ['('] (decide (maxDepth ≤ below.length))) (top :: below)
      (Glyph.tokens (inner ++ Glyph.closing :: (rest ++ more))) = _
    rw [ihinner whole _ (top :: below) _ (by simp [hdepth]) hclosing, Glyph.tokens]
    show readTokens whole ((top.addMember (Frame.close _)).addText (Frame.text _)) below
      (Glyph.tokens (rest ++ more)) = _
    rw [Frame.addText_addText, hgroup, ih whole _ below more hdepth hmore,
      Frame.addElements_addText, Frame.addText_addText]
    have hread : (if decide (maxDepth ≤ below.length) then
          .leaf (Glyph.text (Glyph.opening :: (inner ++ [Glyph.closing])))
        else reading (Glyph.opening :: (inner ++ [Glyph.closing])) inside)
        = groupReading (depth + 1) (Glyph.opening :: (inner ++ [Glyph.closing])) inside := by
      rw [groupReading, hstart]
      by_cases hdeep : depth + 1 ≤ 64
      · rw [if_pos hdeep, if_neg (by simp only [decide_eq_true_eq]; omega)]
      · rw [if_neg hdeep, if_pos (by simp only [decide_eq_true_eq]; omega)]
    have htext : (((Frame.start ['('] (decide (maxDepth ≤ below.length))).addElements inside).addText
          (inner.map Glyph.char ++ [')'])).text ++ rest.map Glyph.char
        = (Glyph.opening :: (inner ++ Glyph.closing :: rest)).map Glyph.char := by
      simp [Frame.addText, Frame.start, Glyph.opening, Glyph.closing]
    rw [hread, htext]
    rfl

/-! ## The parentheses of the tokens -/

/-- The number of parentheses that are open after some tokens if `n` are open before them; none if
one is closed that is not open. -/
def Token.openAfter (n : Nat) : List Token → Option Nat
  | [] => some n
  | .opening :: rest => openAfter (n + 1) rest
  | .closing :: rest =>
    match n with
    | 0 => none
    | n + 1 => openAfter n rest
  | .text _ :: rest => openAfter n rest
  | .join _ :: rest => openAfter n rest

theorem Token.openAfter_addChar (c : Char) (ts : List Token) (n : Nat) :
    openAfter n (addChar c ts) = openAfter n ts := by
  cases ts with
  | nil => rfl
  | cons t rest => cases t <;> rfl

theorem Glyph.openAfter_tokens (gs : List Glyph) :
    ∀ n, Token.openAfter n (tokens gs) = openAfter n gs := by
  induction gs with
  | nil => intro n; rfl
  | cons g rest ih =>
    intro n
    rw [tokens]
    by_cases hopen : g = opening
    · subst hopen
      rw [openAfter_opening, ← ih]
      rfl
    · by_cases hclose : g = closing
      · subst hclose
        cases n with
        | zero => rfl
        | succ n =>
          rw [openAfter_closing_succ, ← ih]
          rfl
      · rw [openAfter_other hopen hclose, ← ih]
        by_cases hsign : g.isSign = true
        · obtain ⟨j, rfl⟩ := exists_ofJoin_of_isSign hopen hclose hsign
          rw [token?_ofJoin]
          rfl
        · rw [token?_eq_none (by simpa using hsign)]
          exact Token.openAfter_addChar ..

/-- If the parentheses that are left do not match those that are open, the whole text is a leaf. -/
theorem readTokens_unbalanced (whole : List Char) :
    ∀ (ts : List Token) (top : Frame) (below : List Frame),
      Token.openAfter below.length ts ≠ some 0 →
      readTokens whole top below ts = .leaf (String.ofList whole) := by
  intro ts
  induction ts with
  | nil =>
    intro top below h
    have hne : below.isEmpty = false := by
      cases below with
      | nil => exact absurd rfl h
      | cons => rfl
    simp [readTokens, hne]
  | cons t rest ih =>
    intro top below h
    cases t with
    | text cs => exact ih _ below h
    | join j => exact ih _ below h
    | opening => exact ih _ (top :: below) h
    | closing =>
      cases below with
      | nil => rfl
      | cons parent below => exact ih _ below h

/-! ## Conditions -/

/-- What is read, in terms of the characters that mean something. -/
theorem read_eq_readTokens (text : String) :
    Condition.read text =
      readTokens ((Glyph.ofText text).map Glyph.char) (.start [] false) []
        (Glyph.tokens (Glyph.ofText text)) := by
  rw [Glyph.ofText, Glyph.map_char_ofChars, Glyph.tokens_ofChars]
  rfl

theorem read_of_reads {text : String} {elements : List Element}
    (h : Reads 0 (Glyph.ofText text) elements) :
    Condition.read text = reading (Glyph.ofText text) elements := by
  have hread := readTokens_of_reads h ((Glyph.ofText text).map Glyph.char) (.start [] false) [] []
    rfl (by simp)
  rw [List.append_nil] at hread
  rw [read_eq_readTokens, hread]
  exact Frame.close_of_elements [] _ false elements _ rfl

theorem read_of_not_balanced {text : String} (h : ¬ Glyph.Balanced (Glyph.ofText text)) :
    Condition.read text = .leaf (Glyph.text (Glyph.ofText text)) := by
  rw [Glyph.balanced_iff_openAfter, ← Glyph.openAfter_tokens] at h
  rw [read_eq_readTokens]
  exact readTokens_unbalanced _ _ _ [] h

/-- **Reading follows the grammar.** If the parentheses of a text, lists apart, do not balance, the
whole text without its blanks is one leaf. Otherwise the text can be read by the recursive grammar,
and whatever sequence it is read as, the condition is the reading of that sequence. -/
theorem read_follows_grammar (text : String) :
    (¬ Glyph.Balanced (Glyph.ofText text) →
        Condition.read text = .leaf (Glyph.text (Glyph.ofText text))) ∧
      (Glyph.Balanced (Glyph.ofText text) → ∃ elements, Reads 0 (Glyph.ofText text) elements) ∧
      ∀ elements, Reads 0 (Glyph.ofText text) elements →
        Condition.read text = reading (Glyph.ofText text) elements :=
  ⟨read_of_not_balanced, (Glyph.reads_iff_balanced _).mpr, fun _ => read_of_reads⟩

/-- A group that ends with a join is a leaf, and the group around it is read all the same. -/
example : Condition.read "A > 1 & (B < 2 |)" =
    .group [.leaf "A>1", .leaf "(B<2|)"] [.and] := by rfl

end LifePath
