/-!
# Classes of characters

A class is a list of closed ranges of code points. `Ranges.holds` looks a character up,
`Ranges.ascending` says that the ranges stand in order and apart, and `Ranges.size` counts the
code points they hold; wherever a long list is written down, both are stated of it.

A character is blank when it has the property White_Space, which is the same in every version of
Unicode since 6.3: tabs and line ends, the ordinary and the no-break space, and the wider
typographic spaces, but neither the zero-width space nor the information separators below the
space. `trim` takes blanks off both ends of a text, `trimLeft` and `trimRight` off one end each.

The decimal digits of every script are the general category Nd of Unicode 16. Each of their ranges
holds the digits zero to nine of one script, or of a few styles of one script side by side.
-/

namespace LifePath.Text

/-- Closed ranges of code points. -/
abbrev Ranges := List (Nat × Nat)

/-- Whether one of the ranges holds the character. -/
def Ranges.holds (ranges : Ranges) (c : Char) : Bool :=
  ranges.any fun r => r.1 ≤ c.toNat && c.toNat ≤ r.2

/-- Whether each range is sound and ends before the next begins. -/
def Ranges.ascending : Ranges → Bool
  | [] => true
  | [r] => r.1 ≤ r.2
  | r :: next :: rest => r.1 ≤ r.2 && r.2 < next.1 && Ranges.ascending (next :: rest)

/-- How many code points the ranges hold, provided they are apart. -/
def Ranges.size (ranges : Ranges) : Nat :=
  ranges.foldl (fun n r => n + (r.2 + 1 - r.1)) 0

/-- A range list holds a character exactly when one of its ranges spans the code point. -/
theorem Ranges.holds_eq_true_iff {ranges : Ranges} {c : Char} :
    ranges.holds c = true ↔ ∃ r ∈ ranges, r.1 ≤ c.toNat ∧ c.toNat ≤ r.2 := by
  simp [Ranges.holds]

/-! ## Blanks and trimming -/

/-- The property White_Space. -/
def blankRanges : Ranges :=
  [(0x09, 0x0D), (0x20, 0x20), (0x85, 0x85), (0xA0, 0xA0), (0x1680, 0x1680),
   (0x2000, 0x200A), (0x2028, 0x2029), (0x202F, 0x202F), (0x205F, 0x205F), (0x3000, 0x3000)]

example : blankRanges.ascending = true ∧ blankRanges.size = 25 := by decide

/-- Whether a character is white space. -/
def isBlank (c : Char) : Bool := blankRanges.holds c

/-- A text without the blanks it begins with. -/
def trimLeft (s : List Char) : List Char := s.dropWhile isBlank

/-- A text without the blanks it ends with. -/
def trimRight (s : List Char) : List Char := (s.reverse.dropWhile isBlank).reverse

/-- A text without the blanks at either end. -/
def trim (s : List Char) : List Char := trimRight (trimLeft s)

/-- Whether a text holds nothing but blanks. -/
def allBlank (s : List Char) : Bool := s.all isBlank

/-- Every character that core calls white space is blank. -/
theorem isBlank_of_isWhitespace {c : Char} (h : c.isWhitespace = true) : isBlank c = true := by
  simp only [Char.isWhitespace, Bool.or_eq_true, decide_eq_true_eq] at h
  rcases h with ((h | h) | h) | h <;> subst h <;> decide

/-! ## Decimal digits -/

/-- The general category Nd. -/
def decimalDigitRanges : Ranges :=
  [(0x0030, 0x0039), (0x0660, 0x0669), (0x06F0, 0x06F9), (0x07C0, 0x07C9), (0x0966, 0x096F),
   (0x09E6, 0x09EF), (0x0A66, 0x0A6F), (0x0AE6, 0x0AEF), (0x0B66, 0x0B6F), (0x0BE6, 0x0BEF),
   (0x0C66, 0x0C6F), (0x0CE6, 0x0CEF), (0x0D66, 0x0D6F), (0x0DE6, 0x0DEF), (0x0E50, 0x0E59),
   (0x0ED0, 0x0ED9), (0x0F20, 0x0F29), (0x1040, 0x1049), (0x1090, 0x1099), (0x17E0, 0x17E9),
   (0x1810, 0x1819), (0x1946, 0x194F), (0x19D0, 0x19D9), (0x1A80, 0x1A89), (0x1A90, 0x1A99),
   (0x1B50, 0x1B59), (0x1BB0, 0x1BB9), (0x1C40, 0x1C49), (0x1C50, 0x1C59), (0xA620, 0xA629),
   (0xA8D0, 0xA8D9), (0xA900, 0xA909), (0xA9D0, 0xA9D9), (0xA9F0, 0xA9F9), (0xAA50, 0xAA59),
   (0xABF0, 0xABF9), (0xFF10, 0xFF19), (0x104A0, 0x104A9), (0x10D30, 0x10D39), (0x10D40, 0x10D49),
   (0x11066, 0x1106F), (0x110F0, 0x110F9), (0x11136, 0x1113F), (0x111D0, 0x111D9),
   (0x112F0, 0x112F9), (0x11450, 0x11459), (0x114D0, 0x114D9), (0x11650, 0x11659),
   (0x116C0, 0x116C9), (0x116D0, 0x116E3), (0x11730, 0x11739), (0x118E0, 0x118E9),
   (0x11950, 0x11959), (0x11BF0, 0x11BF9), (0x11C50, 0x11C59), (0x11D50, 0x11D59),
   (0x11DA0, 0x11DA9), (0x11F50, 0x11F59), (0x16130, 0x16139), (0x16A60, 0x16A69),
   (0x16AC0, 0x16AC9), (0x16B50, 0x16B59), (0x16D70, 0x16D79), (0x1CCF0, 0x1CCF9),
   (0x1D7CE, 0x1D7FF), (0x1E140, 0x1E149), (0x1E2F0, 0x1E2F9), (0x1E4F0, 0x1E4F9),
   (0x1E5F1, 0x1E5FA), (0x1E950, 0x1E959), (0x1FBF0, 0x1FBF9)]

example : decimalDigitRanges.ascending = true ∧ decimalDigitRanges.size = 760 := by
  decide +kernel

/-- Whether a character is a decimal digit of some script. -/
def isDecimalDigit (c : Char) : Bool := decimalDigitRanges.holds c

/-- The ten digits that numerals are written with are decimal digits. -/
theorem isDecimalDigit_of_isDigit {c : Char} (h : c.isDigit = true) : isDecimalDigit c = true := by
  simp only [Char.isDigit, Bool.and_eq_true, decide_eq_true_eq] at h
  refine Ranges.holds_eq_true_iff.2 ⟨(0x30, 0x39), by simp [decimalDigitRanges], ?_, ?_⟩
  · exact UInt32.le_iff_toNat_le.1 h.1
  · exact UInt32.le_iff_toNat_le.1 h.2

end LifePath.Text
