import LifePath.Text.GraphemeExtend
import LifePath.Text.Unassigned

/-!
# Characters with a picture of their own

`hasPicture` says which characters a reader can see and tell apart when they stand alone. It
leaves out controls, format characters, every space but the ordinary one, the letters that Hangul
fills an empty place with, private and unassigned code points, and the marks that are drawn on
the character before them. The categories are those of Unicode 17.
-/

namespace LifePath.Text

/-- The general category Cc. -/
def controlRanges : Ranges := [(0x0000, 0x001F), (0x007F, 0x009F)]

/-- The general category Cf. -/
def formatRanges : Ranges :=
  [(0x00AD, 0x00AD), (0x0600, 0x0605), (0x061C, 0x061C), (0x06DD, 0x06DD), (0x070F, 0x070F),
   (0x0890, 0x0891), (0x08E2, 0x08E2), (0x180E, 0x180E), (0x200B, 0x200F), (0x202A, 0x202E),
   (0x2060, 0x2064), (0x2066, 0x206F), (0xFEFF, 0xFEFF), (0xFFF9, 0xFFFB), (0x110BD, 0x110BD),
   (0x110CD, 0x110CD), (0x13430, 0x1343F), (0x1BCA0, 0x1BCA3), (0x1D173, 0x1D17A),
   (0xE0001, 0xE0001), (0xE0020, 0xE007F)]

/-- The separators of the general categories Zs, Zl and Zp, without the ordinary space. -/
def wideSpaceRanges : Ranges :=
  [(0x00A0, 0x00A0), (0x1680, 0x1680), (0x2000, 0x200A), (0x2028, 0x2029), (0x202F, 0x202F),
   (0x205F, 0x205F), (0x3000, 0x3000)]

/-- The letters that are ignorable by default: they stand for an empty place in a syllable. -/
def fillerRanges : Ranges := [(0x115F, 0x1160), (0x3164, 0x3164), (0xFFA0, 0xFFA0)]

/-- The general category Co. -/
def privateUseRanges : Ranges :=
  [(0xE000, 0xF8FF), (0xF0000, 0xFFFFD), (0x100000, 0x10FFFD)]

example : formatRanges.ascending = true ∧ formatRanges.size = 170 := by decide +kernel

/-- Whether a character shows a picture of its own. -/
def hasPicture (c : Char) : Bool :=
  !(controlRanges.holds c || formatRanges.holds c || wideSpaceRanges.holds c ||
    fillerRanges.holds c || privateUseRanges.holds c || isGraphemeExtend c || isUnassigned c)

end LifePath.Text
