import SchemeSyntax.Text.Blank
import SchemeSyntax.Text.Unassigned

namespace SchemeSyntax

/-- The format characters of Unicode 14.0, which have no shape of their own. -/
def Ranges.format : Ranges :=
  [(0xAD, 0xAD), (0x600, 0x605), (0x61C, 0x61C), (0x6DD, 0x6DD), (0x70F, 0x70F), (0x890, 0x891),
    (0x8E2, 0x8E2), (0x180E, 0x180E), (0x200B, 0x200F), (0x202A, 0x202E), (0x2060, 0x2064),
    (0x2066, 0x206F), (0xFEFF, 0xFEFF), (0xFFF9, 0xFFFB), (0x110BD, 0x110BD), (0x110CD, 0x110CD),
    (0x13430, 0x13438), (0x1BCA0, 0x1BCA3), (0x1D173, 0x1D17A), (0xE0001, 0xE0001),
    (0xE0020, 0xE007F)]

example : Ranges.format.ascending = true := by decide

example : Ranges.format.size = 163 := by decide

namespace CodePoint

def isControl (c : CodePoint) : Bool := c.val < 0x20 || 0x7F ≤ c.val && c.val < 0xA0

def isSurrogate (c : CodePoint) : Bool := 0xD800 ≤ c.val && c.val ≤ 0xDFFF

def isPrivateUse (c : CodePoint) : Bool :=
  0xE000 ≤ c.val && c.val ≤ 0xF8FF || 0xF0000 ≤ c.val && c.val ≤ 0xFFFFD ||
    0x100000 ≤ c.val && c.val ≤ 0x10FFFD

/-- What has a shape of its own. Of the blanks only the space counts as printable. -/
def isPrintable (c : CodePoint) : Bool :=
  c = space ||
    !(c.isControl || c.isBlank || c.isSurrogate || c.isPrivateUse || Ranges.format.covers c ||
      Ranges.unassigned.covers c)

end CodePoint

end SchemeSyntax
