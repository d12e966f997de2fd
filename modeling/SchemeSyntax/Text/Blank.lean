import SchemeSyntax.Text.CodePoint

namespace SchemeSyntax

/-- White space as Unicode has it, with the four ASCII information separators. -/
def CodePoint.isBlank (c : CodePoint) : Bool :=
  9 ≤ c.val && c.val ≤ 0x0D || 0x1C ≤ c.val && c.val ≤ 0x20 || c.val = 0x85 || c.val = 0xA0 ||
    c.val = 0x1680 || 0x2000 ≤ c.val && c.val ≤ 0x200A || c.val = 0x2028 || c.val = 0x2029 ||
    c.val = 0x202F || c.val = 0x205F || c.val = 0x3000

def Text.trimRight (t : Text) : Text :=
  (t.reverse.dropWhile CodePoint.isBlank).reverse

end SchemeSyntax
