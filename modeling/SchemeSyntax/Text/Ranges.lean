import SchemeSyntax.Text.CodePoint

namespace SchemeSyntax

/-- A set of code points as closed ranges of their numbers. -/
abbrev Ranges := List (Nat × Nat)

namespace Ranges

def covers (ranges : Ranges) (c : CodePoint) : Bool :=
  ranges.any fun range => range.1 ≤ c.val && c.val ≤ range.2

/-- No range is empty, and each begins behind a gap after the one before it. -/
def ascending : Ranges → Bool
  | [] => true
  | [range] => range.1 ≤ range.2
  | range :: next :: rest => range.1 ≤ range.2 && range.2 + 1 < next.1 && ascending (next :: rest)

def size : Ranges → Nat
  | [] => 0
  | range :: rest => range.2 + 1 - range.1 + size rest

end Ranges

end SchemeSyntax
