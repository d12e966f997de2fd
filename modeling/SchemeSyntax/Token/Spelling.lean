import SchemeSyntax.Token.Basic

namespace SchemeSyntax

namespace CodePoint

def isSign (c : CodePoint) : Bool := c = '+' || c = hyphen

/-- What can end a number, a symbol, a boolean or a dot. -/
def isDelimiter (c : CodePoint) : Bool :=
  c.isSpace || c = semicolon || c = leftParen || c = rightParen || c = doubleQuote

def isInitial (c : CodePoint) : Bool :=
  c.isLetter || c ∈ Text.ofString "!$%&*/:<=>?^_~"

def isSubsequent (c : CodePoint) : Bool :=
  c.isInitial || c.isDigit || c = '+' || c = hyphen || c = '.' || c = '@'

end CodePoint

namespace Text

def isDigits (t : Text) : Bool := !t.isEmpty && t.all CodePoint.isDigit

def spellsNumber : Text → Bool
  | [] => false
  | c :: rest => if c.isSign then isDigits rest else isDigits (c :: rest)

def spellsSymbol : Text → Bool
  | [] => false
  | c :: rest =>
    c.isInitial && rest.all CodePoint.isSubsequent || c.isSign && rest.isEmpty ||
      c :: rest = ofString "..."

def spellsBoolean (t : Text) : Bool := t = ofString "#t" || t = ofString "#f"

def spellsDot (t : Text) : Bool := t = ofString "."

end Text

end SchemeSyntax
