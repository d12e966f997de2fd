namespace SchemeSyntax

/-- Every number below 110000 hexadecimal is a code point, so a text can hold lone surrogates. -/
@[ext]
structure CodePoint where
  val : Nat
  val_lt : val < 0x110000
  deriving DecidableEq, Repr

abbrev Text := List CodePoint

namespace CodePoint

def ofChar (c : Char) : CodePoint :=
  ⟨c.toNat, by
    have valid := c.valid
    simp only [UInt32.isValidChar, Nat.isValidChar] at valid
    change c.val.toNat < 0x110000
    omega⟩

instance : Coe Char CodePoint := ⟨ofChar⟩

@[simp]
theorem val_ofChar (c : Char) : (ofChar c).val = c.toNat := rfl

def ofNat? (n : Nat) : Option CodePoint :=
  if bound : n < 0x110000 then some ⟨n, bound⟩ else none

/-- A surrogate is no character. -/
def toChar? (c : CodePoint) : Option Char :=
  if valid : c.val.isValidChar then some (Char.ofNatAux c.val valid) else none

def newline : CodePoint := '\n'

def backslash : CodePoint := '\\'

def doubleQuote : CodePoint := '\x22'

def apostrophe : CodePoint := '\x27'

def semicolon : CodePoint := ';'

def leftParen : CodePoint := '('

def rightParen : CodePoint := ')'

def space : CodePoint := ' '

def hyphen : CodePoint := '-'

/-- The white space of the lexical grammar is that of ASCII: U+0009 to U+000D and U+0020. -/
def isSpace (c : CodePoint) : Bool :=
  9 ≤ c.val && c.val ≤ 13 || c.val = 32

def isDigit (c : CodePoint) : Bool :=
  48 ≤ c.val && c.val ≤ 57

def isLetter (c : CodePoint) : Bool :=
  65 ≤ c.val && c.val ≤ 90 || 97 ≤ c.val && c.val ≤ 122

def isHexDigit (c : CodePoint) : Bool :=
  c.isDigit || 65 ≤ c.val && c.val ≤ 70 || 97 ≤ c.val && c.val ≤ 102

end CodePoint

namespace Text

def ofString (s : String) : Text := s.toList.map CodePoint.ofChar

instance : Coe String Text := ⟨ofString⟩

def toString? (t : Text) : Option String :=
  (t.mapM CodePoint.toChar?).map String.ofList

/-- The text up to the first newline, which is not part of the line. -/
def firstLine (t : Text) : Text :=
  t.takeWhile fun c => c ≠ CodePoint.newline

end Text

end SchemeSyntax
