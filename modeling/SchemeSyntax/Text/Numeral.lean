import SchemeSyntax.Text.CodePoint

namespace SchemeSyntax.Numeral

def digit (n : Nat) : CodePoint := ⟨48 + n % 10, by omega⟩

/-- The decimal digits of a number in front of a text. -/
def digitsBefore (n : Nat) (rest : Text) : Text :=
  if n < 10 then digit n :: rest else digitsBefore (n / 10) (digit n :: rest)
termination_by n

def ofNat (n : Nat) : Text := digitsBefore n []

def ofInt : Int → Text
  | .ofNat n => ofNat n
  | .negSucc n => CodePoint.hyphen :: ofNat (n + 1)

def natValue (digits : Text) : Nat :=
  digits.foldl (fun value c => 10 * value + (c.val - 48)) 0

/-- The number that an optional sign and decimal digits stand for. -/
def intValue : Text → Int
  | [] => 0
  | c :: digits =>
    if c = CodePoint.hyphen then -(natValue digits : Int)
    else if c = '+' then natValue digits
    else natValue (c :: digits)

def hexDigit (n : Nat) : CodePoint :=
  if n % 16 < 10 then ⟨48 + n % 16, by omega⟩ else ⟨87 + n % 16, by omega⟩

/-- The last `width` hexadecimal digits of a number, in lower case. -/
def hexDigits : Nat → Nat → Text
  | 0, _ => []
  | width + 1, n => hexDigits width (n / 16) ++ [hexDigit n]

def hexDigitValue (c : CodePoint) : Nat :=
  if c.isDigit then c.val - 48 else if c.val < 97 then c.val - 55 else c.val - 87

def hexValue (digits : Text) : Nat :=
  digits.foldl (fun value c => 16 * value + hexDigitValue c) 0

end SchemeSyntax.Numeral
