import SchemeSyntax.Text.Numeral
import SchemeSyntax.Text.Printable

namespace SchemeSyntax

namespace Text

/-- Apostrophes stand around a quoted text, or double quotes where it holds an apostrophe and no
    double quote. -/
def quoteMark (t : Text) : CodePoint :=
  if CodePoint.apostrophe ∈ t && CodePoint.doubleQuote ∉ t then CodePoint.doubleQuote
  else CodePoint.apostrophe

/-- Writes an unprintable character by its number, in two, four or eight digits. -/
def quotedChar (mark c : CodePoint) : Text :=
  if c = mark || c = CodePoint.backslash then [CodePoint.backslash, c]
  else if c = '\t' then "\\t"
  else if c = CodePoint.newline then "\\n"
  else if c = '\r' then "\\r"
  else if c.isPrintable then [c]
  else if c.val < 0x100 then "\\x" ++ Numeral.hexDigits 2 c.val
  else if c.val < 0x10000 then "\\u" ++ Numeral.hexDigits 4 c.val
  else "\\U" ++ Numeral.hexDigits 8 c.val

def quoted (t : Text) : Text :=
  quoteMark t :: t.flatMap (quotedChar (quoteMark t)) ++ [quoteMark t]

end Text

end SchemeSyntax
