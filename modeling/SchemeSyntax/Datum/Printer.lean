import SchemeSyntax.Datum.Basic
import SchemeSyntax.Text.StringBody

namespace SchemeSyntax

def Atom.render : Atom → Text
  | null => "()"
  | boolean true => "#t"
  | boolean false => "#f"
  | number value => Numeral.ofInt value
  | string value =>
    CodePoint.doubleQuote :: StringBody.escapeToAscii value ++ [CodePoint.doubleQuote]
  | symbol name => name

namespace Datum

def quoteSymbol : Datum := Atom.symbol "quote"

mutual

/-- A quote mark abbreviates a list of the symbol quote and one element, and only that. -/
def render : Datum → Text
  | atom a => a.render
  | pair car (pair form (atom .null)) =>
    if car = quoteSymbol then CodePoint.apostrophe :: render form
    else CodePoint.leftParen :: render car ++ renderRest (pair form (atom .null))
  | pair car cdr => CodePoint.leftParen :: render car ++ renderRest cdr

def renderRest : Datum → Text
  | atom .null => [CodePoint.rightParen]
  | atom a => " . " ++ a.render ++ [CodePoint.rightParen]
  | pair car cdr => CodePoint.space :: render car ++ renderRest cdr

end

end Datum

end SchemeSyntax
