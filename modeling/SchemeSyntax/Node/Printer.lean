import SchemeSyntax.Node.Basic
import SchemeSyntax.Text.StringBody

namespace SchemeSyntax

/-- A leaf of no kind is shown as the object that it is. Where that lies in memory is left out. -/
def Leaf.render : Leaf → Text
  | number value => Numeral.ofInt value
  | symbol s => s.name
  | string value =>
    CodePoint.doubleQuote :: StringBody.escape value ++ [CodePoint.doubleQuote]
  | boolean true => "#t"
  | boolean false => "#f"
  | unclassified _ => "<PSyntax.Syntax.AstLeaf object>"

namespace Node

def renderTail : Option Leaf → Text
  | none => [CodePoint.rightParen]
  | some tail => " . " ++ tail.render ++ [CodePoint.rightParen]

mutual

/-- A quote mark abbreviates the proper list of the core quote symbol and one form, and only that. -/
def render : Node → Text
  | leaf l => l.render
  | list [leaf (.symbol (.core .quoteForm)), form] none => CodePoint.apostrophe :: render form
  | list [] tail => CodePoint.leftParen :: renderTail tail
  | list (node :: nodes) tail =>
    CodePoint.leftParen :: render node ++ renderRest nodes ++ renderTail tail

def renderRest : List Node → Text
  | [] => []
  | node :: nodes => CodePoint.space :: render node ++ renderRest nodes

end

end Node

end SchemeSyntax
