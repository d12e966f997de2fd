import SchemeSyntax.Node.Basic

namespace SchemeSyntax

structure CastFault where
  node : Node
  expected : Text

def CastFault.message (fault : CastFault) : Text :=
  "expected " ++ fault.expected ++ ", got " ++ fault.node.kindName

namespace Node

def asSymbol? : Node → Option Symbol
  | leaf (.symbol symbol) => some symbol
  | _ => none

def asList? (node : Node) : Option Node := if node.isList then some node else none

def asProperList? : Node → Option (List Node)
  | list nodes none => some nodes
  | _ => none

def cast {α : Type} (node : Node) (expected : Text) : Option α → Except CastFault α
  | some value => .ok value
  | none => .error ⟨node, expected⟩

def intoSymbol (node : Node) : Except CastFault Symbol := node.cast "a symbol" node.asSymbol?

def intoList (node : Node) : Except CastFault Node := node.cast "a list" node.asList?

def intoProperList (node : Node) : Except CastFault (List Node) :=
  node.cast "a proper list" node.asProperList?

/-- The elements of a list; a leaf has none. -/
def elements : Node → List Node
  | leaf _ => []
  | list nodes _ => nodes

/-- What ends a list: its tail, or the empty list. -/
def ending : Node → Node
  | list _ (some tail) => tail
  | _ => empty

end Node

end SchemeSyntax
