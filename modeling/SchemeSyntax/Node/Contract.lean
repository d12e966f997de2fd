import SchemeSyntax.Node.Builder

namespace SchemeSyntax

/-- A value that is no node. -/
inductive Plain
  | nothing
  | boolean (value : Bool)
  | number (value : Int)
  | text (value : Text)
  deriving DecidableEq, Repr

/-- What a caller may put where a node belongs. -/
inductive Item
  | node (node : Node)
  | plain (value : Plain)

inductive ContractFault
  | element (item : Item)
  | tail (item : Item)
  | number (value : Plain)
  | symbol (value : Plain)
  | string (value : Plain)
  | unquotable (leaf : Leaf)

namespace ContractFault

def subject : ContractFault → Item
  | element item => item
  | tail item => item
  | number value => .plain value
  | symbol value => .plain value
  | string value => .plain value
  | unquotable leaf => .node leaf

def message : ContractFault → Text
  | element _ => "list elements must be syntax nodes"
  | tail _ => "the tail of an improper list must be a leaf"
  | number _ => "a number node holds an integer"
  | symbol _ => "a symbol node holds a symbol"
  | string _ => "a string node holds text"
  | unquotable leaf => "cannot quote " ++ leaf.kindName

end ContractFault

def Plain.isTrue : Plain → Bool
  | nothing => false
  | boolean value => value
  | number value => value ≠ 0
  | text value => !value.isEmpty

namespace Item

def asElement : Item → Except ContractFault Node
  | node n => .ok n
  | plain value => .error (.element (plain value))

/-- A list with nothing for its tail is proper. -/
def asTail : Item → Except ContractFault (Option Leaf)
  | plain .nothing => .ok none
  | node (.leaf leaf) => .ok (some leaf)
  | item => .error (.tail item)

end Item

inductive LeafKind
  | number
  | symbol
  | string
  | boolean
  deriving DecidableEq, Repr

/-- Every plain value makes a boolean leaf, and none makes a symbol leaf. -/
def Leaf.ofPlain : LeafKind → Plain → Except ContractFault Leaf
  | .number, .number value => .ok (.number value)
  | .number, value => .error (.number value)
  | .symbol, value => .error (.symbol value)
  | .string, .text value => .ok (.string value)
  | .string, value => .error (.string value)
  | .boolean, value => .ok (.boolean value.isTrue)

/-- Looks at the elements first, from left to right, and then at the tail. -/
def Node.ofItems (items : List Item) (tail : Item) : Except ContractFault Node := do
  let nodes ← items.mapM Item.asElement
  let tail ← tail.asTail
  return .list nodes tail

def Builder.pushItem (builder : Builder) (item : Item) : Except ContractFault Builder :=
  item.asElement.map builder.push

end SchemeSyntax
