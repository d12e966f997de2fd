import SchemeSyntax.Text.CodePoint

namespace SchemeSyntax

inductive TokenKind
  | opening
  | closing
  | string
  | symbol
  | number
  | boolean
  | dot
  | quote
  deriving DecidableEq, Repr

def TokenKind.name : TokenKind → Text
  | .opening => "block-start"
  | .closing => "block-end"
  | .string => "string"
  | .symbol => "symbol"
  | .number => "number"
  | .boolean => "boolean"
  | .dot => "dot"
  | .quote => "quote"

/-- Where a piece of source text stands. The end column is exclusive. -/
structure Location where
  fileName : Text
  line : Text
  lineNo : Int
  colStart : Int
  colEnd : Int
  offset : Int
  deriving DecidableEq, Repr

structure Fragment where
  text : Text
  location : Option Location
  deriving DecidableEq, Repr

def Fragment.label (fragment : Fragment) : Text :=
  "<Fragment " ++ fragment.text ++ ">"

/-- The text of a string token is its body as written, without the quotes around it. -/
structure Token where
  kind : TokenKind
  text : Text
  location : Option Location
  deriving DecidableEq, Repr

namespace Token

def label (token : Token) : Text :=
  "<Token " ++ token.kind.name ++ " " ++ token.text ++ ">"

/-- Two tokens are the same when they agree on everything but their location. -/
def same (a b : Token) : Bool := a.kind = b.kind && a.text = b.text

def countDistinct (tokens : List Token) : Nat :=
  (tokens.map fun token => (token.kind, token.text)).eraseDups.length

def isTrue (token : Token) : Bool := token.text = "#t"

def value (token : Token) : Bool ⊕ Text :=
  if token.kind = .boolean then .inl token.isTrue else .inr token.text

end Token

end SchemeSyntax
