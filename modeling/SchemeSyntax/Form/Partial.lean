import SchemeSyntax.Node.Builder
import SchemeSyntax.Text.StringBody
import SchemeSyntax.Token.Basic

namespace SchemeSyntax

inductive ReadCause
  | unterminatedList
  | nothingToQuote
  | unexpectedClosing
  | unexpectedDot
  | wrongPair
  | badEscape (fault : StringBody.EscapeFault)
  deriving DecidableEq, Repr

def ReadCause.message : ReadCause → Text
  | unterminatedList => "Unterminated list."
  | nothingToQuote => "Nothing to quote."
  | unexpectedClosing => "Unexpected \")\"."
  | unexpectedDot => "Unexpected \".\" outside of a list."
  | wrongPair => "Wrong pair format."
  | badEscape fault => fault.message

/-- Why tokens make no form, and the token to blame. -/
structure ReadFault where
  cause : ReadCause
  token : Token
  deriving DecidableEq, Repr

def ReadFault.message (fault : ReadFault) : Text := fault.cause.message

def Token.decodeString (token : Token) : Except ReadFault Text :=
  (StringBody.decode token.text).mapError fun fault => ⟨.badEscape fault, token⟩

/-- A construct whose next part has not been read yet. -/
inductive Opening
  | quote (mark : Token)
  | list (paren : Token) (elements : Builder)
  | tail (paren dot : Token) (elements : Builder)

/-- A form that is partly read, its innermost construct first. After a dotted tail only a closing
    parenthesis may follow. -/
inductive Partial
  | form (openings : List Opening)
  | closing (paren dot : Token) (elements : Builder) (tail : Node) (openings : List Opening)

/-- What one more token makes of a partial form. -/
inductive Progress
  | more (form : Partial)
  | done (node : Node)
  | wrong (fault : ReadFault)

namespace Partial

def start : Partial := form []

/-- Puts a finished form in its place. A quote mark takes one form, so it is finished with it. -/
def deliver : List Opening → Node → Progress
  | [], node => .done node
  | .quote _ :: outer, node => deliver outer (.quoted node)
  | .list paren elements :: outer, node => .more (form (.list paren (elements.push node) :: outer))
  | .tail paren dot elements :: outer, node => .more (closing paren dot elements node outer)

def close (openings : List Opening) (token : Token) : Progress :=
  match openings with
  | .list _ elements :: outer => deliver outer elements.build
  | .tail _ _ _ :: _ => .wrong ⟨.wrongPair, token⟩
  | _ => .wrong ⟨.unexpectedClosing, token⟩

def dot (openings : List Opening) (token : Token) : Progress :=
  match openings with
  | .list paren elements :: outer => .more (form (.tail paren token elements :: outer))
  | .tail _ _ _ :: _ => .wrong ⟨.wrongPair, token⟩
  | _ => .wrong ⟨.unexpectedDot, token⟩

def string (openings : List Opening) (token : Token) : Progress :=
  match token.decodeString with
  | .ok value => deliver openings (Leaf.string value)
  | .error fault => .wrong fault

def feed : Partial → Token → Progress
  | form openings, token =>
    match token.kind with
    | .opening => .more (form (.list token .empty :: openings))
    | .quote => .more (form (.quote token :: openings))
    | .number => deliver openings (Leaf.number (Numeral.intValue token.text))
    | .symbol => deliver openings (Leaf.symbol (.ofSpelling token.text))
    | .boolean => deliver openings (Leaf.boolean token.isTrue)
    | .string => string openings token
    | .closing => close openings token
    | .dot => dot openings token
  | closing _ dot elements tail openings, token =>
    if token.kind = .closing then
      match elements.buildWithTail tail with
      | .ok node => deliver openings node
      | .error _ => .wrong ⟨.wrongPair, dot⟩
    else .wrong ⟨.wrongPair, token⟩

/-- What is missing when the tokens run out. Between two forms nothing is. -/
def shortfall? : Partial → Option ReadFault
  | form [] => none
  | form (.quote mark :: _) => some ⟨.nothingToQuote, mark⟩
  | form (.list paren _ :: _) => some ⟨.unterminatedList, paren⟩
  | form (.tail paren _ _ :: _) => some ⟨.unterminatedList, paren⟩
  | closing paren _ _ _ _ => some ⟨.unterminatedList, paren⟩

end Partial

end SchemeSyntax
