import SchemeSyntax.Datum.Basic
import SchemeSyntax.Node.Cast
import SchemeSyntax.Text.Quoted

namespace SchemeSyntax

/-- Requests that a value does not grant. -/
inductive Refusal
  | indexOutOfRange
  | indexTooLarge
  | immutableNode
  | immutableSymbol
  | changeablePair
  | noCoreSymbol (name : Text)
  deriving DecidableEq, Repr

def Refusal.message : Refusal → Text
  | indexOutOfRange => "tuple index out of range"
  | indexTooLarge => "cannot fit 'int' into an index-sized integer"
  | immutableNode => "syntax nodes are immutable"
  | immutableSymbol => "symbols are immutable"
  | changeablePair => "unhashable type: 'Pair'"
  | noCoreSymbol name => name.quoted ++ " is not a valid CoreSymbol"

/-- Any core symbol has its name here, an internal one as well. -/
def Symbol.ofCoreName (name : Text) : Except Refusal Symbol :=
  match CoreSymbol.ofName? name with
  | some c => .ok (.core c)
  | none => .error (.noCoreSymbol name)

/-- The element at an index, which is a signed number of 64 bits. A negative index counts from the
    end. -/
def Node.element (node : Node) (index : Int) : Except Refusal Node :=
  if index < -0x8000000000000000 || 0x8000000000000000 ≤ index then .error .indexTooLarge
  else
    match if index < 0 then index + node.elements.length else index with
    | .ofNat n => node.elements[n]?.elim (.error .indexOutOfRange) .ok
    | .negSucc _ => .error .indexOutOfRange

/-- The number of different values. A pair can change, so it cannot be counted among them. -/
def Datum.countDistinct (data : List Datum) : Except Refusal Nat :=
  if data.any isPair then .error .changeablePair else .ok data.eraseDups.length

end SchemeSyntax
