import SchemeSyntax.Text.CodePoint

namespace SchemeSyntax

inductive Atom
  | null
  | boolean (value : Bool)
  | number (value : Int)
  | string (value : Text)
  | symbol (name : Text)
  deriving DecidableEq, Repr

/-- The values that quoted forms denote. -/
inductive Datum
  | atom (atom : Atom)
  | pair (car cdr : Datum)
  deriving DecidableEq, Repr

instance : Coe Atom Datum := ⟨Datum.atom⟩

def Atom.typeName : Atom → Text
  | null => "a null list"
  | boolean _ => "a boolean value"
  | number _ => "an integer number"
  | string _ => "a string"
  | symbol _ => "a symbol"

/-- There is one object for each of these values; any other value is a new object each time. -/
def Atom.isShared : Atom → Bool
  | number value => 0 ≤ value && value < 256
  | string _ => false
  | _ => true

namespace Datum

def null : Datum := Atom.null

def typeName : Datum → Text
  | atom a => a.typeName
  | pair _ _ => "a pair"

def isNull : Datum → Bool
  | atom .null => true
  | _ => false

def isBoolean : Datum → Bool
  | atom (.boolean _) => true
  | _ => false

def isNumber : Datum → Bool
  | atom (.number _) => true
  | _ => false

def isString : Datum → Bool
  | atom (.string _) => true
  | _ => false

def isSymbol : Datum → Bool
  | atom (.symbol _) => true
  | _ => false

def isPair : Datum → Bool
  | pair _ _ => true
  | _ => false

/-- Compares two chains of pairs element by element and, where either ends, what is left of both. -/
def same : Datum → Datum → Bool
  | pair car cdr, pair otherCar otherCdr => same car otherCar && same cdr otherCdr
  | atom a, atom b => a = b
  | _, _ => false

/-- Tells whether two values made apart from each other are one object. -/
def identical : Datum → Datum → Bool
  | atom a, atom b => a = b && a.isShared
  | _, _ => false

end Datum

end SchemeSyntax
