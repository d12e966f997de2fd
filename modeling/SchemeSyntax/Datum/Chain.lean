import SchemeSyntax.Datum.Basic

namespace SchemeSyntax.Datum

def cars : Datum → List Datum
  | atom _ => []
  | pair car cdr => car :: cars cdr

/-- What stands behind the last pair of a chain. -/
def ending : Datum → Atom
  | atom a => a
  | pair _ cdr => ending cdr

def isList : Datum → Bool
  | atom .null => true
  | atom _ => false
  | pair _ cdr => isList cdr

/-- The elements of a chain, its ending among them unless that is the empty list. -/
def toList : Datum → List Datum
  | atom .null => []
  | atom a => [atom a]
  | pair car cdr => car :: toList cdr

def length : Datum → Nat
  | atom .null => 0
  | atom _ => 1
  | pair _ cdr => length cdr + 1

def ofList : List Datum → Datum
  | [] => null
  | d :: data => pair d (ofList data)

/-- A chain that ends with the last of the data. -/
def ofDotted : List Datum → Datum
  | [] => null
  | [d] => d
  | d :: data => pair d (ofDotted data)

theorem single_of_isNull {atom : Atom} (some : (Datum.atom atom).isNull = false) :
    (Datum.atom atom).toList = [Datum.atom atom] ∧ (Datum.atom atom).length = 1 := by
  cases atom with
  | null => cases some
  | boolean value => exact ⟨rfl, rfl⟩
  | number value => exact ⟨rfl, rfl⟩
  | string value => exact ⟨rfl, rfl⟩
  | symbol name => exact ⟨rfl, rfl⟩

end SchemeSyntax.Datum
