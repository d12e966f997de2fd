import SchemeSyntax.Datum.Basic

namespace SchemeSyntax

def Atom.sameValue : Atom → Atom → Bool
  | number value, number other => value = other
  | string value, string other => value = other
  | _, _ => false

/-- What one object holds. -/
inductive Content (Object : Type)
  | atom (atom : Atom)
  | pair (car cdr : Object)

/-- Objects and the data that they stand for. Different objects may stand for the same datum, but not
    where there is one object for a value. -/
structure Memory (Object : Type) where
  content : Object → Content Object
  datum : Object → Datum
  isOne : Object → Object → Bool
  datum_atom : ∀ {object : Object} {a : Atom}, content object = .atom a → datum object = .atom a
  datum_pair : ∀ {object car cdr : Object}, content object = .pair car cdr →
    datum object = .pair (datum car) (datum cdr)
  datum_of_isOne : ∀ {object other : Object}, isOne object other = true → datum object = datum other
  isOne_of_isShared : ∀ {object other : Object} {a : Atom}, content object = .atom a →
    content other = .atom a → a.isShared = true → isOne object other = true

namespace Memory

variable {Object : Type} (memory : Memory Object)

theorem parts_lt {memory : Memory Object} {object other car cdr otherCar otherCdr : Object}
    (found : memory.content object = .pair car cdr) (alike : memory.content other = .pair otherCar otherCdr) :
    sizeOf (memory.datum car) + sizeOf (memory.datum otherCar) <
        sizeOf (memory.datum object) + sizeOf (memory.datum other) ∧
      sizeOf (memory.datum cdr) + sizeOf (memory.datum otherCdr) <
        sizeOf (memory.datum object) + sizeOf (memory.datum other) := by
  rw [memory.datum_pair found, memory.datum_pair alike, Datum.pair.sizeOf_spec, Datum.pair.sizeOf_spec]
  omega

mutual

/-- An object is equal to itself. Numbers and strings are also equal where their values are. Of two pairs,
    the first elements are compared, and then what is behind them. -/
def equals (object other : Object) : Bool :=
  if memory.isOne object other then true
  else
    match _ : memory.content object, _ : memory.content other with
    | .atom a, .atom b => a.sameValue b
    | .pair car cdr, .pair otherCar otherCdr =>
      if differs otherCar car then false else equalsBehind cdr otherCdr
    | _, _ => false
termination_by (sizeOf (memory.datum object) + sizeOf (memory.datum other), 0)
decreasing_by
  · next found alike => exact .left _ _ (Nat.add_comm _ _ ▸ (parts_lt found alike).1)
  · next found alike _ => exact .left _ _ (parts_lt found alike).2

def differs (object other : Object) : Bool := !equals object other
termination_by (sizeOf (memory.datum object) + sizeOf (memory.datum other), 1)

/-- Walks along two chains and stops at elements that differ. Where either chain ends, what is left of
    both is compared. -/
def equalsBehind (rest otherRest : Object) : Bool :=
  match _ : memory.content rest, _ : memory.content otherRest with
  | .pair car cdr, .pair otherCar otherCdr =>
    if differs car otherCar then false else equalsBehind cdr otherCdr
  | _, _ => equals rest otherRest
termination_by (sizeOf (memory.datum rest) + sizeOf (memory.datum otherRest), 1)
decreasing_by
  · next found alike => exact .left _ _ (parts_lt found alike).1
  · next found alike _ => exact .left _ _ (parts_lt found alike).2
  · exact .right _ Nat.zero_lt_one

end

end Memory

namespace Datum

def content : Datum → Content Datum
  | atom a => .atom a
  | pair car cdr => .pair car cdr

theorem eq_atom_of_content {datum : Datum} {a : Atom} (found : datum.content = .atom a) : datum = atom a := by
  cases datum with
  | atom b => exact congrArg atom (Content.atom.inj found)
  | pair first behind => cases found

theorem eq_pair_of_content {datum car cdr : Datum} (found : datum.content = .pair car cdr) :
    datum = pair car cdr := by
  cases datum with
  | atom b => cases found
  | pair first behind =>
    obtain ⟨rfl, rfl⟩ := Content.pair.inj found
    rfl

theorem eq_of_identical {a b : Datum} (one : identical a b = true) : a = b := by
  unfold identical at one
  split at one
  · exact congrArg atom (of_decide_eq_true (Bool.and_eq_true_iff.mp one).1)
  · cases one

/-- Data as objects made apart from each other. -/
def apart : Memory Datum where
  content := content
  datum := id
  isOne := identical
  datum_atom := eq_atom_of_content
  datum_pair := eq_pair_of_content
  datum_of_isOne := eq_of_identical
  isOne_of_isShared := by
    intro object other a found alike shared
    rw [eq_atom_of_content found, eq_atom_of_content alike]
    exact Bool.and_eq_true_iff.mpr ⟨decide_eq_true rfl, shared⟩

def equals (a b : Datum) : Bool := apart.equals a b

def differs (a b : Datum) : Bool := apart.differs a b

end Datum

end SchemeSyntax
