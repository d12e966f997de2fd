import SchemeSyntax.Datum.Comparison

namespace SchemeSyntax

/-- The objects that were made, each at its place. Of those that are handed out again for their values,
    the cache tells the places. -/
structure Store where
  objects : Array (Content Nat)
  cache : List (Atom × Nat)

namespace Store

def empty : Store := ⟨#[], []⟩

def add (store : Store) (content : Content Nat) : Nat × Store :=
  (store.objects.size, { store with objects := store.objects.push content })

/-- The object for an atom. It is made anew, unless it is shared and was made before. -/
def make (store : Store) (a : Atom) : Nat × Store :=
  if a.isShared then
    match store.cache.lookup a with
    | some object => (object, store)
    | none =>
      let made := store.add (.atom a)
      (made.1, { made.2 with cache := (a, made.1) :: made.2.cache })
  else store.add (.atom a)

def cons (store : Store) (car cdr : Nat) : Nat × Store := store.add (.pair car cdr)

/-- Makes the objects of a datum, its parts first. -/
def build (store : Store) : Datum → Nat × Store
  | .atom a => store.make a
  | .pair car cdr =>
    let first := store.build car
    let second := first.2.build cdr
    second.2.cons first.1 second.1

/-- What the object at a place stands for. A pair refers to objects that were made before it. -/
def datum (store : Store) (object : Nat) : Datum :=
  match store.objects[object]? with
  | some (.atom a) => a
  | some (.pair car cdr) =>
    if car < object ∧ cdr < object then .pair (store.datum car) (store.datum cdr) else Datum.null
  | none => Datum.null
termination_by object

end Store

end SchemeSyntax
