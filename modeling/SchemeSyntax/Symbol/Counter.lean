import SchemeSyntax.Symbol.Basic

namespace SchemeSyntax

/-- Where each named counter stands, the latest entry first. The default counter has no name.
    A counter without an entry stands at zero. -/
structure Counters where
  entries : List (Option Text × Int)
  deriving Repr

namespace Counters

def empty : Counters := ⟨[]⟩

def peek (counters : Counters) (counter : Option Text) : Int :=
  (counters.entries.lookup counter).getD 0

def put (counters : Counters) (counter : Option Text) (value : Int) : Counters :=
  ⟨(counter, value) :: counters.entries⟩

def take (counters : Counters) (counter : Option Text) : Int × Counters :=
  (counters.peek counter, counters.put counter (counters.peek counter + 1))

def fresh (counters : Counters) (counter : Option Text) : Symbol × Counters :=
  let taken := counters.take counter
  (.generated taken.1, taken.2)

theorem peek_put_self (counters : Counters) (counter : Option Text) (value : Int) :
    (counters.put counter value).peek counter = value := by
  simp [peek, put]

theorem peek_put_of_ne (counters : Counters) {counter other : Option Text} (value : Int)
    (different : other ≠ counter) : (counters.put counter value).peek other = counters.peek other := by
  simp only [peek, put, List.lookup_cons, beq_eq_false_iff_ne.mpr different]

end Counters

inductive CounterStep
  | create (counter : Text) (start : Int)
  | take (counter : Option Text)
  | peek (counter : Option Text)
  | fresh (counter : Option Text)
  | define (name : Text)
  | core (core : CoreSymbol)

inductive CounterAnswer
  | value (value : Int)
  | symbol (symbol : Symbol)
  deriving DecidableEq, Repr

namespace Counters

def step (counters : Counters) : CounterStep → CounterAnswer × Counters
  | .create counter start => (.value start, counters.put (some counter) start)
  | .take counter =>
    let taken := counters.take counter
    (.value taken.1, taken.2)
  | .peek counter => (.value (counters.peek counter), counters)
  | .fresh counter =>
    let made := counters.fresh counter
    (.symbol made.1, made.2)
  | .define name => (.symbol (.defined name), counters)
  | .core core => (.symbol (.core core), counters)

def run (counters : Counters) : List CounterStep → List CounterAnswer × Counters
  | [] => ([], counters)
  | step :: steps =>
    let stepped := counters.step step
    let later := stepped.2.run steps
    (stepped.1 :: later.1, later.2)

end Counters

end SchemeSyntax
