import SchemeSyntax.Datum.Chain

namespace SchemeSyntax.Datum

/-- Goes along a chain to its ending. What was made of the elements on the way comes along. -/
def walk {α : Type} (visit : α → Datum → α) : α → Datum → α × Datum
  | found, pair car cdr => walk visit (visit found car) cdr
  | found, atom ending => (found, atom ending)

/-- The elements in the order they are met, and the ending behind them unless it is the empty list. -/
def gather (chain : Datum) : List Datum :=
  let walked := walk (fun found element => found ++ [element]) [] chain
  if walked.2.isNull then walked.1 else walked.1 ++ [walked.2]

def count (chain : Datum) : Nat :=
  let walked := walk (fun found _ => found + 1) 0 chain
  if walked.2.isNull then walked.1 else walked.1 + 1

/-- The next element of an iteration, and what the iteration has still to give. -/
def next? : Datum → Option (Datum × Datum)
  | pair car cdr => some (car, cdr)
  | atom ending => if (atom ending).isNull then none else some (atom ending, null)

theorem length_of_next? {chain element rest : Datum} (found : chain.next? = some (element, rest)) :
    rest.length < chain.length := by
  cases chain with
  | pair car cdr =>
    cases found
    exact Nat.lt_succ_self _
  | atom ending =>
    rw [next?] at found
    split at found
    · cases found
    · next something =>
      cases found
      rw [(single_of_isNull (Bool.eq_false_iff.mpr something)).2]
      exact Nat.zero_lt_one

/-- Takes one element after another until the iteration stops. -/
def iterate (chain : Datum) : List Datum :=
  match _ : chain.next? with
  | none => []
  | some (element, rest) => element :: rest.iterate
termination_by chain.length
decreasing_by
  next found => exact length_of_next? found

/-- Chains data from the last to the first. An improper chain ends with the last of them. -/
def ofData (data : List Datum) (proper : Bool) : Datum :=
  if proper then data.foldr pair null
  else
    match data.getLast? with
    | none => null
    | some last => data.dropLast.foldr pair last

end SchemeSyntax.Datum
