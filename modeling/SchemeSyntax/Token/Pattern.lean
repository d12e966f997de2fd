import SchemeSyntax.Text.CodePoint

namespace SchemeSyntax

/-- Regular expressions. `finish` takes nothing and asks for the end of the text. -/
inductive Pattern
  | empty
  | finish
  | one (accepts : CodePoint → Bool)
  | seq (first second : Pattern)
  | either (first second : Pattern)
  | many (once : Pattern)

namespace Pattern

/-- Goes on behind each of the takings. -/
def andThen (takings : List (Text × Text)) (next : Text → List (Text × Text)) :
    List (Text × Text) :=
  takings.flatMap fun first => (next first.2).map fun second => (first.1 ++ second.1, second.2)

/-- Goes on for another round before it stops. -/
def rounds (once : Text → List (Text × Text)) : Nat → Text → List (Text × Text)
  | 0, t => [([], t)]
  | n + 1, t => andThen (once t) (rounds once n) ++ [([], t)]

/-- All that the pattern can take from the front of a text, each with what it leaves, in the order
    in which a backtracking search comes upon them. A round that takes nothing changes nothing, so
    there are never more rounds than characters. -/
def takings : Pattern → Text → List (Text × Text)
  | empty, t => [([], t)]
  | finish, t => if t.isEmpty then [([], t)] else []
  | one _, [] => []
  | one accepts, c :: rest => if accepts c then [([c], rest)] else []
  | seq first second, t => andThen (first.takings t) second.takings
  | either first second, t => first.takings t ++ second.takings t
  | many once, t => rounds once.takings t.length t

/-- The taking that a search comes upon first. -/
def first? (pattern : Pattern) (t : Text) : Option Text := (pattern.takings t).head?.map Prod.fst

def optional (pattern : Pattern) : Pattern := either pattern empty

def atLeastOne (pattern : Pattern) : Pattern := seq pattern (many pattern)

def literal : Text → Pattern
  | [] => empty
  | c :: rest => seq (one (· = c)) (literal rest)

end Pattern

end SchemeSyntax
