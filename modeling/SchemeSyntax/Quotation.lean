import SchemeSyntax.Datum.Basic
import SchemeSyntax.Node.Contract

namespace SchemeSyntax

/-- A symbol denotes its name alone, whatever its origin. -/
def Leaf.toAtom : Leaf → Except ContractFault Atom
  | number value => .ok (.number value)
  | symbol s => .ok (.symbol s.name)
  | string value => .ok (.string value)
  | boolean value => .ok (.boolean value)
  | unclassified value => .error (.unquotable (unclassified value))

namespace Node

def tailToAtom : Option Leaf → Except ContractFault Atom
  | none => .ok .null
  | some tail => tail.toAtom

mutual

/-- Works from the end to the front, so of several unquotable leaves the last is blamed. -/
def toDatum : Node → Except ContractFault Datum
  | leaf l => l.toAtom.map Datum.atom
  | list nodes tail => do chain nodes (← tailToAtom tail)

/-- The nodes as a chain of pairs in front of an atom. -/
def chain : List Node → Atom → Except ContractFault Datum
  | [], ending => .ok ending
  | node :: nodes, ending => do
    let rest ← chain nodes ending
    let first ← toDatum node
    return .pair first rest

end

end Node

end SchemeSyntax
