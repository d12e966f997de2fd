import SchemeSyntax.Datum.Printer
import SchemeSyntax.Proofs.Node.Printing

namespace SchemeSyntax

namespace Node

/-- Puts a node in front of the elements of a list. A leaf becomes the tail of a new list. -/
def prepend (first : Node) : Node → Node
  | leaf tail => list [first] (some tail)
  | list nodes tail => list (first :: nodes) tail

theorem leaves_prepend (first rest : Node) :
    (prepend first rest).leaves = first.leaves ++ rest.leaves := by
  cases rest <;> simp [prepend, leaves, leavesAll]

theorem toDatum_prepend {first rest : Node} {car cdr : Datum} (head : first.toDatum = .ok car)
    (later : rest.toDatum = .ok cdr) : (prepend first rest).toDatum = .ok (.pair car cdr) := by
  cases rest with
  | leaf tail =>
    obtain ⟨atom, same, rfl⟩ := toDatum_leaf_iff.mp later
    exact toDatum_list_iff.mpr ⟨atom, same, chain_cons head rfl⟩
  | list nodes tail =>
    obtain ⟨ending, same, inside⟩ := toDatum_list_iff.mp later
    exact toDatum_list_iff.mpr ⟨ending, same, chain_cons head inside⟩

theorem toDatum_quoted {form : Node} {datum : Datum} (denotes : (quoted form).toDatum = .ok datum) :
    ∃ inner, datum = .pair Datum.quoteSymbol (.pair inner Datum.null) := by
  obtain ⟨ending, nothing, inside⟩ := toDatum_list_iff.mp denotes
  cases nothing
  cases inner : form.toDatum with
  | error fault =>
    simp only [chain, inner] at inside
    cases inside
  | ok value =>
    simp only [chain, inner] at inside
    cases inside
    exact ⟨value, rfl⟩

end Node

def Atom.toNode : Atom → Node
  | null => .empty
  | boolean value => Leaf.boolean value
  | number value => Leaf.number value
  | string value => Leaf.string value
  | symbol name => Leaf.symbol (.ofSpelling name)

def Atom.Spellable : Atom → Prop
  | symbol name => TokenKind.symbol.Spells name
  | _ => True

instance : DecidablePred Atom.Spellable
  | .symbol name => decidable_of_iff (name.spellsSymbol = true) (Text.spellsSymbol_iff name)
  | .null | .boolean _ | .number _ | .string _ => .isTrue trivial

namespace Datum

def toNode : Datum → Node
  | atom a => a.toNode
  | pair car cdr => car.toNode.prepend cdr.toNode

def Spellable : Datum → Prop
  | atom a => a.Spellable
  | pair car cdr => car.Spellable ∧ cdr.Spellable

instance decidableSpellable : DecidablePred Spellable
  | atom a => inferInstanceAs (Decidable a.Spellable)
  | pair car cdr => @instDecidableAnd _ _ (decidableSpellable car) (decidableSpellable cdr)

theorem toDatum_toNode (datum : Datum) : datum.toNode.toDatum = .ok datum := by
  induction datum with
  | atom a =>
    cases a with
    | symbol name =>
      have same := Symbol.name_ofSpelling name
      simp only [toNode, Atom.toNode, Node.toDatum, Leaf.toAtom, same]
      rfl
    | null => rfl
    | boolean value => rfl
    | number value => rfl
    | string value => rfl
  | pair car cdr head later => exact Node.toDatum_prepend head later

theorem Spellable.toNode {datum : Datum} (spellable : datum.Spellable) : datum.toNode.Spellable := by
  induction datum with
  | atom a =>
    intro l member
    cases a with
    | null => cases member
    | symbol name =>
      cases List.mem_singleton.mp member
      rwa [Leaf.Spellable, Symbol.name_ofSpelling]
    | boolean value =>
      cases List.mem_singleton.mp member
      trivial
    | number value =>
      cases List.mem_singleton.mp member
      trivial
    | string value =>
      cases List.mem_singleton.mp member
      trivial
  | pair car cdr head later =>
    intro l member
    rw [Datum.toNode, Node.leaves_prepend] at member
    rcases List.mem_append.mp member with member | member
    · exact head spellable.1 l member
    · exact later spellable.2 l member

end Datum

end SchemeSyntax
