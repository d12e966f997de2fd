import SchemeSyntax.Node.Cast
import SchemeSyntax.Proofs.Datum.Dotted
import SchemeSyntax.Proofs.Datum.Views

namespace SchemeSyntax

namespace Node

/-- The datum answers as the node does when it is asked what it is. A list without elements is the
    empty list, and any other list is a pair. -/
structure SameKind (node : Node) (datum : Datum) : Prop where
  number : datum.isNumber = node.isNumber
  string : datum.isString = node.isString
  boolean : datum.isBoolean = node.isBoolean
  symbol : datum.isSymbol = node.isSymbol
  null : datum.isNull = node.isEmptyList
  pair : datum.isPair = true ↔ node.isList = true ∧ node.elements ≠ []
  list : datum.isList = node.isProperList

theorem sameKind_leaf {l : Leaf} {atom : Atom} (denotes : l.toAtom = .ok atom) :
    SameKind (.leaf l) (.atom atom) := by
  cases l with
  | unclassified value => cases denotes
  | number value => cases denotes; exact ⟨rfl, rfl, rfl, rfl, rfl, by simp [Datum.isPair, isList], rfl⟩
  | symbol s => cases denotes; exact ⟨rfl, rfl, rfl, rfl, rfl, by simp [Datum.isPair, isList], rfl⟩
  | string value => cases denotes; exact ⟨rfl, rfl, rfl, rfl, rfl, by simp [Datum.isPair, isList], rfl⟩
  | boolean value => cases denotes; exact ⟨rfl, rfl, rfl, rfl, rfl, by simp [Datum.isPair, isList], rfl⟩

/-- A chain holds what its elements denote, in front of what ends it. -/
theorem exists_data_of_chain {nodes : List Node} {ending : Atom} {datum : Datum}
    (chained : chain nodes ending = .ok datum) :
    ∃ data, List.Forall₂ Denotes nodes data ∧ data.foldr Datum.pair ending = datum := by
  induction nodes generalizing datum with
  | nil =>
    cases chained
    exact ⟨[], .nil, rfl⟩
  | cons node nodes ih =>
    obtain ⟨car, cdr, first, later, rfl⟩ := chain_cons_iff.mp chained
    obtain ⟨data, each, rfl⟩ := ih later
    exact ⟨car :: data, .cons first each, rfl⟩

/-- The ending of a chain is one more element of it where a tail denotes it, and else none. -/
theorem views_of_tailToAtom {tail : Option Leaf} {ending : Atom} (last : tailToAtom tail = .ok ending) :
    (Datum.atom ending).isList = tail.isNone ∧
      List.Forall₂ Denotes (tail.map Node.leaf).toList (Datum.atom ending).toList ∧
        (Datum.atom ending).length = if tail.isSome then 1 else 0 := by
  cases tail with
  | none =>
    cases last
    exact ⟨rfl, .nil, rfl⟩
  | some l =>
    have denotes : (leaf l).Denotes ending := toDatum_leaf_iff.mpr ⟨ending, last, rfl⟩
    have single : (Datum.atom ending).toList = [Datum.atom ending] ∧ (Datum.atom ending).length = 1 :=
      Datum.single_of_isNull (sameKind_leaf last).null
    rw [single.1, single.2]
    exact ⟨(sameKind_leaf last).list, .cons denotes .nil, rfl⟩

theorem sameKind_list {nodes : List Node} {tail : Option Leaf} {ending : Atom} {data : List Datum}
    (solid : ∀ last, list nodes tail ≠ list [] (some last)) (each : List.Forall₂ Denotes nodes data)
    (last : tailToAtom tail = .ok ending) : SameKind (list nodes tail) (data.foldr Datum.pair ending) := by
  have proper : (data.foldr Datum.pair (Datum.atom ending)).isList = (list nodes tail).isProperList := by
    rw [Datum.isList_foldr, (views_of_tailToAtom last).1]
    cases tail <;> rfl
  cases each with
  | nil =>
    cases tail with
    | none =>
      cases last
      exact ⟨rfl, rfl, rfl, rfl, rfl, by simp [Datum.isPair, elements], proper⟩
    | some l => exact absurd rfl (solid l)
  | cons first others => exact ⟨rfl, rfl, rfl, rfl, rfl, by simp [Datum.isPair, isList, elements], proper⟩

end Node

/-- What a node denotes is of its kind, and has its shape and its length: a list becomes a chain of what
    its elements denote, and a tail one more element behind them. Only a list that is no more than its
    tail becomes something else, and that is what the tail denotes. -/
theorem toDatum_preserves :
    (∀ {node : Node} {datum : Datum}, node.toDatum = .ok datum →
      (∀ last, node ≠ .list [] (some last)) → node.SameKind datum ∧
        ∀ nodes tail, node = .list nodes tail →
          List.Forall₂ Node.Denotes (nodes ++ (tail.map Node.leaf).toList) datum.toList ∧
            datum.length = nodes.length + if node.isImproperList then 1 else 0) ∧
    ∀ last, (Node.list [] (some last)).toDatum = (Node.leaf last).toDatum := by
  refine ⟨?_, Node.toDatum_nil_some⟩
  intro node datum denotes solid
  cases node with
  | leaf l =>
    obtain ⟨atom, same, rfl⟩ := Node.toDatum_leaf_iff.mp denotes
    refine ⟨Node.sameKind_leaf same, ?_⟩
    intro nodes tail impossible
    cases impossible
  | list nodes tail =>
    obtain ⟨ending, last, chained⟩ := Node.toDatum_list_iff.mp denotes
    obtain ⟨data, each, rfl⟩ := Node.exists_data_of_chain chained
    obtain ⟨_, behind, length⟩ := Node.views_of_tailToAtom last
    refine ⟨Node.sameKind_list solid each last, ?_⟩
    intro others final same
    cases same
    rw [Datum.toList_foldr, Datum.length_foldr, length, each.length_eq]
    refine ⟨List.rel_append each behind, ?_⟩
    cases tail <;> rfl

theorem toDatum_preserves_improper :
    let node : Node := .list [.leaf (.number 1), .list [] (some (.string "a"))] (some (.boolean true))
    ∃ datum, node.toDatum = .ok datum ∧ node.SameKind datum ∧ datum.length = 3 ∧
      datum.toList = [.atom (.number 1), .atom (.string "a"), .atom (.boolean true)] := by
  intro node
  have denotes : node.toDatum = .ok (.pair (Atom.number 1) (.pair (Atom.string "a") (Atom.boolean true))) := rfl
  have solid : ∀ last, node ≠ .list [] (some last) := by
    intro last same
    cases (Node.list.inj same).1
  obtain ⟨kind, views⟩ := toDatum_preserves.1 denotes solid
  exact ⟨_, denotes, kind, (views _ _ rfl).2, rfl⟩

end SchemeSyntax
