import SchemeSyntax.Proofs.Datum.Comparison
import SchemeSyntax.Proofs.Datum.Embedding
import SchemeSyntax.Proofs.Node.RoundTrip

namespace SchemeSyntax

namespace Leaf

/-- The leaf with nothing of a symbol but its printed name. -/
def named : Leaf → Leaf
  | symbol s => symbol (.defined s.name)
  | l => l

theorem toAtom_named (l : Leaf) : l.named.toAtom = l.toAtom := by
  cases l <;> rfl

theorem named_respelled (l : Leaf) : l.respelled.named = l.named := by
  cases l with
  | symbol s => rw [respelled, named, named, Symbol.name_ofSpelling]
  | number value => rfl
  | string value => rfl
  | boolean value => rfl
  | unclassified value => rfl

theorem toNode_of_toAtom {l : Leaf} {atom : Atom} (denotes : l.toAtom = .ok atom) :
    atom.toNode = l.respelled := by
  cases l with
  | unclassified value => cases denotes
  | number value => cases denotes; rfl
  | symbol s => cases denotes; rfl
  | string value => cases denotes; rfl
  | boolean value => cases denotes; rfl

end Leaf

namespace Node

def named (node : Node) : Node := node.map Leaf.named

mutual

/-- Puts the tail itself in the place of every list that has a tail but no elements. -/
def collapse : Node → Node
  | leaf l => leaf l
  | list [] (some tail) => leaf tail
  | list nodes tail => list (collapseAll nodes) tail

def collapseAll : List Node → List Node
  | [] => []
  | node :: nodes => collapse node :: collapseAll nodes

end

/-- A node stands within itself, and within each list that it stands within an element of. -/
inductive Within (inner : Node) : Node → Prop
  | self : Within inner inner
  | element {nodes : List Node} {tail : Option Leaf} {node : Node} (member : node ∈ nodes)
      (within : Within inner node) : Within inner (list nodes tail)

theorem Within.leaves {inner node : Node} (within : Within inner node) :
    ∀ l ∈ inner.leaves, l ∈ node.leaves := by
  induction within with
  | self => exact fun _ member => member
  | element element _ ih => exact fun l member => mem_leaves_list.mpr (.inl ⟨_, element, ih l member⟩)

/-- No list within the node has a tail but no elements. -/
def Uncollapsible (node : Node) : Prop := ∀ tail, ¬ Within (list [] (some tail)) node

theorem uncollapsible_list_iff {nodes : List Node} {tail : Option Leaf} :
    (list nodes tail).Uncollapsible ↔
      (∀ last, list nodes tail ≠ list [] (some last)) ∧ ∀ node ∈ nodes, node.Uncollapsible := by
  constructor
  · intro solid
    constructor
    · intro last same
      exact solid last (same ▸ .self)
    · intro node member last within
      exact solid last (.element member within)
  · rintro ⟨other, elements⟩ last within
    cases within with
    | self => exact other last rfl
    | element member within => exact elements _ member last within

theorem collapseAll_eq_map (nodes : List Node) : collapseAll nodes = nodes.map collapse := by
  induction nodes with
  | nil => rfl
  | cons node nodes ih => rw [collapseAll, List.map_cons, ih]

theorem collapse_list {nodes : List Node} {tail : Option Leaf}
    (solid : ∀ last, list nodes tail ≠ list [] (some last)) :
    (list nodes tail).collapse = list (nodes.map collapse) tail := by
  rw [collapse, collapseAll_eq_map]
  intro last single dotted
  subst single dotted
  exact solid last rfl

theorem collapse_prepend (first rest : Node) :
    (prepend first rest).collapse = prepend first.collapse rest.collapse := by
  cases rest with
  | leaf tail => rfl
  | list nodes tail =>
    cases nodes with
    | nil => cases tail <;> rfl
    | cons node nodes => rfl

theorem respelled_prepend (first rest : Node) :
    (prepend first rest).respelled = prepend first.respelled rest.respelled := by
  cases rest <;> rfl

theorem named_respelled (node : Node) : node.respelled.named = node.named := by
  rw [respelled, named, map_map]
  exact congrArg node.map (funext Leaf.named_respelled)

theorem toDatum_named (node : Node) : node.named.toDatum = node.toDatum :=
  toDatum_map Leaf.toAtom_named node

theorem toDatum_collapse (node : Node) : node.collapse.toDatum = node.toDatum := by
  induction node with
  | leaf l => rfl
  | list nodes tail ih =>
    by_cases dotted : ∃ last, list nodes tail = list [] (some last)
    · obtain ⟨last, same⟩ := dotted
      cases same
      rw [collapse, toDatum_nil_some]
    · rw [collapse_list (not_exists.mp dotted), toDatum, toDatum]
      simp only [chain_map ih]

theorem collapse_eq_self_iff (node : Node) : node.collapse = node ↔ node.Uncollapsible := by
  induction node with
  | leaf l => exact iff_of_true rfl nofun
  | list nodes tail ih =>
    have elements : nodes.map collapse = nodes ↔ ∀ node ∈ nodes, node.Uncollapsible := by
      rw [elements_eq_self_iff]
      exact forall₂_congr ih
    rw [uncollapsible_list_iff]
    by_cases dotted : ∃ last, list nodes tail = list [] (some last)
    · obtain ⟨last, same⟩ := dotted
      cases same
      exact iff_of_false nofun fun solid => solid.1 last rfl
    · have solid := not_exists.mp dotted
      simpa [collapse_list solid, elements] using fun _ => solid

/-- The embedding of what a tree denotes gives the tree back, but for the origins of symbols and
    for lists that are no more than their tails. -/
theorem toNode_of_toDatum {node : Node} {datum : Datum} (denotes : node.toDatum = .ok datum) :
    datum.toNode = node.collapse.respelled := by
  induction node generalizing datum with
  | leaf l =>
    obtain ⟨atom, same, rfl⟩ := toDatum_leaf_iff.mp denotes
    exact Leaf.toNode_of_toAtom same
  | list nodes tail ih =>
    obtain ⟨ending, last, inside⟩ := toDatum_list_iff.mp denotes
    clear denotes
    -- Along the elements: a list is its first element in front of what the rest of the chain embeds as.
    induction nodes generalizing datum with
    | nil =>
      cases inside
      cases tail with
      | none => cases last; rfl
      | some tail => exact Leaf.toNode_of_toAtom last
    | cons node nodes behind =>
      obtain ⟨head, others⟩ := List.forall_mem_cons.mp ih
      obtain ⟨car, cdr, first, later, rfl⟩ := chain_cons_iff.mp inside
      have rest := behind others later
      have whole : list (node :: nodes) tail = prepend node (list nodes tail) := rfl
      rw [Datum.toNode, head first, rest, whole, collapse_prepend, respelled_prepend]

instance : DecidablePred Uncollapsible := fun node =>
  decidable_of_iff (node.collapse = node) node.collapse_eq_self_iff

theorem toDatum_eq_iff {node other : Node} {datum value : Datum} (denotes : node.toDatum = .ok datum)
    (means : other.toDatum = .ok value) :
    datum = value ↔ node.collapse.named = other.collapse.named := by
  constructor
  · intro same
    have left := toNode_of_toDatum denotes
    have right := toNode_of_toDatum means
    have respelled : node.collapse.respelled = other.collapse.respelled := by
      rw [← left, ← right, same]
    rw [← named_respelled node.collapse, respelled, named_respelled]
  · intro same
    have alike : node.toDatum = other.toDatum := by
      rw [← toDatum_collapse node, ← toDatum_named, same, toDatum_named, toDatum_collapse]
    rw [denotes, means] at alike
    exact Except.ok.inj alike

theorem exists_toNode_of_isRead {node : Node} (leaves : ∀ l ∈ node.leaves, l.IsRead)
    (solid : node.Uncollapsible) : ∃ datum, node.toDatum = .ok datum ∧ datum.toNode = node := by
  have spellable : node.Spellable := fun l within => (leaves l within).1
  have kept : node.respelled = node :=
    (map_eq_self_iff Leaf.respelled node).mpr fun l within => (leaves l within).2
  obtain ⟨datum, denotes⟩ := spellable.toDatum
  have tree := toNode_of_toDatum denotes
  rw [node.collapse_eq_self_iff.mpr solid, kept] at tree
  exact ⟨datum, denotes, tree⟩

theorem exists_toNode_of_read {text fileName : Text} {nodes : List Node}
    (accepted : read text fileName = .ok nodes) {node : Node} (member : node ∈ nodes)
    (solid : node.Uncollapsible) : ∃ datum, node.toDatum = .ok datum ∧ datum.toNode = node :=
  exists_toNode_of_isRead (isRead_of_read accepted node member) solid

end Node

/-- Two trees denote the same datum exactly when they are the same tree but for the origins of
    symbols and for lists that are no more than their tails. -/
theorem same_toDatum_iff :
    (∀ {node other : Node} {datum value : Datum}, node.toDatum = .ok datum →
      other.toDatum = .ok value →
        (datum.same value = true ↔ node.collapse.named.same other.collapse.named = true)) ∧
    ∀ {text fileName otherText otherName : Text} {nodes others : List Node},
      read text fileName = .ok nodes → read otherText otherName = .ok others →
        ∀ node ∈ nodes, ∀ other ∈ others, node.Uncollapsible → other.Uncollapsible →
          ∃ datum value, node.toDatum = .ok datum ∧ other.toDatum = .ok value ∧
            (datum.same value = true ↔ node.same other = true) := by
  constructor
  · intro node other datum value denotes means
    rw [Datum.same_iff, Node.same_iff]
    exact Node.toDatum_eq_iff denotes means
  · intro text fileName otherText otherName nodes others accepted taken node member other element
      solid whole
    obtain ⟨datum, denotes, tree⟩ := Node.exists_toNode_of_read accepted member solid
    obtain ⟨value, means, second⟩ := Node.exists_toNode_of_read taken element whole
    refine ⟨datum, value, denotes, means, ?_⟩
    rw [Datum.same_iff, Node.same_iff]
    constructor
    · intro same
      rw [← tree, ← second, same]
    · intro same
      rw [same, means] at denotes
      exact Except.ok.inj denotes.symm

theorem same_toDatum_iff_generated :
    (∃ node other : Node, node.render = Text.ofString "(( . $temp$id41))" ∧
      other.render = Text.ofString "($temp$id41)" ∧ node.same other = false ∧
        ∃ datum value, node.toDatum = .ok datum ∧ other.toDatum = .ok value ∧
          datum.same value = true) ∧
    ∃ node other third : Node, read "(a . ('b))" "file" = .ok [node] ∧
      read "(a 'b) (a . b)" "file" = .ok [other, third] ∧
        (∃ datum value, node.toDatum = .ok datum ∧ other.toDatum = .ok value ∧
          datum.same value = true) ∧
        ∃ datum value, node.toDatum = .ok datum ∧ third.toDatum = .ok value ∧
          ¬ datum.same value = true := by
  obtain ⟨trees, accepted⟩ := same_toDatum_iff
  constructor
  · let node : Node := .list [.list [] (some (.symbol (.generated 41)))] none
    let other : Node := .list [.leaf (.symbol (.defined "$temp$id41"))] none
    have spellable : node.Spellable := by decide +kernel
    have printable : other.Spellable := by decide +kernel
    obtain ⟨datum, denotes⟩ := spellable.toDatum
    obtain ⟨value, means⟩ := printable.toDatum
    exact ⟨node, other, by decide +kernel, by decide +kernel, by decide +kernel, datum, value,
      denotes, means, (trees denotes means).mpr (by decide +kernel)⟩
  · have found : Text.lex "(a . ('b))" = ⟨[⟨.opening, "("⟩, ⟨.symbol, "a"⟩, ⟨.dot, "."⟩,
        ⟨.opening, "("⟩, ⟨.quote, "'"⟩, ⟨.symbol, "b"⟩, ⟨.closing, ")"⟩, ⟨.closing, ")"⟩],
        none⟩ := by decide +kernel
    have behind : Text.lex "(a 'b) (a . b)" = ⟨[⟨.opening, "("⟩, ⟨.symbol, "a"⟩, ⟨.quote, "'"⟩,
        ⟨.symbol, "b"⟩, ⟨.closing, ")"⟩, ⟨.opening, "("⟩, ⟨.symbol, "a"⟩, ⟨.dot, "."⟩,
        ⟨.symbol, "b"⟩, ⟨.closing, ")"⟩], none⟩ := by decide +kernel
    let a : Leaf := .symbol (.ofSpelling "a")
    let b : Leaf := .symbol (.ofSpelling "b")
    let node : Node := .list [a, .quoted b] none
    let third : Node := .list [a] (some b)
    have spliced : read "(a . ('b))" "file" = .ok [node] := read_of_lex found (.single
      (.spliced (.single (.symbol _)) (.list (.single (.quoted (.symbol _)))) nofun))
    have plain : read "(a 'b) (a . b)" "file" = .ok [node, third] := read_of_lex behind
      (.cons (.list (.cons (.symbol _) (.single (.quoted (.symbol _)))))
        (.single (.dotted (.single (.symbol _)) (.symbol _))))
    have solid : node.Uncollapsible := by decide +kernel
    have dotted : third.Uncollapsible := by decide +kernel
    obtain ⟨datum, value, denotes, means, same⟩ :=
      accepted spliced plain node (by simp) node (by simp) solid solid
    obtain ⟨first, second, holds, stands, other⟩ :=
      accepted spliced plain node (by simp) third (by simp) solid dotted
    refine ⟨node, node, third, spliced, plain, ?_, ?_⟩
    · exact ⟨datum, value, denotes, means, same.mpr (by decide +kernel)⟩
    · exact ⟨first, second, holds, stands, mt other.mp (by decide +kernel)⟩

end SchemeSyntax
