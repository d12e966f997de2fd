import SchemeSyntax.Proofs.Node.Leaves

namespace SchemeSyntax

namespace CoreSymbol

theorem lookup?_name (core : CoreSymbol) :
    lookup? core.name = if core.isInternal then none else some core := by
  cases core <;> decide

theorem eq_name_of_lookup? {name : Text} {core : CoreSymbol} (found : lookup? name = some core) :
    name = core.name ∧ core.isInternal = false := by
  obtain ⟨listed, publicName⟩ := Option.filter_eq_some_iff.mp found
  have same : core.name = name := by simpa using List.find?_some listed
  exact ⟨same.symm, by simpa using publicName⟩

theorem spells_name (core : CoreSymbol) : TokenKind.symbol.Spells core.name := by
  rw [← Text.spellsSymbol_iff]
  cases core <;> decide

end CoreSymbol

namespace Symbol

theorem name_ofSpelling (spelling : Text) : (ofSpelling spelling).name = spelling := by
  unfold ofSpelling
  split
  · next found => exact (CoreSymbol.eq_name_of_lookup? found).1.symm
  · rfl

/-- Neither generated nor internal, and no public core symbol takes the name. -/
def Nameable : Symbol → Prop
  | core c => c.isInternal = false
  | generated _ => False
  | defined name => ∀ c : CoreSymbol, c.isInternal = false → name ≠ c.name

theorem ofSpelling_name_iff (symbol : Symbol) :
    ofSpelling symbol.name = symbol ↔ symbol.Nameable := by
  cases symbol with
  | core c =>
    have looked := CoreSymbol.lookup?_name c
    cases internal : c.isInternal <;> simp [ofSpelling, name, Nameable, looked, internal]
  | generated id =>
    have other : ofSpelling (generated id).name ≠ generated id := by
      intro same
      unfold ofSpelling at same
      split at same <;> cases same
    exact iff_of_false other not_false
  | defined spelling =>
    cases found : CoreSymbol.lookup? spelling with
    | some c =>
      obtain ⟨same, isPublic⟩ := CoreSymbol.eq_name_of_lookup? found
      have other : ofSpelling (defined spelling).name ≠ defined spelling := by
        simp [ofSpelling, name, found]
      exact iff_of_false other fun alone => alone c isPublic same
    | none =>
      have same : ofSpelling (defined spelling).name = defined spelling := by
        simp [ofSpelling, name, found]
      apply iff_of_true same
      intro c isPublic taken
      rw [taken, CoreSymbol.lookup?_name, isPublic] at found
      cases found

end Symbol

namespace Leaf

/-- The leaf that the printed leaf spells. A symbol keeps its name, but not always its origin. -/
def respelled : Leaf → Leaf
  | symbol s => symbol (.ofSpelling s.name)
  | l => l

def Spellable : Leaf → Prop
  | symbol s => TokenKind.symbol.Spells s.name
  | unclassified _ => False
  | _ => True

instance : DecidablePred Spellable
  | symbol s => decidable_of_iff (s.name.spellsSymbol = true) (Text.spellsSymbol_iff s.name)
  | unclassified _ => .isFalse nofun
  | number _ | string _ | boolean _ => .isTrue trivial

theorem toAtom_respelled (l : Leaf) : l.respelled.toAtom = l.toAtom := by
  cases l with
  | symbol s => rw [respelled, toAtom, Symbol.name_ofSpelling]; rfl
  | number value => rfl
  | string value => rfl
  | boolean value => rfl
  | unclassified value => rfl

theorem Spellable.toAtom {l : Leaf} (spellable : l.Spellable) : ∃ atom, l.toAtom = .ok atom := by
  cases l with
  | unclassified value => cases spellable
  | number value => exact ⟨_, rfl⟩
  | symbol s => exact ⟨_, rfl⟩
  | string value => exact ⟨_, rfl⟩
  | boolean value => exact ⟨_, rfl⟩

def Nameable : Leaf → Prop
  | symbol s => s.Nameable
  | _ => True

theorem respelled_eq_iff (l : Leaf) : l.respelled = l ↔ l.Nameable := by
  cases l with
  | symbol s =>
    have same := Symbol.ofSpelling_name_iff s
    simpa [respelled, Nameable] using same
  | number value => exact iff_of_true rfl trivial
  | string value => exact iff_of_true rfl trivial
  | boolean value => exact iff_of_true rfl trivial
  | unclassified value => exact iff_of_true rfl trivial

end Leaf

namespace Node

def respelled (node : Node) : Node := node.map Leaf.respelled

def Spellable (node : Node) : Prop := ∀ l ∈ node.leaves, l.Spellable

instance : DecidablePred Spellable := fun _ => inferInstanceAs (Decidable (∀ l ∈ _, _))

theorem Spellable.elements {nodes : List Node} {tail : Option Leaf}
    (spellable : (list nodes tail).Spellable) : ∀ node ∈ nodes, node.Spellable := by
  intro node member l within
  have inside : l ∈ (list nodes tail).leaves := mem_leaves_list.mpr (.inl ⟨node, member, within⟩)
  exact spellable l inside

theorem Spellable.tail {nodes : List Node} {tail : Leaf}
    (spellable : (list nodes (some tail)).Spellable) : tail.Spellable := by
  have inside : tail ∈ (list nodes (some tail)).leaves := mem_leaves_list.mpr (.inr rfl)
  exact spellable tail inside

theorem chain_map {f : Node → Node} {nodes : List Node}
    (each : ∀ node ∈ nodes, (f node).toDatum = node.toDatum) (ending : Atom) :
    chain (nodes.map f) ending = chain nodes ending := by
  induction nodes with
  | nil => rfl
  | cons node nodes ih =>
    obtain ⟨head, others⟩ := List.forall_mem_cons.mp each
    rw [List.map_cons, chain, chain, ih others, head]

theorem toDatum_map {f : Leaf → Leaf} (kept : ∀ l, (f l).toAtom = l.toAtom) (node : Node) :
    (node.map f).toDatum = node.toDatum := by
  induction node with
  | leaf l => rw [map, toDatum, toDatum, kept]
  | list nodes tail ih =>
    have ending : tailToAtom (tail.map f) = tailToAtom tail := by
      cases tail with
      | none => rfl
      | some tail => exact kept tail
    rw [map, mapAll_eq_map, toDatum, toDatum, ending]
    simp only [chain_map ih]

theorem toDatum_respelled (node : Node) : node.respelled.toDatum = node.toDatum :=
  toDatum_map Leaf.toAtom_respelled node

theorem toDatum_leaf_iff {l : Leaf} {datum : Datum} :
    (leaf l).toDatum = .ok datum ↔ ∃ atom, l.toAtom = .ok atom ∧ Datum.atom atom = datum := by
  rw [toDatum]
  cases l.toAtom <;> simp [Except.map]

theorem toDatum_list_iff {nodes : List Node} {tail : Option Leaf} {datum : Datum} :
    (list nodes tail).toDatum = .ok datum ↔
      ∃ ending, tailToAtom tail = .ok ending ∧ chain nodes ending = .ok datum := by
  rw [toDatum]
  cases tailToAtom tail <;> simp [bind, Except.bind]

theorem toDatum_nil_some (last : Leaf) : (list [] (some last)).toDatum = (leaf last).toDatum := by
  rw [toDatum, toDatum, tailToAtom]
  cases last.toAtom <;> rfl

theorem chain_cons_iff {first : Node} {nodes : List Node} {ending : Atom} {datum : Datum} :
    chain (first :: nodes) ending = .ok datum ↔ ∃ car cdr, first.toDatum = .ok car ∧
      chain nodes ending = .ok cdr ∧ Datum.pair car cdr = datum := by
  rw [chain]
  cases chain nodes ending <;> cases first.toDatum <;> simp [bind, Except.bind, pure, Except.pure]

theorem chain_cons {first : Node} {nodes : List Node} {ending : Atom} {car cdr : Datum}
    (head : first.toDatum = .ok car) (later : chain nodes ending = .ok cdr) :
    chain (first :: nodes) ending = .ok (.pair car cdr) :=
  chain_cons_iff.mpr ⟨car, cdr, head, later, rfl⟩

theorem exists_chain {nodes : List Node} (each : ∀ node ∈ nodes, ∃ datum, node.toDatum = .ok datum)
    (ending : Atom) : ∃ datum, chain nodes ending = .ok datum := by
  induction nodes with
  | nil => exact ⟨ending, rfl⟩
  | cons node nodes ih =>
    obtain ⟨⟨first, head⟩, others⟩ := List.forall_mem_cons.mp each
    obtain ⟨rest, later⟩ := ih others
    exact ⟨.pair first rest, chain_cons head later⟩

theorem Spellable.toDatum {node : Node} (spellable : node.Spellable) :
    ∃ datum, node.toDatum = .ok datum := by
  induction node with
  | leaf l =>
    obtain ⟨atom, same⟩ := (spellable l (List.mem_singleton_self l)).toAtom
    exact ⟨atom, toDatum_leaf_iff.mpr ⟨atom, same, rfl⟩⟩
  | list nodes tail ih =>
    have each := fun node member => ih node member (spellable.elements node member)
    have ending : ∃ atom, tailToAtom tail = .ok atom := by
      cases tail with
      | none => exact ⟨.null, rfl⟩
      | some tail => exact spellable.tail.toAtom
    obtain ⟨atom, same⟩ := ending
    obtain ⟨datum, whole⟩ := exists_chain each atom
    exact ⟨datum, toDatum_list_iff.mpr ⟨atom, same, whole⟩⟩

theorem respelled_eq_iff (node : Node) : node.respelled = node ↔ ∀ l ∈ node.leaves, l.Nameable := by
  rw [respelled, map_eq_self_iff]
  simp only [Leaf.respelled_eq_iff]

end Node

end SchemeSyntax
