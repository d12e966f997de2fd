import SchemeSyntax.Diagnostic
import SchemeSyntax.Proofs.Node.RoundTrip

namespace SchemeSyntax

def Leaf.isUnclassified : Leaf → Bool
  | unclassified _ => true
  | _ => false

/-- What a result is refused for. -/
def refused? {α : Type} : Except ContractFault α → Option ContractFault
  | .ok _ => none
  | .error fault => some fault

theorem refused?_eq_some_iff {α : Type} {result : Except ContractFault α} {fault : ContractFault} :
    refused? result = some fault ↔ result = .error fault := by
  cases result <;> simp [refused?]

namespace Leaf

/-- The last leaf of no kind, from left to right. -/
def lastUnclassified? (leaves : List Leaf) : Option Leaf := leaves.reverse.find? isUnclassified

theorem lastUnclassified?_append (leaves later : List Leaf) :
    lastUnclassified? (leaves ++ later) = (lastUnclassified? later).or (lastUnclassified? leaves) := by
  rw [lastUnclassified?, List.reverse_append, List.find?_append]
  rfl

theorem lastUnclassified?_eq_some_iff {leaves : List Leaf} {last : Leaf} :
    lastUnclassified? leaves = some last ↔ ∃ before after, leaves = before ++ last :: after ∧
      last.isUnclassified = true ∧ ∀ l ∈ after, l.isUnclassified = false := by
  rw [lastUnclassified?, List.find?_eq_some_iff_append]
  constructor
  · rintro ⟨found, behind, ahead, split, kinds⟩
    refine ⟨ahead.reverse, behind.reverse, ?_, found, ?_⟩
    · rw [← List.reverse_reverse leaves, split]
      simp
    · intro l member
      simpa using kinds l (List.mem_reverse.mp member)
  · rintro ⟨before, after, rfl, found, kinds⟩
    refine ⟨found, after.reverse, before.reverse, by simp, ?_⟩
    intro l member
    simpa using kinds l (List.mem_reverse.mp member)

/-- The fault of quoting leaves from the last to the first. -/
def blamed? (leaves : List Leaf) : Option ContractFault := (lastUnclassified? leaves).map .unquotable

theorem blamed?_append (leaves later : List Leaf) :
    blamed? (leaves ++ later) = (blamed? later).or (blamed? leaves) := by
  rw [blamed?, lastUnclassified?_append, Option.map_or]
  rfl

theorem refused?_toAtom (l : Leaf) : refused? l.toAtom = blamed? [l] := by
  cases l <;> rfl

end Leaf

namespace Node

theorem refused?_tailToAtom (tail : Option Leaf) : refused? (tailToAtom tail) = Leaf.blamed? tail.toList := by
  cases tail with
  | none => rfl
  | some last => exact Leaf.refused?_toAtom last

theorem refused?_chain {nodes : List Node} (each : ∀ node ∈ nodes, refused? node.toDatum = Leaf.blamed? node.leaves)
    (ending : Atom) : refused? (chain nodes ending) = Leaf.blamed? (leavesAll nodes) := by
  induction nodes with
  | nil => rfl
  | cons node nodes ih =>
    obtain ⟨head, others⟩ := List.forall_mem_cons.mp each
    rw [leavesAll, Leaf.blamed?_append, ← ih others, ← head, chain]
    cases chain nodes ending with
    | error fault => rfl
    | ok rest => cases node.toDatum <;> rfl

theorem refused?_toDatum (node : Node) : refused? node.toDatum = Leaf.blamed? node.leaves := by
  induction node with
  | leaf l =>
    rw [toDatum, leaves, ← Leaf.refused?_toAtom]
    cases l.toAtom <;> rfl
  | list nodes tail ih =>
    rw [toDatum, leaves, Leaf.blamed?_append, ← refused?_tailToAtom]
    cases tailToAtom tail with
    | error fault => rfl
    | ok ending => exact refused?_chain ih ending

theorem toDatum_eq_error_iff {node : Node} {fault : ContractFault} : node.toDatum = .error fault ↔
    ∃ last, Leaf.lastUnclassified? node.leaves = some last ∧ fault = .unquotable last := by
  rw [← refused?_eq_some_iff, refused?_toDatum, Leaf.blamed?, Option.map_eq_some_iff]
  simp only [eq_comm]

end Node

theorem Fault.diagnostic_unquotable {l : Leaf} (kindless : l.isUnclassified = true) :
    (contract (.unquotable l)).diagnostic = ⟨.contract, .item (.node l), "cannot quote syntax node"⟩ := by
  cases l with
  | unclassified value => rfl
  | number value => cases kindless
  | symbol s => cases kindless
  | string value => cases kindless
  | boolean value => cases kindless

/-- A tree cannot be quoted where it holds a leaf of no kind, among its elements or as a tail, at any depth.
    The last such leaf is blamed, in the order of the elements and with each tail behind them. A tree
    that was read can always be quoted. -/
theorem toDatum_unquotable :
    (∀ node : Node, (∃ fault, node.toDatum = .error fault) ↔ ∃ l ∈ node.leaves, l.isUnclassified = true) ∧
    (∀ (node : Node) fault, node.toDatum = .error fault → ∃ (before : List Leaf) (last : Leaf) (after : List Leaf),
      node.leaves = before ++ last :: after ∧ last.isUnclassified = true ∧
        (∀ l ∈ after, l.isUnclassified = false) ∧
          (Fault.contract fault).diagnostic = ⟨.contract, .item (.node last), "cannot quote syntax node"⟩) ∧
    ∀ {text fileName : Text} {nodes : List Node}, read text fileName = .ok nodes →
      ∀ node ∈ nodes, ∃ datum, node.toDatum = .ok datum := by
  refine ⟨?_, ?_, toDatum_of_read⟩
  · intro node
    constructor
    · rintro ⟨fault, refused⟩
      obtain ⟨last, found, rfl⟩ := Node.toDatum_eq_error_iff.mp refused
      exact ⟨last, List.mem_reverse.mp (List.mem_of_find?_eq_some found), List.find?_some found⟩
    · rintro ⟨l, member, kindless⟩
      obtain ⟨last, found⟩ : ∃ last, Leaf.lastUnclassified? node.leaves = some last :=
        Option.isSome_iff_exists.mp (List.find?_isSome.mpr ⟨l, List.mem_reverse.mpr member, kindless⟩)
      exact ⟨.unquotable last, Node.toDatum_eq_error_iff.mpr ⟨last, found, rfl⟩⟩
  · intro node fault refused
    obtain ⟨last, found, rfl⟩ := Node.toDatum_eq_error_iff.mp refused
    obtain ⟨before, after, split, kindless, kinds⟩ := Leaf.lastUnclassified?_eq_some_iff.mp found
    exact ⟨before, last, after, split, kindless, kinds, Fault.diagnostic_unquotable kindless⟩

theorem toDatum_unquotable_nested :
    let node : Node := .list [.leaf (.unclassified 1),
      .list [.leaf (.unclassified 2)] (some (.unclassified 3)), .leaf (.number 4)] (some (.boolean true))
    (∃ fault, node.toDatum = .error fault) ∧
    (∃ before after, node.leaves = before ++ .unclassified 3 :: after ∧
      ∀ l ∈ after, l.isUnclassified = false) ∧
    ∃ form, read "'a" "file" = .ok [form] ∧ ∃ datum, form.toDatum = .ok datum := by
  intro node
  obtain ⟨refuses, blames, accepts⟩ := toDatum_unquotable
  refine ⟨?_, ?_, ?_⟩
  · have member : Leaf.unclassified 1 ∈ node.leaves := List.mem_cons_self
    exact (refuses node).mpr ⟨_, member, rfl⟩
  · have refused : node.toDatum = .error (.unquotable (.unclassified 3)) := rfl
    obtain ⟨before, last, after, split, _, kinds, shown⟩ := blames node _ refused
    have same : Subject.item (.node (.leaf (.unclassified 3))) = .item (.node (.leaf last)) :=
      congrArg Diagnostic.subject shown
    cases same
    exact ⟨before, after, split, kinds⟩
  · have found : Text.lex "'a" = ⟨[⟨.quote, "'"⟩, ⟨.symbol, "a"⟩], none⟩ := by decide +kernel
    have accepted : read "'a" "file" = .ok [.quoted (.leaf (.symbol (.ofSpelling "a")))] :=
      read_of_lex found (.single (.quoted (.symbol _)))
    exact ⟨_, accepted, accepts accepted _ List.mem_cons_self⟩

end SchemeSyntax
