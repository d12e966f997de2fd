import SchemeSyntax.Proofs.Token.Spelling
import SchemeSyntax.Quotation

namespace SchemeSyntax

namespace Node

mutual

/-- The leaves from left to right, the tail of an improper list behind those of its elements. -/
def leaves : Node → List Leaf
  | leaf l => [l]
  | list nodes tail => leavesAll nodes ++ tail.toList

def leavesAll : List Node → List Leaf
  | [] => []
  | node :: nodes => leaves node ++ leavesAll nodes

end

mutual

def map (f : Leaf → Leaf) : Node → Node
  | leaf l => leaf (f l)
  | list nodes tail => list (mapAll f nodes) (tail.map f)

def mapAll (f : Leaf → Leaf) : List Node → List Node
  | [] => []
  | node :: nodes => map f node :: mapAll f nodes

end

theorem leavesAll_append (nodes others : List Node) :
    leavesAll (nodes ++ others) = leavesAll nodes ++ leavesAll others := by
  induction nodes with
  | nil => rfl
  | cons node nodes ih => rw [List.cons_append, leavesAll, leavesAll, ih, List.append_assoc]

theorem leavesAll_eq_flatMap (nodes : List Node) : leavesAll nodes = nodes.flatMap leaves := by
  induction nodes with
  | nil => rfl
  | cons node nodes ih => rw [leavesAll, List.flatMap_cons, ih]

theorem mem_leavesAll {nodes : List Node} {l : Leaf} :
    l ∈ leavesAll nodes ↔ ∃ node ∈ nodes, l ∈ node.leaves := by
  induction nodes with
  | nil => simp [leavesAll]
  | cons node nodes ih => simp [leavesAll, ih]

theorem mem_leaves_list {nodes : List Node} {tail : Option Leaf} {l : Leaf} :
    l ∈ (list nodes tail).leaves ↔ (∃ node ∈ nodes, l ∈ node.leaves) ∨ tail = some l := by
  rw [leaves, List.mem_append, mem_leavesAll, Option.mem_toList]

theorem leaves_quoted (form : Node) :
    (quoted form).leaves = Leaf.ofCore .quoteForm :: form.leaves := by
  simp [quoted, leaves, leavesAll]

theorem mapAll_eq_map (f : Leaf → Leaf) (nodes : List Node) : mapAll f nodes = nodes.map (map f) := by
  induction nodes with
  | nil => rfl
  | cons node nodes ih => rw [mapAll, List.map_cons, ih]

theorem map_map (f g : Leaf → Leaf) (node : Node) : (node.map f).map g = node.map (g ∘ f) := by
  induction node with
  | leaf l => rfl
  | list nodes tail ih =>
    have elements : nodes.map (map g ∘ map f) = nodes.map (map (g ∘ f)) := List.map_congr_left ih
    simp only [map, mapAll_eq_map, List.map_map, Option.map_map, elements]

theorem elements_eq_self_iff {f : Node → Node} {nodes : List Node} :
    nodes.map f = nodes ↔ ∀ node ∈ nodes, f node = node := by
  simpa only [List.map_id, id] using List.map_inj_left (l := nodes) (f := f) (g := id)

theorem map_eq_self_iff (f : Leaf → Leaf) (node : Node) :
    node.map f = node ↔ ∀ l ∈ node.leaves, f l = l := by
  induction node with
  | leaf l => simp [map, leaves]
  | list nodes tail ih =>
    have elements : mapAll f nodes = nodes ↔ ∀ node ∈ nodes, ∀ l ∈ node.leaves, f l = l := by
      rw [mapAll_eq_map, elements_eq_self_iff]
      constructor
      · intro kept node member
        exact (ih node member).mp (kept node member)
      · intro kept node member
        exact (ih node member).mpr (kept node member)
    have ending : tail.map f = tail ↔ ∀ l, tail = some l → f l = l := by
      cases tail <;> simp
    simp only [map, list.injEq, elements, ending, mem_leaves_list]
    constructor
    · intro kept l member
      obtain ⟨inside, last⟩ := kept
      rcases member with ⟨node, member, within⟩ | behind
      · exact inside node member l within
      · exact last l behind
    · intro kept
      constructor
      · intro node member l within
        exact kept l (.inl ⟨node, member, within⟩)
      · intro l behind
        exact kept l (.inr behind)

end Node

end SchemeSyntax
