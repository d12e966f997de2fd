import SchemeSyntax.Node.Contract
import SchemeSyntax.Proofs.Traversal

namespace SchemeSyntax

/-- What could be put together if nothing were checked: any value may be an element or a tail. -/
inductive Shape
  | plain (value : Plain)
  | leaf (leaf : Leaf)
  | list (elements : List Shape) (tail : Shape)

namespace Shape

/-- A list may end with nothing or with a leaf. -/
def Ends : Shape → Prop
  | plain .nothing | leaf _ => True
  | _ => False

/-- The elements of each list are nodes, and no list is the tail of a list. -/
inductive WellFormed : Shape → Prop
  | leaf (l : Leaf) : WellFormed (leaf l)
  | list {elements : List Shape} {tail : Shape} (each : ∀ element ∈ elements, WellFormed element)
      (ends : tail.Ends) : WellFormed (list elements tail)

def ofTail : Option Leaf → Shape
  | none => plain .nothing
  | some tail => leaf tail

theorem ends_ofTail (tail : Option Leaf) : (ofTail tail).Ends := by
  cases tail <;> exact trivial

theorem ofTail_injective {tail other : Option Leaf} (same : ofTail tail = ofTail other) : tail = other := by
  cases tail <;> cases other <;> cases same <;> rfl

end Shape

namespace Node

mutual

def shape : Node → Shape
  | leaf l => .leaf l
  | list nodes tail => .list (shapes nodes) (.ofTail tail)

def shapes : List Node → List Shape
  | [] => []
  | node :: nodes => shape node :: shapes nodes

end

theorem shapes_eq_map (nodes : List Node) : shapes nodes = nodes.map shape := by
  induction nodes with
  | nil => rfl
  | cons node nodes ih => rw [shapes, List.map_cons, ih]

theorem wellFormed_shape (node : Node) : node.shape.WellFormed := by
  induction node with
  | leaf l => exact .leaf l
  | list nodes tail ih =>
    rw [shape, shapes_eq_map]
    exact .list (List.forall_mem_map.mpr ih) (Shape.ends_ofTail tail)

theorem eq_of_map_shape {nodes others : List Node}
    (each : ∀ node ∈ nodes, ∀ {other : Node}, node.shape = other.shape → node = other)
    (same : nodes.map shape = others.map shape) : nodes = others := by
  induction nodes generalizing others with
  | nil => exact (List.map_eq_nil_iff.mp same.symm).symm
  | cons node nodes ih =>
    obtain ⟨other, rest, rfl, first, later⟩ := List.map_eq_cons_iff.mp same.symm
    obtain ⟨head, behind⟩ := List.forall_mem_cons.mp each
    rw [head first.symm, ih behind later.symm]

/-- The shape of a node determines it. -/
theorem shape_injective {node other : Node} (same : node.shape = other.shape) : node = other := by
  induction node generalizing other with
  | leaf l =>
    cases other with
    | leaf l' => exact congrArg leaf (Shape.leaf.inj same)
    | list nodes tail => cases same
  | list nodes tail ih =>
    cases other with
    | leaf l => cases same
    | list others ending =>
      rw [shape, shape, shapes_eq_map, shapes_eq_map] at same
      obtain ⟨elements, last⟩ := Shape.list.inj same
      rw [eq_of_map_shape ih elements, Shape.ofTail_injective last]

end Node

namespace Item

def shape : Item → Shape
  | node n => n.shape
  | plain value => .plain value

theorem asElement_eq_ok_iff {item : Item} {n : Node} : item.asElement = .ok n ↔ item = node n := by
  cases item <;> simp [asElement]

theorem asElement_eq_error_iff {item : Item} {fault : ContractFault} :
    item.asElement = .error fault ↔ ∃ value, item = plain value ∧ fault = .element (plain value) := by
  cases item <;> simp [asElement, eq_comm]

theorem asTail_of_ends {tail : Item} (ends : tail.shape.Ends) :
    ∃ ending, tail.asTail = .ok ending ∧ .ofTail ending = tail.shape := by
  cases tail with
  | plain value =>
    cases value with
    | nothing => exact ⟨none, rfl, rfl⟩
    | boolean value => cases ends
    | number value => cases ends
    | text value => cases ends
  | node n =>
    cases n with
    | leaf l => exact ⟨some l, rfl, rfl⟩
    | list nodes ending => cases ends

theorem asTail_of_not_ends {tail : Item} (refused : ¬ tail.shape.Ends) : tail.asTail = .error (.tail tail) := by
  cases tail with
  | plain value =>
    cases value with
    | nothing => exact absurd trivial refused
    | boolean value => rfl
    | number value => rfl
    | text value => rfl
  | node n =>
    cases n with
    | leaf l => exact absurd trivial refused
    | list nodes ending => rfl

end Item

/-- What becomes of elements and a tail: the list of them where that is well-formed. Otherwise the first
    element that is no node is refused, and the tail only where there is none. -/
inductive Composes : List Item → Item → Except ContractFault Node → Prop
  | formed {items : List Item} {tail : Item} {node : Node}
      (formed : (Shape.list (items.map Item.shape) tail.shape).WellFormed)
      (same : node.shape = .list (items.map Item.shape) tail.shape) : Composes items tail (.ok node)
  | element {before after : List Item} {value : Plain} {tail : Item}
      (nodes : ∀ item ∈ before, item.shape.WellFormed) :
      Composes (before ++ .plain value :: after) tail (.error (.element (.plain value)))
  | tail {items : List Item} {tail : Item} (nodes : ∀ item ∈ items, item.shape.WellFormed)
      (refused : ¬ tail.shape.Ends) : Composes items tail (.error (.tail tail))

theorem Composes.exists_of_wellFormed {items : List Item} {tail : Item} {outcome : Except ContractFault Node}
    (composes : Composes items tail outcome)
    (formed : (Shape.list (items.map Item.shape) tail.shape).WellFormed) :
    ∃ node, outcome = .ok node ∧ node.shape = .list (items.map Item.shape) tail.shape := by
  cases formed with
  | list each ends =>
    cases composes with
    | formed _ same => exact ⟨_, rfl, same⟩
    | @element before after value _ _ =>
      have member : Shape.plain value ∈ (before ++ .plain value :: after).map Item.shape :=
        List.mem_map.mpr ⟨.plain value, List.mem_append_right _ List.mem_cons_self, rfl⟩
      cases each _ member
    | tail _ refused => exact absurd ends refused

theorem nodes_of_mapM {items : List Item} {nodes : List Node} (accepted : items.mapM Item.asElement = .ok nodes) :
    items = nodes.map Item.node := by
  obtain ⟨pairs, rfl, rfl, each⟩ := exists_pairs_of_mapM accepted
  rw [List.map_map]
  exact List.map_congr_left fun pair member => Item.asElement_eq_ok_iff.mp (each pair member)

theorem wellFormed_of_mapM {items : List Item} {nodes : List Node}
    (accepted : items.mapM Item.asElement = .ok nodes) : ∀ item ∈ items, item.shape.WellFormed := by
  rw [nodes_of_mapM accepted]
  exact List.forall_mem_map.mpr fun node _ => node.wellFormed_shape

theorem composes_ofItems (items : List Item) (tail : Item) : Composes items tail (Node.ofItems items tail) := by
  unfold Node.ofItems
  cases visited : items.mapM Item.asElement with
  | error fault =>
    obtain ⟨before, item, after, nodes, rfl, accepted, refused⟩ := exists_first_of_mapM visited
    obtain ⟨value, rfl, rfl⟩ := Item.asElement_eq_error_iff.mp refused
    exact .element (wellFormed_of_mapM accepted)
  | ok nodes =>
    have formed := wellFormed_of_mapM visited
    by_cases ends : tail.shape.Ends
    · obtain ⟨ending, accepted, same⟩ := Item.asTail_of_ends ends
      simp only [accepted]
      refine .formed (.list (List.forall_mem_map.mpr formed) ends) ?_
      rw [Node.shape, Node.shapes_eq_map, same, nodes_of_mapM visited, List.map_map]
      rfl
    · simp only [Item.asTail_of_not_ends ends]
      exact .tail formed ends

end SchemeSyntax
