import SchemeSyntax.Symbol.Basic

namespace SchemeSyntax

/-- A leaf of no kind carries a number that nothing interprets. -/
inductive Leaf
  | number (value : Int)
  | symbol (symbol : Symbol)
  | string (value : Text)
  | boolean (value : Bool)
  | unclassified (value : Int)
  deriving DecidableEq, Repr

/-- The tail of an improper list is a leaf, never a list. -/
inductive Node
  | leaf (leaf : Leaf)
  | list (nodes : List Node) (tail : Option Leaf)
  deriving Repr

instance : Coe Leaf Node := ⟨Node.leaf⟩

namespace Leaf

def ofCore (core : CoreSymbol) : Leaf := symbol (.core core)

def kindName : Leaf → Text
  | number _ => "number"
  | symbol _ => "symbol"
  | string _ => "string"
  | boolean _ => "boolean"
  | unclassified _ => "syntax node"

end Leaf

namespace Node

@[induction_eliminator]
theorem induct {motive : Node → Prop} (leaf : ∀ leaf, motive (.leaf leaf))
    (list : ∀ nodes tail, (∀ node ∈ nodes, motive node) → motive (.list nodes tail)) (node : Node) :
    motive node :=
  Node.rec (motive_1 := motive) (motive_2 := fun nodes => ∀ node ∈ nodes, motive node) leaf
    (fun nodes tail each => list nodes tail each) (fun _ member => absurd member List.not_mem_nil)
    (fun _ _ head tail _ member => by
      rcases List.mem_cons.mp member with rfl | member
      · exact head
      · exact tail _ member) node

def empty : Node := list [] none

/-- The proper list that a quote mark in front of a form stands for. -/
def quoted (form : Node) : Node := list [Leaf.ofCore .quoteForm, form] none

def kindName : Node → Text
  | leaf l => l.kindName
  | list _ none => "proper list"
  | list _ (some _) => "improper list"

def isList : Node → Bool
  | list _ _ => true
  | _ => false

def isProperList : Node → Bool
  | list _ none => true
  | _ => false

def isImproperList : Node → Bool
  | list _ (some _) => true
  | _ => false

def isEmptyList : Node → Bool
  | list [] none => true
  | _ => false

def isNumber : Node → Bool
  | leaf (.number _) => true
  | _ => false

def isSymbol : Node → Bool
  | leaf (.symbol _) => true
  | _ => false

def isString : Node → Bool
  | leaf (.string _) => true
  | _ => false

def isBoolean : Node → Bool
  | leaf (.boolean _) => true
  | _ => false

mutual

def same : Node → Node → Bool
  | leaf a, leaf b => a = b
  | list nodes tail, list others ending => sameAll nodes others && tail = ending
  | _, _ => false

def sameAll : List Node → List Node → Bool
  | [], [] => true
  | node :: nodes, other :: others => same node other && sameAll nodes others
  | _, _ => false

end

theorem sameAll_iff {nodes : List Node}
    (each : ∀ node ∈ nodes, ∀ other, same node other = true ↔ node = other) (others : List Node) :
    sameAll nodes others = true ↔ nodes = others := by
  induction nodes generalizing others with
  | nil => cases others <;> simp [sameAll]
  | cons node nodes ih =>
    cases others with
    | nil => simp [sameAll]
    | cons other others =>
      have head := each node List.mem_cons_self other
      have tail := ih (fun _ member => each _ (List.mem_cons_of_mem _ member)) others
      simp [sameAll, head, tail]

theorem same_iff (a b : Node) : same a b = true ↔ a = b := by
  induction a generalizing b with
  | leaf l => cases b <;> simp [same]
  | list nodes tail ih =>
    cases b with
    | leaf l => simp [same]
    | list others ending => simp [same, sameAll_iff ih]

instance : DecidableEq Node := fun a b => decidable_of_iff _ (same_iff a b)

def countDistinct (nodes : List Node) : Nat := nodes.eraseDups.length

end Node

end SchemeSyntax
