import SchemeSyntax.Node.Basic

namespace SchemeSyntax

/-- An improper list was to be the whole of a list. -/
structure TailFault where
  nodes : List Node
  tail : Leaf

def TailFault.node (fault : TailFault) : Node := .list fault.nodes (some fault.tail)

def TailFault.message : Text := "an improper list cannot be the only tail of a list"

/-- The elements of a list whose ending is not known yet. -/
structure Builder where
  nodes : Array Node

namespace Builder

def empty : Builder := ⟨#[]⟩

def push (builder : Builder) (node : Node) : Builder := ⟨builder.nodes.push node⟩

def pushAll (builder : Builder) (nodes : List Node) : Builder := nodes.foldl push builder

def isEmpty (builder : Builder) : Bool := builder.nodes.isEmpty

def size (builder : Builder) : Nat := builder.nodes.size

def toList (builder : Builder) : List Node := builder.nodes.toList

def build (builder : Builder) : Node := .list builder.toList none

/-- Ends the list with a node behind the dot. A list has its elements appended and keeps its own
    ending; a leaf makes the whole improper. -/
def buildWithTail (builder : Builder) : Node → Except TailFault Node
  | .leaf tail => .ok (.list builder.toList (some tail))
  | .list nodes none => .ok (.list (builder.toList ++ nodes) none)
  | .list nodes (some tail) =>
    if builder.isEmpty then .error ⟨nodes, tail⟩
    else .ok (.list (builder.toList ++ nodes) (some tail))

@[simp]
theorem toList_empty : empty.toList = [] := rfl

@[simp]
theorem toList_push (builder : Builder) (node : Node) :
    (builder.push node).toList = builder.toList ++ [node] := Array.toList_push

@[simp]
theorem toList_pushAll (builder : Builder) (nodes : List Node) :
    (builder.pushAll nodes).toList = builder.toList ++ nodes := by
  induction nodes generalizing builder with
  | nil => simp [pushAll]
  | cons node nodes ih =>
    have later := ih (builder.push node)
    simpa [pushAll] using later

theorem isEmpty_iff (builder : Builder) : builder.isEmpty = true ↔ builder.toList = [] := by
  simp [isEmpty, toList]

end Builder

end SchemeSyntax
