import SchemeSyntax.Node.Construction

namespace SchemeSyntax

/-- A node as it is handed out: of a list, the place where its elements are, and its ending. -/
inductive Handle
  | leaf (leaf : Leaf)
  | list (place : Nat) (tail : Option Leaf)

/-- Sequences of nodes, each at its place. The builder appends to one of them. -/
structure Sequences where
  nodes : Array (Array Node)
  own : Nat

namespace Sequences

inductive Reply
  | size (size : Nat)
  | node (handle : Handle)
  | refused (fault : ContractFault)
  | tailRefused (fault : TailFault)

def start : Sequences := ⟨#[#[]], 0⟩

def get (memory : Sequences) (place : Nat) : Array Node := memory.nodes[place]?.getD #[]

def builder (memory : Sequences) : Builder := ⟨memory.get memory.own⟩

/-- A list takes a copy of the elements that it is made from. -/
def copy (memory : Sequences) : Node → Handle × Sequences
  | .leaf l => (.leaf l, memory)
  | .list nodes tail =>
    (.list memory.nodes.size tail, { memory with nodes := memory.nodes.push nodes.toArray })

def hand (memory : Sequences) (node : Node) : Reply × Sequences :=
  let copied := memory.copy node
  (.node copied.1, copied.2)

/-- A new builder has a sequence of its own, and a push writes to it where it is. -/
def step (memory : Sequences) : Builder.Step → Reply × Sequences
  | .reset => (.size 0, ⟨memory.nodes.push #[], memory.nodes.size⟩)
  | .push item =>
    match memory.builder.pushItem item with
    | .ok after =>
      (.size after.size, { memory with nodes := memory.nodes.setIfInBounds memory.own after.nodes })
    | .error fault => (.refused fault, memory)
  | .build => memory.hand memory.builder.build
  | .buildWithTail node =>
    match memory.builder.buildWithTail node with
    | .ok built => memory.hand built
    | .error fault => (.tailRefused fault, memory)
  | .list items tail =>
    match Node.ofItems items tail with
    | .ok built => memory.hand built
    | .error fault => (.refused fault, memory)

def run (memory : Sequences) : List Builder.Step → List Reply × Sequences
  | [] => ([], memory)
  | step :: steps =>
    let stepped := memory.step step
    let later := stepped.2.run steps
    (stepped.1 :: later.1, later.2)

end Sequences

/-- The node that a handle stands for now. -/
def Handle.seen (memory : Sequences) : Handle → Node
  | leaf l => .leaf l
  | list place tail => .list (memory.get place).toList tail

def Sequences.Reply.seen (memory : Sequences) : Reply → Builder.Answer
  | .size count => .size count
  | .node handle => .node (handle.seen memory)
  | .refused fault => .refused fault
  | .tailRefused fault => .tailRefused fault

end SchemeSyntax
