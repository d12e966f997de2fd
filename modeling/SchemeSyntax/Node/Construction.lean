import SchemeSyntax.Node.Contract

namespace SchemeSyntax.Builder

inductive Step
  | reset
  | push (item : Item)
  | build
  | buildWithTail (node : Node)
  | list (items : List Item) (tail : Item)

inductive Answer
  | size (size : Nat)
  | node (node : Node)
  | refused (fault : ContractFault)
  | tailRefused (fault : TailFault)

namespace Answer

def ofContract : Except ContractFault Node → Answer
  | .ok built => node built
  | .error fault => refused fault

def ofTail : Except TailFault Node → Answer
  | .ok built => node built
  | .error fault => tailRefused fault

end Answer

/-- Only a reset and a push that succeeds change the builder. -/
def step (builder : Builder) : Step → Answer × Builder
  | .reset => (.size 0, empty)
  | .push item =>
    match builder.pushItem item with
    | .ok after => (.size after.size, after)
    | .error fault => (.refused fault, builder)
  | .build => (.node builder.build, builder)
  | .buildWithTail node => (.ofTail (builder.buildWithTail node), builder)
  | .list items tail => (.ofContract (Node.ofItems items tail), builder)

def run (builder : Builder) : List Step → List Answer × Builder
  | [] => ([], builder)
  | step :: steps =>
    let stepped := builder.step step
    let later := stepped.2.run steps
    (stepped.1 :: later.1, later.2)

end SchemeSyntax.Builder
