import SchemeSyntax.Token.Source

namespace SchemeSyntax.Source

/-- One source with any number of named iterators over it. They share its position; an iterator
    that has stopped or failed stays finished. -/
structure Session (ι : Type) where
  source : Source
  finished : List ι

inductive Step (ι : Type)
  | scan
  | next (iterator : ι)
  | rest
  | state

inductive Answer
  | scanned (scan : Scan)
  | token (token : Token)
  | stop
  | tokens (tokens : List Token)
  | failed (fault : ScanFault)
  | state (source : Source)

variable {ι : Type} [DecidableEq ι]

namespace Session

def ofText (text : Text) (fileName : Text) : Session ι := ⟨.ofText text fileName, []⟩

def next (session : Session ι) (iterator : ι) : Answer × Session ι :=
  if iterator ∈ session.finished then (.stop, session)
  else
    match session.source.next with
    | (some token, after) => (.token token, { session with source := after })
    | (none, after) =>
      let answer := match after.fault with
        | none => .stop
        | some fault => .failed fault
      (answer, ⟨after, iterator :: session.finished⟩)

def step (session : Session ι) : Step ι → Answer × Session ι
  | .scan =>
    let scanned := session.source.scan
    (.scanned scanned.1, { session with source := scanned.2 })
  | .next iterator => session.next iterator
  | .rest =>
    let drained := session.source.drain
    let answer := match drained.2.fault with
      | none => .tokens drained.1
      | some fault => .failed fault
    (answer, { session with source := drained.2 })
  | .state => (.state session.source, session)

def run (session : Session ι) : List (Step ι) → List Answer × Session ι
  | [] => ([], session)
  | step :: steps =>
    let stepped := session.step step
    let later := stepped.2.run steps
    (stepped.1 :: later.1, later.2)

end Session

end SchemeSyntax.Source
