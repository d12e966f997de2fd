import SchemeSyntax.Form.Stream

namespace SchemeSyntax.TokenStream

/-- One token stream with any number of named readers of forms. A reader that has stopped or failed
    stays finished. -/
structure Session (ι : Type) where
  stream : TokenStream
  finished : List ι

inductive Step (ι : Type)
  | next (reader : ι)
  | token
  | rest
  | program

inductive Answer
  | node (node : Node)
  | token (token : Token)
  | stop
  | nodes (nodes : List Node)
  | failed (fault : SourceFault)

def take (stream : TokenStream) : Answer × TokenStream :=
  match stream.tokens, stream.fault with
  | token :: rest, _ => (.token token, { stream with tokens := rest })
  | [], some fault => (.failed (.scan fault), ended)
  | [], none => (.stop, ended)

namespace Session

variable {ι : Type} [DecidableEq ι]

def ofText (text : Text) (fileName : Text) : Session ι := ⟨.ofText text fileName, []⟩

def next (session : Session ι) (reader : ι) : Answer × Session ι :=
  if reader ∈ session.finished then (.stop, session)
  else
    match session.stream.readForm with
    | (.form node, after) => (.node node, { session with stream := after })
    | (.finished, after) => (.stop, ⟨after, reader :: session.finished⟩)
    | (.failed fault, after) => (.failed fault, ⟨after, reader :: session.finished⟩)

def step (session : Session ι) : Step ι → Answer × Session ι
  | .next reader => session.next reader
  | .token =>
    let taken := session.stream.take
    (taken.1, { session with stream := taken.2 })
  | .rest =>
    match session.stream.readForms with
    | (.ok nodes, after) => (.nodes nodes, { session with stream := after })
    | (.error fault, after) => (.failed fault, { session with stream := after })
  | .program =>
    match session.stream.readProgram with
    | (.ok node, after) => (.node node, { session with stream := after })
    | (.error fault, after) => (.failed fault, { session with stream := after })

def run (session : Session ι) : List (Step ι) → List Answer × Session ι
  | [] => ([], session)
  | step :: steps =>
    let stepped := session.step step
    let later := stepped.2.run steps
    (stepped.1 :: later.1, later.2)

end Session

end SchemeSyntax.TokenStream
