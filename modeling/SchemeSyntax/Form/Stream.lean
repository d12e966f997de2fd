import SchemeSyntax.Form.Partial
import SchemeSyntax.Token.Source

namespace SchemeSyntax

/-- Feeds tokens to a partial form until it is finished or wrong. Takes no token beyond that one. -/
def Partial.run (form : Partial) : List Token → Progress × List Token
  | [] => (.more form, [])
  | token :: rest =>
    match form.feed token with
    | .more form => form.run rest
    | .done node => (.done node, rest)
    | .wrong fault => (.wrong fault, rest)

theorem Partial.length_run {form : Partial} {tokens rest : List Token} {node : Node}
    (finished : form.run tokens = (.done node, rest)) : rest.length < tokens.length := by
  induction tokens generalizing form with
  | nil => cases finished
  | cons token tokens ih =>
    simp only [run] at finished
    split at finished
    · exact Nat.lt_succ_of_lt (ih finished)
    · cases finished
      exact Nat.lt_succ_self _
    · cases finished

inductive SourceFault
  | scan (fault : ScanFault)
  | read (fault : ReadFault)
  deriving DecidableEq, Repr

/-- The tokens of a text that have not been read yet, and the scanning fault behind the last of
    them. The fault is met once; then the stream has ended. -/
structure TokenStream where
  tokens : List Token
  fault : Option ScanFault
  deriving DecidableEq, Repr

inductive Reading
  | form (node : Node)
  | finished
  | failed (fault : SourceFault)

namespace TokenStream

def ended : TokenStream := ⟨[], none⟩

def ofSource (source : Source) : TokenStream :=
  let drained := source.drain
  ⟨drained.1, drained.2.fault⟩

def ofText (text : Text) (fileName : Text) : TokenStream := ofSource (.ofText text fileName)

/-- A scanning fault wins over what the tokens in front of it leave unfinished. -/
def readForm (stream : TokenStream) : Reading × TokenStream :=
  match Partial.start.run stream.tokens with
  | (.done node, rest) => (.form node, { stream with tokens := rest })
  | (.wrong fault, rest) => (.failed (.read fault), { stream with tokens := rest })
  | (.more form, _) =>
    match stream.fault, form.shortfall? with
    | some fault, _ => (.failed (.scan fault), ended)
    | none, some fault => (.failed (.read fault), ended)
    | none, none => (.finished, ended)

theorem length_readForm {stream after : TokenStream} {node : Node}
    (found : stream.readForm = (.form node, after)) : after.tokens.length < stream.tokens.length := by
  unfold readForm at found
  split at found
  · next finished =>
    cases found
    exact Partial.length_run finished
  · cases found
  · split at found <;> cases found

/-- The forms up to the end of the stream or the first fault, and the stream behind them. -/
def readForms (stream : TokenStream) : Except SourceFault (List Node) × TokenStream :=
  match _ : stream.readForm with
  | (.form node, after) =>
    let later := after.readForms
    (later.1.map (node :: ·), later.2)
  | (.finished, after) => (.ok [], after)
  | (.failed fault, after) => (.error fault, after)
termination_by stream.tokens.length
decreasing_by
  next found => exact length_readForm found

/-- A program is a proper list: the core symbol that begins it and the forms of the text. -/
def readProgram (stream : TokenStream) : Except SourceFault Node × TokenStream :=
  let head := Builder.empty.push (Leaf.ofCore .beginProgram)
  let forms := stream.readForms
  (forms.1.map fun nodes => (head.pushAll nodes).build, forms.2)

theorem readProgram_eq (stream : TokenStream) : stream.readProgram =
    (stream.readForms.1.map fun nodes => .list (Leaf.ofCore .beginProgram :: nodes) none,
      stream.readForms.2) := by
  simp [readProgram, Builder.build]

end TokenStream

def read (text : Text) (fileName : Text) : Except SourceFault (List Node) :=
  (TokenStream.ofText text fileName).readForms.1

def readProgram (text : Text) (fileName : Text) : Except SourceFault Node :=
  (TokenStream.ofText text fileName).readProgram.1

end SchemeSyntax
