import SchemeSyntax.Form.Stream
import SchemeSyntax.Node.Cast
import SchemeSyntax.Node.Contract
import SchemeSyntax.Text.Blank

namespace SchemeSyntax

inductive FaultKind
  | general
  | scan
  | unexpectedEnd
  | unknownToken
  | read
  | cast
  | tail
  | contract
  deriving DecidableEq, Repr

/-- A kind and the wider kinds that it falls under, the widest last. -/
def FaultKind.lineage : FaultKind → List FaultKind
  | general => [general]
  | scan => [scan, general]
  | unexpectedEnd => [unexpectedEnd, scan, general]
  | unknownToken => [unknownToken, scan, general]
  | read => [read, general]
  | cast => [cast, general]
  | tail => [tail, general]
  | contract => [contract, general]

/-- What a fault is about. -/
inductive Subject
  | token (token : Token)
  | fragment (fragment : Fragment)
  | item (item : Item)

namespace Subject

def location? : Subject → Option Location
  | token t => t.location
  | fragment f => f.location
  | item _ => none

def label? : Subject → Option Text
  | token t => some t.label
  | fragment f => some f.label
  | item _ => none

end Subject

structure Diagnostic where
  kind : FaultKind
  subject : Subject
  message : Text

namespace Location

def heading (location : Location) : Text :=
  location.fileName ++ ":" ++ Numeral.ofInt location.lineNo ++ ", "

/-- Dashes under the place, where it stands behind the heading. There is at least one. -/
def marker (location : Location) : Text :=
  let indent := location.heading.length + location.colStart - 1
  let width := max (location.colEnd - location.colStart) 1
  List.replicate indent.toNat CodePoint.space ++ List.replicate width.toNat CodePoint.hyphen

/-- The marker keeps its place where blanks at the end of the line are left out. -/
def render (location : Location) : Text :=
  location.heading ++ location.line.trimRight ++ CodePoint.newline :: location.marker

end Location

def Diagnostic.render (diagnostic : Diagnostic) : Text :=
  "Error: " ++ diagnostic.message ++
    match diagnostic.subject.location? with
    | none => []
    | some location => CodePoint.newline :: location.render

inductive Fault
  | scan (fault : ScanFault)
  | read (fault : ReadFault)
  | cast (fault : CastFault)
  | tail (fault : TailFault)
  | contract (fault : ContractFault)

def ScanCause.kind : ScanCause → FaultKind
  | unterminatedString => .unexpectedEnd
  | clipped => .unexpectedEnd
  | unknown => .unknownToken

namespace Fault

def ofSource : SourceFault → Fault
  | .scan fault => scan fault
  | .read fault => read fault

def diagnostic : Fault → Diagnostic
  | scan fault => ⟨fault.cause.kind, .fragment fault.fragment, fault.message⟩
  | read fault => ⟨.read, .token fault.token, fault.message⟩
  | cast fault => ⟨.cast, .item (.node fault.node), fault.message⟩
  | tail fault => ⟨.tail, .item (.node fault.node), TailFault.message⟩
  | contract fault => ⟨.contract, .item fault.subject, fault.message⟩

end Fault

end SchemeSyntax
