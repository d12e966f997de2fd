import SchemeSyntax.Token.Session
import SchemeSyntax.Symbol.Counter
import SchemeSyntax.Node.Printer
import SchemeSyntax.Node.Sequence
import SchemeSyntax.Form.Session
import SchemeSyntax.Datum.Chain
import SchemeSyntax.Datum.Store
import SchemeSyntax.Datum.Walk
import SchemeSyntax.Datum.Printer
import SchemeSyntax.Quotation
import SchemeSyntax.Refusal
import SchemeSyntax.Diagnostic
import SchemeSyntax.Proofs.Token.Writing
import SchemeSyntax.Proofs.Form.Reading
import SchemeSyntax.Proofs.Node.RoundTrip
import SchemeSyntax.Proofs.Datum.RoundTrip
import SchemeSyntax.Proofs.Token.Continuation
import SchemeSyntax.Proofs.Token.Position
import SchemeSyntax.Proofs.Form.Lines
import SchemeSyntax.Proofs.Form.Sharing
import SchemeSyntax.Proofs.Form.Precedence
import SchemeSyntax.Proofs.Form.Completion
import SchemeSyntax.Proofs.Token.Interleaving
import SchemeSyntax.Proofs.Form.Leaves
import SchemeSyntax.Proofs.Form.Naming
import SchemeSyntax.Proofs.Datum.Identification
import SchemeSyntax.Proofs.Datum.Printing
import SchemeSyntax.Proofs.Datum.Dotted
import SchemeSyntax.Proofs.Symbol.Counting
import SchemeSyntax.Proofs.Form.Shortage
import SchemeSyntax.Proofs.Form.Marker
import SchemeSyntax.Proofs.Text.Decoding
import SchemeSyntax.Proofs.Node.Building
import SchemeSyntax.Proofs.Datum.Preservation
import SchemeSyntax.Proofs.Datum.Unquotable
import SchemeSyntax.Proofs.Symbol.Naming
import SchemeSyntax.Proofs.Datum.Views
import SchemeSyntax.Proofs.Token.Branch
