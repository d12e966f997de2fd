import SchemeSyntax.Text.Cursor
import SchemeSyntax.Token.Lexeme

namespace SchemeSyntax

structure ScanFault where
  cause : ScanCause
  fragment : Fragment
  deriving DecidableEq, Repr

def ScanFault.message (fault : ScanFault) : Text :=
  match fault.cause with
  | .unterminatedString => "Unterminated string"
  | .clipped => "Unexpected end of input"
  | .unknown => "Unknown token \"" ++ fault.fragment.text ++ "\""

/-- A text that is being scanned. A scanning fault is final: it is kept and met again by every
    later scan. -/
structure Source where
  fileName : Text
  cursor : Cursor
  fault : Option ScanFault
  deriving DecidableEq, Repr

/-- What a single scan meets. -/
inductive Scan
  | token (token : Token)
  | layout
  | finished
  | failed (fault : ScanFault)
  deriving DecidableEq, Repr

namespace Source

def ofText (text : Text) (fileName : Text) : Source := ⟨fileName, .start text, none⟩

/-- The location of the next `length` characters. -/
def locate (source : Source) (length : Nat) : Location where
  fileName := source.fileName
  line := source.cursor.line
  lineNo := source.cursor.lineNo
  colStart := source.cursor.column
  colEnd := source.cursor.column + length
  offset := source.cursor.offset

def skip (source : Source) (length : Nat) : Source :=
  { source with cursor := source.cursor.advance length }

def scanLexeme (source : Source) (lexeme : Lexeme) : Scan × Source :=
  let length := lexeme.spelling.length
  match lexeme with
  | .token kind text => (.token ⟨kind, text, some (source.locate length)⟩, source.skip length)
  | .layout _ => (.layout, source.skip length)
  | .fault cause text =>
    let fault : ScanFault := ⟨cause, ⟨text, some (source.locate length)⟩⟩
    (.failed fault, { source with fault := some fault })

def scan (source : Source) : Scan × Source :=
  match source.fault, Lexeme.first? source.cursor.rest with
  | some fault, _ => (.failed fault, source)
  | none, none => (.finished, source)
  | none, some lexeme => source.scanLexeme lexeme

theorem rest_skip_lt {source : Source} {lexeme : Lexeme}
    (first : Lexeme.first? source.cursor.rest = some lexeme) :
    (source.skip lexeme.spelling.length).cursor.rest.length < source.cursor.rest.length := by
  have nonempty := List.length_pos_iff.mpr (Lexeme.spelling_ne_nil first)
  have ahead : source.cursor.rest ≠ [] := by
    intro ended
    rw [ended] at first
    cases first
  have ahead := List.length_pos_iff.mpr ahead
  simp only [skip, Cursor.rest_advance, List.length_drop]
  omega

theorem rest_scan_lt {source after : Source} {scan : Scan} (scanned : source.scan = (scan, after))
    (unfinished : scan ≠ .finished) (sound : ∀ fault, scan ≠ .failed fault) :
    after.cursor.rest.length < source.cursor.rest.length := by
  unfold Source.scan at scanned
  split at scanned
  · cases scanned
    exact absurd rfl (sound _)
  · cases scanned
    exact absurd rfl unfinished
  · next lexeme _ first =>
    have shorter := rest_skip_lt first
    cases lexeme <;> cases scanned
    · exact shorter
    · exact shorter
    · exact absurd rfl (sound _)

/-- The next token, past any layout. -/
def next (source : Source) : Option Token × Source :=
  match _ : source.scan with
  | (.token token, after) => (some token, after)
  | (.layout, after) => after.next
  | (.finished, after) => (none, after)
  | (.failed _, after) => (none, after)
termination_by source.cursor.rest.length
decreasing_by
  next scanned => exact rest_scan_lt scanned nofun nofun

/-- All tokens up to the end of the text or the first fault. -/
def drain (source : Source) : List Token × Source :=
  match _ : source.scan with
  | (.token token, after) =>
    let later := after.drain
    (token :: later.1, later.2)
  | (.layout, after) => after.drain
  | (.finished, after) => ([], after)
  | (.failed _, after) => ([], after)
termination_by source.cursor.rest.length
decreasing_by
  · next scanned => exact rest_scan_lt scanned nofun nofun
  · next scanned => exact rest_scan_lt scanned nofun nofun

def tokens (source : Source) : Except ScanFault (List Token) :=
  let drained := source.drain
  match drained.2.fault with
  | none => .ok drained.1
  | some fault => .error fault

end Source

def tokenize (text : Text) (fileName : Text) : Except ScanFault (List Token) :=
  (Source.ofText text fileName).tokens

end SchemeSyntax
