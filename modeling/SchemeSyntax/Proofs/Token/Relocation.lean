import SchemeSyntax.Proofs.Token.Placing

namespace SchemeSyntax

/-- A place in the same line further down, behind so many lines and characters. -/
def Location.below (lines chars : Nat) (location : Location) : Location :=
  { location with lineNo := location.lineNo + lines, offset := location.offset + chars }

variable (move : Location → Location)

def Token.relocate (token : Token) : Token := { token with location := token.location.map move }

def Fragment.relocate (fragment : Fragment) : Fragment :=
  { fragment with location := fragment.location.map move }

def ScanFault.relocate (fault : ScanFault) : ScanFault :=
  { fault with fragment := fault.fragment.relocate move }

def Scan.relocate : Scan → Scan
  | .token found => .token (found.relocate move)
  | .layout => .layout
  | .finished => .finished
  | .failed fault => .failed (fault.relocate move)

namespace Source

/-- A source that stands further down in a longer text, and so do the faults that it met. -/
def below (lines chars : Nat) (source : Source) : Source where
  fileName := source.fileName
  cursor := source.cursor.below lines chars
  fault := source.fault.map (ScanFault.relocate (Location.below lines chars))

theorem locate_below (lines chars : Nat) (source : Source) (length : Nat) :
    (source.below lines chars).locate length = (source.locate length).below lines chars := by
  have column : (source.below lines chars).cursor.column = source.cursor.column :=
    Cursor.column_below source.cursor lines chars
  rw [locate, column]
  rfl

theorem skip_below (lines chars : Nat) (source : Source) (length : Nat) :
    (source.below lines chars).skip length = (source.skip length).below lines chars := by
  simp only [skip, below, Cursor.advance_below]

theorem scanLexeme_below (lines chars : Nat) (source : Source) (lexeme : Lexeme) :
    (source.below lines chars).scanLexeme lexeme =
      ((source.scanLexeme lexeme).1.relocate (Location.below lines chars),
        (source.scanLexeme lexeme).2.below lines chars) := by
  cases lexeme with
  | token kind text =>
    simp only [scanLexeme, locate_below, skip_below, Scan.relocate, Token.relocate, Option.map_some]
  | layout w => simp only [scanLexeme, skip_below, Scan.relocate]
  | fault cause text =>
    rw [scanLexeme, locate_below]
    rfl

theorem scan_below (lines chars : Nat) (source : Source) :
    (source.below lines chars).scan =
      (source.scan.1.relocate (Location.below lines chars), source.scan.2.below lines chars) := by
  have ahead : (source.below lines chars).cursor.rest = source.cursor.rest := rfl
  cases broken : source.fault with
  | some fault =>
    have brokenBelow : (source.below lines chars).fault =
        some (fault.relocate (Location.below lines chars)) := by
      rw [below, broken]
      rfl
    simp only [scan, broken, brokenBelow, Scan.relocate]
  | none =>
    have soundBelow : (source.below lines chars).fault = none := by
      rw [below, broken]
      rfl
    cases found : Lexeme.first? source.cursor.rest with
    | none =>
      rw [scan_of_end broken found, scan_of_end soundBelow (ahead ▸ found)]
      rfl
    | some lexeme =>
      rw [scan_of_first? broken found, scan_of_first? soundBelow (ahead ▸ found), scanLexeme_below]

/-- Further down the same tokens are found, further down. -/
theorem drain_below (lines chars : Nat) (source : Source) :
    (source.below lines chars).drain =
      (source.drain.1.map (Token.relocate (Location.below lines chars)),
        source.drain.2.below lines chars) := by
  fun_induction drain source with
  | case1 source token after scanned later ih =>
    have moved := scan_below lines chars source
    rw [scanned] at moved
    rw [drain_of_token moved, ih]
    rfl
  | case2 source after scanned ih =>
    have moved := scan_below lines chars source
    rw [scanned] at moved
    rw [drain_of_layout moved, ih]
  | case3 source after scanned =>
    have moved := scan_below lines chars source
    rw [scanned] at moved
    exact drain_of_finished moved
  | case4 source fault after scanned =>
    have moved := scan_below lines chars source
    rw [scanned] at moved
    exact drain_of_failed moved

end Source

end SchemeSyntax
