import SchemeSyntax.Text.Numeral

namespace SchemeSyntax.StringBody

/-- A backslash and one of these letters stand for the character beside the letter. -/
def letters : List (CodePoint × CodePoint) :=
  [('a', '\x07'), ('b', '\x08'), ('t', '\x09'), ('n', '\x0a'), ('r', '\x0d'),
    (CodePoint.doubleQuote, CodePoint.doubleQuote), (CodePoint.backslash, CodePoint.backslash)]

def meaning? (letter : CodePoint) : Option CodePoint := letters.lookup letter

def letter? (meaning : CodePoint) : Option CodePoint :=
  (letters.find? fun entry => entry.2 = meaning).map Prod.fst

/-- What a string body is made of: single characters, escapes by letter and escapes by number,
    whose digits may be any letters and digits until their value is asked for. -/
inductive Piece
  | plain (c : CodePoint)
  | lettered (letter meaning : CodePoint)
  | numbered (marker : CodePoint) (digits : Text)
  deriving DecidableEq, Repr

inductive EscapeCause
  | outOfRange
  | unknown
  deriving DecidableEq, Repr

structure EscapeFault where
  cause : EscapeCause
  spelling : Text
  deriving DecidableEq, Repr

def EscapeFault.message (fault : EscapeFault) : Text :=
  match fault.cause with
  | .outOfRange => "Invalid character code in: " ++ fault.spelling ++ "."
  | .unknown => "Unknown character name: " ++ fault.spelling ++ "."

namespace Piece

def spelling : Piece → Text
  | .plain c => [c]
  | .lettered letter _ => [CodePoint.backslash, letter]
  | .numbered marker digits => CodePoint.backslash :: marker :: digits ++ [CodePoint.semicolon]

def value (piece : Piece) : Except EscapeFault CodePoint :=
  match piece with
  | .plain c => .ok c
  | .lettered _ meaning => .ok meaning
  | .numbered _ digits =>
    if digits.length ≤ 6 && digits.all CodePoint.isHexDigit then
      match CodePoint.ofNat? (Numeral.hexValue digits) with
      | some c => .ok c
      | none => .error ⟨.outOfRange, piece.spelling⟩
    else .error ⟨.unknown, piece.spelling⟩

end Piece

def isMarker (c : CodePoint) : Bool := c = 'x' || c = 'X'

def isAlphanumeric (c : CodePoint) : Bool := c.isLetter || c.isDigit

/-- The digits of a numbered escape, and the text behind its semicolon. -/
def numbered? (t : Text) : Option (Text × Text) :=
  match t.takeWhile isAlphanumeric, t.dropWhile isAlphanumeric with
  | digits, c :: rest => if !digits.isEmpty && c = CodePoint.semicolon then some (digits, rest) else none
  | _, [] => none

/-- The escape whose backslash stands before the text, and what follows it. -/
def escape? : Text → Option (Piece × Text)
  | [] => none
  | c :: rest =>
    match meaning? c with
    | some meaning => some (.lettered c meaning, rest)
    | none =>
      if isMarker c then (numbered? rest).map fun found => (.numbered c found.1, found.2) else none

theorem append_numbered? {t digits rest : Text} (found : numbered? t = some (digits, rest)) :
    digits ++ CodePoint.semicolon :: rest = t := by
  unfold numbered? at found
  have split := List.takeWhile_append_dropWhile (p := isAlphanumeric) (l := t)
  cases ended : t.dropWhile isAlphanumeric with
  | nil => simp [ended] at found
  | cons c later =>
    simp only [ended, Option.ite_none_right_eq_some, Option.some.injEq, Prod.mk.injEq,
      Bool.and_eq_true, decide_eq_true_eq] at found
    obtain ⟨⟨_, rfl⟩, rfl, rfl⟩ := found
    rw [← ended, split]

theorem spelling_escape? {t : Text} {piece : Piece} {rest : Text}
    (found : escape? t = some (piece, rest)) :
    piece.spelling ++ rest = CodePoint.backslash :: t := by
  cases t with
  | nil => cases found
  | cons c later =>
    simp only [escape?] at found
    split at found
    · cases found
      rfl
    · split at found
      · obtain ⟨⟨digits, after⟩, numbered, same⟩ := Option.map_eq_some_iff.mp found
        cases same
        simp only [Piece.spelling, List.cons_append, List.append_assoc, List.nil_append]
        rw [append_numbered? numbered]
      · cases found

theorem Piece.length_spelling (piece : Piece) : 0 < piece.spelling.length := by
  cases piece <;> simp [spelling]

theorem length_escape? {t : Text} {piece : Piece} {rest : Text}
    (found : escape? t = some (piece, rest)) : rest.length ≤ t.length := by
  have spelled := congrArg List.length (spelling_escape? found)
  have nonempty := piece.length_spelling
  simp only [List.length_append, List.length_cons] at spelled
  omega

/-- A backslash that begins no escape is a plain character. -/
def pieces : Text → List Piece
  | [] => []
  | c :: rest =>
    if c = CodePoint.backslash then
      match _ : escape? rest with
      | some (piece, later) => piece :: pieces later
      | none => .plain c :: pieces rest
    else .plain c :: pieces rest
termination_by t => t.length
decreasing_by
  · next found => exact Nat.lt_succ_of_le (length_escape? found)
  · exact Nat.lt_succ_self _
  · exact Nat.lt_succ_self _

/-- The pieces leave nothing of the body out and add nothing to it. -/
theorem spelling_pieces (body : Text) : (pieces body).flatMap Piece.spelling = body := by
  fun_induction pieces body with
  | case1 => rfl
  | case2 rest piece later found ih =>
    rw [List.flatMap_cons, ih]
    exact spelling_escape? found
  | case3 rest _ ih => rw [List.flatMap_cons, ih]; rfl
  | case4 c rest _ ih => rw [List.flatMap_cons, ih]; rfl

def decode (body : Text) : Except EscapeFault Text := (pieces body).mapM Piece.value

/-- Escapes only what would end the string or begin an escape. -/
def escape (t : Text) : Text :=
  t.flatMap fun c =>
    if c = CodePoint.backslash || c = CodePoint.doubleQuote then [CodePoint.backslash, c] else [c]

def numberedEscape (width : Nat) (c : CodePoint) : Text :=
  CodePoint.backslash :: 'x' :: Numeral.hexDigits width c.val ++ [CodePoint.semicolon]

/-- Writes a character in printable ASCII: by letter, as it is, or by number in two, four or six
    digits. -/
def asciiChar (c : CodePoint) : Text :=
  match letter? c with
  | some letter => [CodePoint.backslash, letter]
  | none =>
    if 32 ≤ c.val && c.val < 127 then [c]
    else if c.val < 0x100 then numberedEscape 2 c
    else if c.val < 0x10000 then numberedEscape 4 c
    else numberedEscape 6 c

def escapeToAscii (t : Text) : Text := t.flatMap asciiChar

end SchemeSyntax.StringBody
