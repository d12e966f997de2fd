import SchemeSyntax.Proofs.Form.Reading
import SchemeSyntax.Proofs.Token.Relocation

namespace SchemeSyntax

variable (move : Location → Location)

def Opening.relocate : Opening → Opening
  | .quote mark => .quote (mark.relocate move)
  | .list paren elements => .list (paren.relocate move) elements
  | .tail paren dot elements => .tail (paren.relocate move) (dot.relocate move) elements

def ReadFault.relocate (fault : ReadFault) : ReadFault :=
  { fault with token := fault.token.relocate move }

def SourceFault.relocate : SourceFault → SourceFault
  | .scan fault => .scan (fault.relocate move)
  | .read fault => .read (fault.relocate move)

def Partial.relocate : Partial → Partial
  | form openings => form (openings.map (Opening.relocate move))
  | closing paren dot elements tail openings =>
    closing (paren.relocate move) (dot.relocate move) elements tail
      (openings.map (Opening.relocate move))

def Progress.relocate : Progress → Progress
  | more form => more (form.relocate move)
  | done node => done node
  | wrong fault => wrong (fault.relocate move)

def Reading.relocate : Reading → Reading
  | .form node => .form node
  | .finished => .finished
  | .failed fault => .failed (fault.relocate move)

def TokenStream.relocate (stream : TokenStream) : TokenStream where
  tokens := stream.tokens.map (Token.relocate move)
  fault := stream.fault.map (ScanFault.relocate move)

namespace Partial

theorem deliver_relocate (openings : List Opening) (node : Node) :
    deliver (openings.map (Opening.relocate move)) node = (deliver openings node).relocate move := by
  induction openings generalizing node with
  | nil => rfl
  | cons opening outer ih =>
    cases opening with
    | quote mark => exact ih (.quoted node)
    | list paren elements => rfl
    | tail paren dot elements => rfl

theorem close_relocate (openings : List Opening) (token : Token) :
    close (openings.map (Opening.relocate move)) (token.relocate move) =
      (close openings token).relocate move := by
  cases openings with
  | nil => rfl
  | cons opening outer =>
    cases opening with
    | quote mark => rfl
    | list paren elements => exact deliver_relocate move outer elements.build
    | tail paren dot elements => rfl

theorem dot_relocate (openings : List Opening) (token : Token) :
    dot (openings.map (Opening.relocate move)) (token.relocate move) =
      (dot openings token).relocate move := by
  cases openings with
  | nil => rfl
  | cons opening outer => cases opening <;> rfl

theorem decodeString_relocate (token : Token) : (token.relocate move).decodeString =
    token.decodeString.mapError (ReadFault.relocate move) := by
  have same : (token.relocate move).text = token.text := rfl
  rw [Token.decodeString, Token.decodeString, same]
  cases StringBody.decode token.text <;> rfl

theorem string_relocate (openings : List Opening) (token : Token) :
    string (openings.map (Opening.relocate move)) (token.relocate move) =
      (string openings token).relocate move := by
  have decodedAgain := decodeString_relocate move token
  cases decoded : token.decodeString with
  | ok value =>
    have again : (token.relocate move).decodeString = .ok value := by
      rw [decodedAgain, decoded]
      rfl
    simp only [string, decoded, again]
    exact deliver_relocate move openings _
  | error fault =>
    have again : (token.relocate move).decodeString = .error (fault.relocate move) := by
      rw [decodedAgain, decoded]
      rfl
    simp only [string, decoded, again]
    rfl

/-- The place of a token decides nothing but where a fault is said to be. -/
theorem feed_relocate (form : Partial) (token : Token) :
    (form.relocate move).feed (token.relocate move) = (form.feed token).relocate move := by
  cases form with
  | form openings =>
    obtain ⟨kind, text, location⟩ := token
    cases kind with
    | opening => rfl
    | quote => rfl
    | number => exact deliver_relocate move openings _
    | symbol => exact deliver_relocate move openings _
    | boolean => exact deliver_relocate move openings _
    | string => exact string_relocate move openings _
    | closing => exact close_relocate move openings _
    | dot => exact dot_relocate move openings _
  | closing paren dot elements tail outer =>
    have same : (token.relocate move).kind = token.kind := rfl
    simp only [relocate, feed, same]
    split
    · cases elements.buildWithTail tail with
      | ok node => exact deliver_relocate move outer node
      | error fault => rfl
    · rfl

theorem run_relocate (form : Partial) (tokens : List Token) :
    (form.relocate move).run (tokens.map (Token.relocate move)) =
      ((form.run tokens).1.relocate move, (form.run tokens).2.map (Token.relocate move)) := by
  induction tokens generalizing form with
  | nil => rfl
  | cons token tokens ih =>
    rw [List.map_cons, run_cons, run_cons, feed_relocate]
    cases form.feed token with
    | more after => exact ih after
    | done node => rfl
    | wrong fault => rfl

theorem shortfall?_relocate (form : Partial) :
    (form.relocate move).shortfall? = form.shortfall?.map (ReadFault.relocate move) := by
  cases form with
  | form openings =>
    cases openings with
    | nil => rfl
    | cons opening outer => cases opening <;> rfl
  | closing paren dot elements tail outer => rfl

end Partial

namespace TokenStream

theorem readForm_relocate (stream : TokenStream) :
    (stream.relocate move).readForm =
      (stream.readForm.1.relocate move, stream.readForm.2.relocate move) := by
  have ran := Partial.run_relocate move Partial.start stream.tokens
  have start : Partial.start.relocate move = Partial.start := rfl
  rw [start] at ran
  simp only [readForm, relocate, ran]
  cases Partial.start.run stream.tokens with
  | mk progress rest =>
    cases progress with
    | done node => rfl
    | wrong fault => rfl
    | more form =>
      simp only [Progress.relocate, Partial.shortfall?_relocate]
      cases stream.fault with
      | some fault => rfl
      | none => cases form.shortfall? <;> rfl

/-- Reading gives the same forms wherever the tokens stand, and blames the same tokens. -/
theorem readForms_relocate (stream : TokenStream) :
    (stream.relocate move).readForms =
      (stream.readForms.1.mapError (SourceFault.relocate move), stream.readForms.2.relocate move) := by
  fun_induction readForms stream with
  | case1 stream node after found later ih =>
    have moved := readForm_relocate move stream
    rw [found] at moved
    rw [readForms_of_form moved, ih]
    cases later.1 <;> rfl
  | case2 stream after found =>
    have moved := readForm_relocate move stream
    rw [found] at moved
    exact readForms_of_finished moved
  | case3 stream fault after found =>
    have moved := readForm_relocate move stream
    rw [found] at moved
    exact readForms_of_failed moved

end TokenStream

end SchemeSyntax
