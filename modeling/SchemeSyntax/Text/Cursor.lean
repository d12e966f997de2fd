import SchemeSyntax.Text.CodePoint

namespace SchemeSyntax

/-- A place in a text: what lies ahead of it, and the whole line that it stands on. -/
structure Cursor where
  rest : Text
  line : Text
  lineNo : Nat
  lineStart : Nat
  offset : Nat
  deriving DecidableEq, Repr

namespace Cursor

def start (text : Text) : Cursor := ⟨text, text.firstLine, 1, 0, 0⟩

def step (cursor : Cursor) : Cursor :=
  match cursor.rest with
  | [] => cursor
  | c :: rest =>
    if c = CodePoint.newline then
      ⟨rest, Text.firstLine rest, cursor.lineNo + 1, cursor.offset + 1, cursor.offset + 1⟩
    else { cursor with rest := rest, offset := cursor.offset + 1 }

def advance (cursor : Cursor) : Nat → Cursor
  | 0 => cursor
  | n + 1 => cursor.step.advance n

/-- Columns count from one. -/
def column (cursor : Cursor) : Int := cursor.offset - cursor.lineStart + 1

theorem rest_step (cursor : Cursor) : cursor.step.rest = cursor.rest.drop 1 := by
  unfold step
  split
  · next ended => rw [ended]; rfl
  · next c rest ahead => rw [ahead]; split <;> rfl

theorem rest_advance (cursor : Cursor) (n : Nat) :
    (cursor.advance n).rest = cursor.rest.drop n := by
  induction n generalizing cursor with
  | zero => rfl
  | succ n ih => rw [advance, ih, rest_step, List.drop_drop, Nat.add_comm]

end Cursor

end SchemeSyntax
