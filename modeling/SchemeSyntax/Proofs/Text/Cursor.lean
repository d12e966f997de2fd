import SchemeSyntax.Text.Cursor
import SchemeSyntax.Proofs.Token.Lexing

namespace SchemeSyntax

namespace Text

/-- What stands in front of a line: nothing, or a text that a newline ends. -/
def LineBegins (t : Text) : Prop := ∀ c ∈ t.getLast?, c = CodePoint.newline

/-- The line around an offset begins behind the last newline in front of the offset, or with the
    text if there is none. -/
structure IsLineStart (text : Text) (offset start : Nat) : Prop where
  le : start ≤ offset
  begins : LineBegins (text.take start)
  sameLine : CodePoint.newline ∉ (text.take offset).drop start

theorem firstLine_append {t : Text} (sameLine : CodePoint.newline ∉ t) (rest : Text) :
    firstLine (t ++ rest) = t ++ firstLine rest := by
  have every : ∀ c ∈ t, decide (c ≠ CodePoint.newline) = true := by
    intro c member
    apply decide_eq_true
    rintro rfl
    exact sameLine member
  rw [firstLine, List.takeWhile_append_of_pos every]
  rfl

theorem firstLine_of_lineEnds {later : Text} (ended : LineEnds later) : firstLine later = [] := by
  cases later with
  | nil => rfl
  | cons c later =>
    cases ended c rfl
    rfl

/-- The first line of a text does not change where more lines follow. -/
theorem firstLine_append_of_lineEnds (t : Text) {later : Text} (ended : LineEnds later) :
    firstLine (t ++ later) = firstLine t := by
  induction t with
  | nil => exact firstLine_of_lineEnds ended
  | cons c t ih =>
    by_cases newline : c = CodePoint.newline
    · simp [firstLine, newline]
    · simpa [firstLine, newline] using ih

section

variable {text later : Text} {c : CodePoint} {offset : Nat}

theorem lt_length_of_ahead (ahead : text.drop offset = c :: later) : offset < text.length := by
  have size := congrArg List.length ahead
  rw [List.length_drop, List.length_cons] at size
  omega

theorem drop_succ_of_ahead (ahead : text.drop offset = c :: later) :
    text.drop (offset + 1) = later := by
  rw [← List.drop_drop, ahead, List.drop_one, List.tail_cons]

theorem take_succ_of_ahead (ahead : text.drop offset = c :: later) :
    text.take (offset + 1) = text.take offset ++ [c] := by
  rw [List.take_add, ahead, List.take_succ_cons, List.take_zero]

theorem isLineStart_of_newline (ahead : text.drop offset = CodePoint.newline :: later) :
    text.IsLineStart (offset + 1) (offset + 1) := by
  refine ⟨Nat.le_refl _, ?_, ?_⟩
  · intro c last
    rw [take_succ_of_ahead ahead, List.getLast?_concat] at last
    exact (Option.mem_some.mp last).symm
  · rw [List.drop_eq_nil_of_le (List.length_take_le _ _)]
    exact List.not_mem_nil

theorem IsLineStart.succ {start : Nat} (starts : text.IsLineStart offset start)
    (ahead : text.drop offset = c :: later) (other : c ≠ CodePoint.newline) :
    text.IsLineStart (offset + 1) start := by
  obtain ⟨le, begins, sameLine⟩ := starts
  have within := lt_length_of_ahead ahead
  have reaches : start ≤ (text.take offset).length := by
    rw [List.length_take]
    omega
  refine ⟨Nat.le_succ_of_le le, begins, ?_⟩
  rw [take_succ_of_ahead ahead, List.drop_append_of_le_length reaches]
  intro member
  rcases List.mem_append.mp member with earlier | last
  · exact sameLine earlier
  · exact other (List.mem_singleton.mp last).symm

end

end Text

namespace Cursor

theorem step_of_newline {cursor : Cursor} {rest : Text}
    (ahead : cursor.rest = CodePoint.newline :: rest) :
    cursor.step = ⟨rest, rest.firstLine, cursor.lineNo + 1, cursor.offset + 1, cursor.offset + 1⟩ := by
  rw [step, ahead]
  exact if_pos rfl

theorem step_of_ne {cursor : Cursor} {c : CodePoint} {rest : Text} (ahead : cursor.rest = c :: rest)
    (other : c ≠ CodePoint.newline) :
    cursor.step = { cursor with rest := rest, offset := cursor.offset + 1 } := by
  rw [step, ahead]
  exact if_neg other

theorem step_of_end {cursor : Cursor} (ended : cursor.rest = []) : cursor.step = cursor := by
  rw [step, ended]

theorem advance_add (cursor : Cursor) (m n : Nat) :
    cursor.advance (m + n) = (cursor.advance m).advance n := by
  induction m generalizing cursor with
  | zero => rw [Nat.zero_add, advance]
  | succ m ih => rw [Nat.succ_add, advance, advance, ih]

theorem offset_advance {cursor : Cursor} {n : Nat} (within : n ≤ cursor.rest.length) :
    (cursor.advance n).offset = cursor.offset + n := by
  induction n generalizing cursor with
  | zero => rfl
  | succ n ih =>
    cases ahead : cursor.rest with
    | nil => simp [ahead] at within
    | cons c rest =>
      have moved : cursor.step.offset = cursor.offset + 1 := by
        by_cases newline : c = CodePoint.newline
        · subst newline
          rw [step_of_newline ahead]
        · rw [step_of_ne ahead newline]
      have shorter : n ≤ cursor.step.rest.length := by
        rw [rest_step, List.length_drop]
        omega
      rw [advance, ih shorter, moved]
      omega

/-- The cursor knows where it is: all that it keeps can be read off the whole text at its offset. -/
structure Stands (cursor : Cursor) (text : Text) : Prop where
  inside : cursor.offset ≤ text.length
  rest : cursor.rest = text.drop cursor.offset
  lineNo : cursor.lineNo = 1 + (text.take cursor.offset).count CodePoint.newline
  lineStart : text.IsLineStart cursor.offset cursor.lineStart
  line : cursor.line = Text.firstLine (text.drop cursor.lineStart)

theorem stands_start (text : Text) : (start text).Stands text :=
  ⟨Nat.zero_le _, rfl, rfl, ⟨Nat.le_refl _, nofun, List.not_mem_nil⟩, rfl⟩

theorem Stands.step {cursor : Cursor} {text : Text} (stands : cursor.Stands text) :
    cursor.step.Stands text := by
  obtain ⟨inside, rest, lineNo, starts, line⟩ := stands
  cases ahead : cursor.rest with
  | nil =>
    rw [step_of_end ahead]
    exact ⟨inside, rest, lineNo, starts, line⟩
  | cons c later =>
    have here : text.drop cursor.offset = c :: later := rest.symm.trans ahead
    have within := Text.lt_length_of_ahead here
    have behind := Text.drop_succ_of_ahead here
    have taken := Text.take_succ_of_ahead here
    by_cases newline : c = CodePoint.newline
    · subst newline
      rw [step_of_newline ahead]
      refine ⟨within, behind.symm, ?_, Text.isLineStart_of_newline here, ?_⟩
      · show cursor.lineNo + 1 = 1 + (text.take (cursor.offset + 1)).count CodePoint.newline
        rw [taken, List.count_append, List.count_singleton_self, lineNo]
        omega
      · rw [behind]
    · rw [step_of_ne ahead newline]
      refine ⟨within, behind.symm, ?_, starts.succ here newline, line⟩
      rw [taken, List.count_append, List.count_singleton, beq_eq_false_iff_ne.mpr newline]
      exact lineNo

theorem Stands.advance {cursor : Cursor} {text : Text} (stands : cursor.Stands text) (n : Nat) :
    (cursor.advance n).Stands text := by
  induction n generalizing cursor with
  | zero => exact stands
  | succ n ih => exact ih stands.step

/-- The line that a cursor stands on, from the cursor on. -/
theorem Stands.line_ahead {cursor : Cursor} {text : Text} (stands : cursor.Stands text) :
    cursor.line.drop (cursor.offset - cursor.lineStart) = cursor.rest.firstLine := by
  obtain ⟨inside, rest, _, ⟨le, _, sameLine⟩, line⟩ := stands
  have split : text.drop cursor.lineStart =
      (text.take cursor.offset).drop cursor.lineStart ++ cursor.rest := by
    have whole := List.take_append_drop cursor.offset text
    have reaches : cursor.lineStart ≤ (text.take cursor.offset).length := by
      rw [List.length_take]
      omega
    rw [rest, ← List.drop_append_of_le_length reaches, whole]
  have length : ((text.take cursor.offset).drop cursor.lineStart).length =
      cursor.offset - cursor.lineStart := by
    rw [List.length_drop, List.length_take]
    omega
  rw [line, split, Text.firstLine_append sameLine, ← length, List.drop_left]

/-- A cursor in a text that goes on with more lines. -/
def extend (cursor : Cursor) (later : Text) : Cursor := { cursor with rest := cursor.rest ++ later }

theorem start_append (text : Text) {later : Text} (ended : Text.LineEnds later) :
    start (text ++ later) = (start text).extend later := by
  rw [start, Text.firstLine_append_of_lineEnds text ended]
  rfl

theorem step_extend {cursor : Cursor} {later : Text} (ended : Text.LineEnds later)
    (ahead : cursor.rest ≠ []) : (cursor.extend later).step = cursor.step.extend later := by
  obtain ⟨c, rest, written⟩ := List.exists_cons_of_ne_nil ahead
  have extended : (cursor.extend later).rest = c :: (rest ++ later) := by
    rw [extend, written, List.cons_append]
  by_cases newline : c = CodePoint.newline
  · subst newline
    rw [step_of_newline extended, step_of_newline written,
      Text.firstLine_append_of_lineEnds rest ended]
    rfl
  · rw [step_of_ne extended newline, step_of_ne written newline]
    rfl

theorem advance_extend {cursor : Cursor} {later : Text} (ended : Text.LineEnds later) {n : Nat}
    (within : n ≤ cursor.rest.length) :
    (cursor.extend later).advance n = (cursor.advance n).extend later := by
  induction n generalizing cursor with
  | zero => rfl
  | succ n ih =>
    have ahead : cursor.rest ≠ [] := by
      intro nothing
      simp [nothing] at within
    have shorter : n ≤ cursor.step.rest.length := by
      rw [rest_step, List.length_drop]
      omega
    rw [advance, advance, step_extend ended ahead, ih shorter]

/-- A cursor in the same text further down, behind so many lines and characters. -/
def below (cursor : Cursor) (lines chars : Nat) : Cursor where
  rest := cursor.rest
  line := cursor.line
  lineNo := cursor.lineNo + lines
  lineStart := cursor.lineStart + chars
  offset := cursor.offset + chars

theorem step_below (cursor : Cursor) (lines chars : Nat) :
    (cursor.below lines chars).step = cursor.step.below lines chars := by
  cases ahead : cursor.rest with
  | nil =>
    have ended : (cursor.below lines chars).rest = [] := ahead
    rw [step_of_end ahead, step_of_end ended]
  | cons c rest =>
    have moved : (cursor.below lines chars).rest = c :: rest := ahead
    by_cases newline : c = CodePoint.newline
    · subst newline
      rw [step_of_newline ahead, step_of_newline moved]
      simp only [below, Nat.add_right_comm]
    · rw [step_of_ne ahead newline, step_of_ne moved newline]
      simp only [below, Nat.add_right_comm]

theorem advance_below (cursor : Cursor) (lines chars n : Nat) :
    (cursor.below lines chars).advance n = (cursor.advance n).below lines chars := by
  induction n generalizing cursor with
  | zero => rfl
  | succ n ih => rw [advance, advance, step_below, ih]

theorem column_below (cursor : Cursor) (lines chars : Nat) :
    (cursor.below lines chars).column = cursor.column := by
  simp only [column, below]
  omega

theorem advance_line {cursor : Cursor} {above rest : Text}
    (ahead : cursor.rest = above ++ CodePoint.newline :: rest) :
    cursor.advance (above.length + 1) =
      ⟨rest, rest.firstLine, cursor.lineNo + above.count CodePoint.newline + 1,
        cursor.offset + above.length + 1, cursor.offset + above.length + 1⟩ := by
  induction above generalizing cursor with
  | nil => exact step_of_newline ahead
  | cons c above ih =>
    have moved : cursor.step.rest = above ++ CodePoint.newline :: rest := by
      rw [rest_step, ahead]
      rfl
    rw [List.length_cons, advance, ih moved]
    by_cases newline : c = CodePoint.newline
    · subst newline
      rw [step_of_newline ahead, List.count_cons_self]
      simp only [Cursor.mk.injEq, true_and]
      omega
    · rw [step_of_ne ahead newline, List.count_cons_of_ne newline]
      simp only [Cursor.mk.injEq, true_and]
      omega

/-- Behind a newline a text is read as if it began there, but for the lines and characters above. -/
theorem advance_start (above rest : Text) :
    (start (above ++ CodePoint.newline :: rest)).advance (above.length + 1) =
      (start rest).below (1 + above.count CodePoint.newline) (above.length + 1) := by
  rw [advance_line rfl]
  simp only [below, start, Cursor.mk.injEq, true_and]
  omega

end Cursor

end SchemeSyntax
