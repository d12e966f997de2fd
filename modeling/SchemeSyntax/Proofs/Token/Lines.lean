import SchemeSyntax.Proofs.Token.Continuation
import SchemeSyntax.Proofs.Token.Relocation

namespace SchemeSyntax

namespace Source

/-- A source over a text that goes on with more lines. -/
def extend (source : Source) (later : Text) : Source :=
  { source with cursor := source.cursor.extend later }

theorem ofText_append (text fileName : Text) {later : Text} (ended : Text.LineEnds later) :
    ofText (text ++ later) fileName = (ofText text fileName).extend later := by
  rw [ofText, Cursor.start_append text ended]
  rfl

theorem skip_extend {source : Source} {w rest later : Text} (ended : Text.LineEnds later)
    (ahead : source.cursor.rest = w ++ rest) :
    (source.extend later).skip w.length = (source.skip w.length).extend later := by
  have within : w.length ≤ source.cursor.rest.length := by
    rw [ahead, List.length_append]
    exact Nat.le_add_right _ _
  rw [skip, extend, Cursor.advance_extend ended within]
  rfl

end Source

/-- The tokens of a writing keep their places where more lines follow. -/
theorem Writing.tokens_extend {writing : Writing} {source : Source} {rest later : Text}
    (ended : Text.LineEnds later) (ahead : source.cursor.rest = writing.text ++ rest) :
    writing.tokens (source.extend later) = writing.tokens source := by
  induction writing generalizing source with
  | ending layout => rfl
  | piece layout terminal further ih =>
    rw [text, List.append_assoc, List.append_assoc] at ahead
    have front := Source.rest_skip_left ahead
    rw [tokens, Source.skip_extend ended ahead, Source.skip_extend ended front,
      ih (Source.rest_skip_left front)]
    rfl

theorem exists_writing_of_tokens {text fileName : Text} {tokens : List Token}
    (scanned : tokenize text fileName = .ok tokens) :
    ∃ writing : Writing, text = writing.text ∧ writing.LawfulBefore [] ∧
      writing.tokens (Source.ofText text fileName) = tokens := by
  obtain ⟨sound, drained⟩ := tokenize_eq_ok_iff.mp scanned
  obtain ⟨writing, later, written, lawful, placed, ⟨rfl, _⟩ | ⟨cause, piece, _, stored⟩⟩ :=
    Source.drain_ofText text fileName
  · rw [List.append_nil] at written
    exact ⟨writing, written, lawful, placed.symm.trans drained⟩
  · rw [stored] at sound
    cases sound

/-- A text and more lines below it are scanned one after the other. The tokens above keep their
    places, and those below stand so many lines and characters further down. -/
theorem Source.drain_lines {above fileName : Text} {tokens : List Token}
    (scanned : tokenize above fileName = .ok tokens) (rest : Text) :
    (ofText (above ++ CodePoint.newline :: rest) fileName).drain =
      (tokens ++ (ofText rest fileName).drain.1.map
        (Token.relocate (Location.below (1 + above.count CodePoint.newline) (above.length + 1))),
        (ofText rest fileName).drain.2.below (1 + above.count CodePoint.newline) (above.length + 1)) := by
  obtain ⟨writing, rfl, lawful, placed⟩ := exists_writing_of_tokens scanned
  have ended : Text.LineEnds (CodePoint.newline :: rest) := by
    intro c first
    cases first
    rfl
  have lawfulAbove : writing.LawfulBefore (CodePoint.newline :: rest) := lawful.extend fun _ => ended
  have ahead : (ofText (writing.text ++ CodePoint.newline :: rest) fileName).cursor.rest =
      writing.text ++ CodePoint.newline :: rest := rfl
  have seam : ((ofText (writing.text ++ CodePoint.newline :: rest) fileName).skip
      writing.text.length).cursor.rest = [CodePoint.newline] ++ rest := rest_skip_left ahead
  have newline : Text.LayoutBefore rest [CodePoint.newline] := .space (by decide) .nil
  have sound : ((ofText (writing.text ++ CodePoint.newline :: rest) fileName).skip
      writing.text.length).fault = none := rfl
  have below : (ofText (writing.text ++ CodePoint.newline :: rest) fileName).skip
      (writing.text.length + 1) =
        (ofText rest fileName).below (1 + writing.text.count CodePoint.newline)
          (writing.text.length + 1) := by
    simp only [skip, ofText, Cursor.advance_start]
    rfl
  have start : (ofText writing.text fileName).cursor.rest = writing.text ++ [] :=
    (List.append_nil _).symm
  rw [drain_writing rfl ahead lawfulAbove, drain_layout sound seam newline, skip_skip,
    List.length_singleton, below, drain_below, ofText_append writing.text fileName ended,
    Writing.tokens_extend ended start, placed]

theorem Text.lex_line {above : Text} {terminals : List Terminal}
    (scanned : above.lex = ⟨terminals, none⟩) (rest : Text) :
    lex (above ++ CodePoint.newline :: rest) =
      ⟨terminals ++ rest.lex.terminals, rest.lex.cause⟩ := by
  obtain ⟨tokens, found, rfl⟩ := (tokenize_iff_lex above [] terminals).mpr scanned
  have whole : (Source.ofText (above ++ CodePoint.newline :: rest) []).lexing =
      lex (above ++ CodePoint.newline :: rest) := Source.lexing_eq_lex rfl
  have below : (Source.ofText rest []).lexing = rest.lex := Source.lexing_eq_lex rfl
  rw [← whole, ← below, Source.lexing, Source.lexing, Source.drain_lines found, List.map_append,
    List.map_map]
  exact congrArg (Lexing.mk _) (Option.map_map _ _ _)

/-- A text that is a single token. -/
theorem tokenize_spelling {terminal : Terminal} (spelled : terminal.WellSpelled) (fileName : Text) :
    tokenize terminal.spelling fileName = .ok [⟨terminal.kind, terminal.text,
      some ((Source.ofText terminal.spelling fileName).locate terminal.spelling.length)⟩] := by
  have ahead : (Source.ofText terminal.spelling fileName).cursor.rest = terminal.spelling ++ [] :=
    (List.append_nil _).symm
  have drained := Source.drain_spelling rfl ahead spelled fun _ => nofun
  have sound : ((Source.ofText terminal.spelling fileName).skip terminal.spelling.length).fault =
      none := rfl
  rw [tokenize_eq_ok_iff, drained, Source.drain_end sound (Source.rest_skip_left ahead)]
  exact ⟨rfl, rfl⟩

theorem tokenize_spelling_iff (terminal : Terminal) (fileName : Text) :
    (∃ place, tokenize terminal.spelling fileName = .ok [⟨terminal.kind, terminal.text, place⟩]) ↔
      terminal.WellSpelled := by
  constructor
  · rintro ⟨place, scanned⟩
    have member : ⟨terminal.kind, terminal.text, place⟩ ∈
        (Source.ofText terminal.spelling fileName).drain.1 := by
      rw [(tokenize_eq_ok_iff.mp scanned).2]
      exact List.mem_singleton_self _
    exact Source.wellSpelled_drain _ _ member
  · exact fun spelled => ⟨_, tokenize_spelling spelled fileName⟩

end SchemeSyntax
