import SchemeSyntax.Proofs.Text.Cursor
import SchemeSyntax.Proofs.Token.Writing

namespace SchemeSyntax

namespace Text

theorem LineEnds.append {t later : Text} (ended : LineEnds t) (joint : t = [] → LineEnds later) :
    LineEnds (t ++ later) := by
  cases t with
  | nil => exact joint rfl
  | cons c t => exact ended

theorem LineEnds.delimited {t : Text} (ended : LineEnds t) : t.Delimited := by
  intro c first
  cases ended c first
  decide

theorem Delimited.append {t later : Text} (stop : t.Delimited) (joint : t = [] → later.Delimited) :
    (t ++ later).Delimited := by
  cases t with
  | nil => exact joint rfl
  | cons c t => exact stop

/-- Layout stays layout where the text goes on: with anything if there was more text behind it, and
    else with a new line, so that a comment at the end goes no further. -/
theorem LayoutBefore.extend {later w more : Text} (isLayout : LayoutBefore later w)
    (joint : later = [] → LineEnds more) : LayoutBefore (later ++ more) w := by
  induction isLayout with
  | nil => exact .nil
  | space space _ ih => exact .space space ih
  | comment sameLine ended _ ih =>
    refine .comment sameLine ?_ ih
    rw [← List.append_assoc]
    exact ended.append fun nothing => joint (List.append_eq_nil_iff.mp nothing).2

end Text

namespace Writing

/-- A writing in front of more text, which its last piece does not reach into. -/
def LawfulBefore (later : Text) : Writing → Prop
  | ending layout => Text.LayoutBefore later layout
  | piece layout terminal rest =>
    Text.LayoutBefore (terminal.spelling ++ (rest.text ++ later)) layout ∧ terminal.WellSpelled ∧
      (terminal.kind.isWord = true → (rest.text ++ later).Delimited) ∧ rest.LawfulBefore later

theorem LawfulBefore.prepend {later space : Text} {writing : Writing}
    (lawful : writing.LawfulBefore later) (isLayout : Text.LayoutBefore (writing.text ++ later) space) :
    (writing.prepend space).LawfulBefore later := by
  cases writing with
  | ending layout => exact isLayout.append lawful
  | piece layout terminal rest =>
    obtain ⟨before, spelled, stop, lawful⟩ := lawful
    rw [text, List.append_assoc, List.append_assoc] at isLayout
    exact ⟨isLayout.append before, spelled, stop, lawful⟩

theorem LawfulBefore.extend {later more : Text} {writing : Writing}
    (lawful : writing.LawfulBefore later) (joint : later = [] → Text.LineEnds more) :
    writing.LawfulBefore (later ++ more) := by
  induction writing with
  | ending layout => exact Text.LayoutBefore.extend lawful joint
  | piece layout terminal rest ih =>
    obtain ⟨before, spelled, stop, lawful⟩ := lawful
    refine ⟨?_, spelled, ?_, ih lawful⟩
    · rw [← List.append_assoc, ← List.append_assoc, List.append_assoc terminal.spelling]
      refine before.extend fun nothing => ?_
      exact absurd (List.append_eq_nil_iff.mp nothing).1 spelled.ne_nil
    · intro word
      rw [← List.append_assoc]
      exact (stop word).append fun nothing =>
        (joint (List.append_eq_nil_iff.mp nothing).2).delimited

/-- Every text is written up to its end or to the first place where no token stands. -/
theorem exists_lawfulBefore (t : Text) : ∃ (writing : Writing) (later : Text),
    t = writing.text ++ later ∧ writing.LawfulBefore later ∧
      (later = [] ∨ ∃ cause text, Lexeme.first? later = some (.fault cause text)) := by
  generalize size : t.length = n
  induction n using Nat.strongRecOn generalizing t with
  | ind n ih =>
    cases found : Lexeme.first? t with
    | none => exact ⟨ending [], t, rfl, .nil, .inl (Lexeme.eq_nil_of_first? found)⟩
    | some lexeme =>
      have shorter := Lexeme.length_drop_lt found
      rw [size] at shorter
      cases lexeme with
      | token kind text =>
        obtain ⟨rest, rfl, spelled, stop⟩ := Lexeme.spells_of_first? found
        rw [Lexeme.spelling, List.drop_left] at shorter
        obtain ⟨writing, later, rfl, lawful, outcome⟩ := ih _ shorter rest rfl
        refine ⟨piece [] ⟨kind, text⟩ writing, later, ?_, ⟨.nil, spelled, stop, lawful⟩, outcome⟩
        exact (List.append_assoc _ _ _).symm
      | layout w =>
        obtain ⟨rest, same, _, isLayout⟩ := (Text.layoutBefore_layout t).1
        rw [← Lexeme.eq_layout_of_first? found] at same isLayout
        rw [Lexeme.spelling, same, List.drop_left] at shorter
        obtain ⟨writing, later, rfl, lawful, outcome⟩ := ih _ shorter rest rfl
        refine ⟨writing.prepend w, later, ?_, lawful.prepend isLayout, outcome⟩
        rw [text_prepend, List.append_assoc, same]
      | fault cause text => exact ⟨ending [], t, rfl, .nil, .inr ⟨cause, text, found⟩⟩

/-- The tokens of a writing, with the places that they have where a source stands in front of it. -/
def tokens : Writing → Source → List Token
  | ending _, _ => []
  | piece layout terminal later, source =>
    let front := source.skip layout.length
    ⟨terminal.kind, terminal.text, some (front.locate terminal.spelling.length)⟩ ::
      later.tokens (front.skip terminal.spelling.length)

end Writing

namespace Source

theorem rest_skip_left {source : Source} {w later : Text} (ahead : source.cursor.rest = w ++ later) :
    (source.skip w.length).cursor.rest = later := by
  rw [rest_skip, ahead, List.drop_left]

theorem offset_skip_left {source : Source} {w later : Text}
    (ahead : source.cursor.rest = w ++ later) :
    (source.skip w.length).cursor.offset = source.cursor.offset + w.length := by
  apply Cursor.offset_advance
  rw [ahead, List.length_append]
  exact Nat.le_add_right _ _

theorem skip_skip (source : Source) (m n : Nat) : (source.skip m).skip n = source.skip (m + n) := by
  simp only [skip, Cursor.advance_add]

theorem drain_of_token {source after : Source} {token : Token}
    (scanned : source.scan = (.token token, after)) :
    source.drain = (token :: after.drain.1, after.drain.2) := by
  rw [drain_eq, scanned]

theorem drain_of_layout {source after : Source} (scanned : source.scan = (.layout, after)) :
    source.drain = after.drain := by
  rw [drain_eq, scanned]

theorem drain_of_finished {source after : Source} (scanned : source.scan = (.finished, after)) :
    source.drain = ([], after) := by
  rw [drain_eq, scanned]

theorem drain_of_failed {source after : Source} {fault : ScanFault}
    (scanned : source.scan = (.failed fault, after)) : source.drain = ([], after) := by
  rw [drain_eq, scanned]

theorem drain_layout {source : Source} {w later : Text} (sound : source.fault = none)
    (ahead : source.cursor.rest = w ++ later) (isLayout : Text.LayoutBefore later w) :
    source.drain = (source.skip w.length).drain := by
  have whole : ∀ source : Source, source.fault = none →
      source.drain = (source.skip (Text.layout false source.cursor.rest).length).drain := by
    intro source sound
    by_cases nothing : Text.layout false source.cursor.rest = []
    · rw [nothing]
      rfl
    · exact drain_of_layout (scan_of_first? sound (Lexeme.first?_of_layout nothing))
  rw [whole source sound, whole (source.skip w.length) sound, skip_skip, rest_skip_left ahead, ahead,
    Text.layout_append isLayout, List.length_append]

theorem drain_spelling {source : Source} {terminal : Terminal} {rest : Text}
    (sound : source.fault = none) (ahead : source.cursor.rest = terminal.spelling ++ rest)
    (spelled : terminal.WellSpelled) (stop : terminal.kind.isWord = true → rest.Delimited) :
    source.drain =
      (⟨terminal.kind, terminal.text, some (source.locate terminal.spelling.length)⟩ ::
        (source.skip terminal.spelling.length).drain.1,
        (source.skip terminal.spelling.length).drain.2) := by
  have found := Lexeme.first?_spelling spelled stop
  rw [← ahead] at found
  exact drain_of_token (scan_of_first? sound found)

/-- Draining finds the tokens of a writing and goes on behind it. -/
theorem drain_writing {source : Source} {writing : Writing} {later : Text}
    (sound : source.fault = none) (ahead : source.cursor.rest = writing.text ++ later)
    (lawful : writing.LawfulBefore later) :
    source.drain = (writing.tokens source ++ (source.skip writing.text.length).drain.1,
      (source.skip writing.text.length).drain.2) := by
  induction writing generalizing source with
  | ending layout => exact drain_layout sound ahead lawful
  | piece layout terminal rest ih =>
    obtain ⟨isLayout, spelled, stop, lawful⟩ := lawful
    rw [Writing.text, List.append_assoc, List.append_assoc] at ahead
    have front := rest_skip_left ahead
    have behind := rest_skip_left front
    have soundFront : (source.skip layout.length).fault = none := sound
    have soundBehind : ((source.skip layout.length).skip terminal.spelling.length).fault = none := sound
    rw [drain_layout sound ahead isLayout, drain_spelling soundFront front spelled stop,
      ih soundBehind behind lawful, skip_skip, skip_skip, Writing.text, List.length_append,
      List.length_append, ← Nat.add_assoc, Writing.tokens, skip_skip, List.cons_append]

theorem drain_fault {source : Source} {cause : ScanCause} {text : Text} (sound : source.fault = none)
    (found : Lexeme.first? source.cursor.rest = some (.fault cause text)) :
    source.drain = ([], { source with fault := some ⟨cause, text, some (source.locate text.length)⟩ }) :=
  drain_of_failed (scan_of_first? sound found)

theorem drain_end {source : Source} (sound : source.fault = none) (ended : source.cursor.rest = []) :
    source.drain = ([], source) := by
  have nothing : Lexeme.first? source.cursor.rest = none := by
    rw [ended]
    rfl
  exact drain_of_finished (scan_of_end sound nothing)

end Source

end SchemeSyntax
