import SchemeSyntax.Proofs.Token.Lexing

namespace SchemeSyntax

namespace Source

theorem scan_of_fault {source : Source} {fault : ScanFault} (stored : source.fault = some fault) :
    source.scan = (.failed fault, source) := by
  rw [scan, stored]

theorem scan_of_first? {source : Source} {lexeme : Lexeme} (sound : source.fault = none)
    (found : Lexeme.first? source.cursor.rest = some lexeme) :
    source.scan = source.scanLexeme lexeme := by
  simp [scan, sound, found]

theorem scan_of_end {source : Source} (sound : source.fault = none)
    (ended : Lexeme.first? source.cursor.rest = none) : source.scan = (.finished, source) := by
  simp [scan, sound, ended]

theorem rest_skip (source : Source) (length : Nat) :
    (source.skip length).cursor.rest = source.cursor.rest.drop length :=
  Cursor.rest_advance source.cursor length

theorem wellSpelled_of_scan {source after : Source} {token : Token}
    (scanned : source.scan = (.token token, after)) : token.terminal.WellSpelled := by
  cases stored : source.fault with
  | some fault =>
    rw [scan_of_fault stored] at scanned
    cases scanned
  | none =>
    cases first : Lexeme.first? source.cursor.rest with
    | none =>
      rw [scan_of_end stored first] at scanned
      cases scanned
    | some lexeme =>
      rw [scan_of_first? stored first] at scanned
      cases lexeme <;> cases scanned
      obtain ⟨_, _, spelled, _⟩ := Lexeme.spells_of_first? first
      exact spelled

theorem wellSpelled_drain (source : Source) :
    ∀ token ∈ source.drain.1, token.terminal.WellSpelled := by
  fun_induction drain source with
  | case1 source token after scanned later ih =>
    exact List.forall_mem_cons.mpr ⟨wellSpelled_of_scan scanned, ih⟩
  | case2 source after scanned ih => exact ih
  | case3 source after scanned =>
    intro token member
    cases member
  | case4 source fault after scanned =>
    intro token member
    cases member

/-- What draining finds, without the places. -/
def lexing (source : Source) : Lexing :=
  ⟨source.drain.1.map Token.terminal, source.drain.2.fault.map ScanFault.cause⟩

theorem drain_eq (source : Source) : source.drain =
    match source.scan with
    | (.token token, after) => (token :: after.drain.1, after.drain.2)
    | (.layout, after) => after.drain
    | (.finished, after) => ([], after)
    | (.failed _, after) => ([], after) := by
  rw [drain]
  split
  all_goals
    rename_i scanned
    rw [scanned]

theorem lexing_of_token {source after : Source} {token : Token}
    (scanned : source.scan = (.token token, after)) :
    source.lexing = after.lexing.cons token.terminal := by
  unfold lexing
  rw [drain_eq, scanned]
  rfl

theorem lexing_of_layout {source after : Source} (scanned : source.scan = (.layout, after)) :
    source.lexing = after.lexing := by
  unfold lexing
  rw [drain_eq, scanned]

theorem lexing_of_finished {source after : Source} (scanned : source.scan = (.finished, after)) :
    source.lexing = ⟨[], after.fault.map ScanFault.cause⟩ := by
  unfold lexing
  rw [drain_eq, scanned]
  rfl

theorem lexing_of_failed {source after : Source} {fault : ScanFault}
    (scanned : source.scan = (.failed fault, after)) :
    source.lexing = ⟨[], after.fault.map ScanFault.cause⟩ := by
  unfold lexing
  rw [drain_eq, scanned]
  rfl

theorem lexing_eq_lex {source : Source} (sound : source.fault = none) :
    source.lexing = source.cursor.rest.lex := by
  generalize size : source.cursor.rest.length = n
  induction n using Nat.strongRecOn generalizing source with
  | ind n ih =>
    cases found : Lexeme.first? source.cursor.rest with
    | none =>
      rw [lexing_of_finished (scan_of_end sound found), sound, Text.lex_end found]
      rfl
    | some lexeme =>
      have scanned := scan_of_first? sound found
      have shorter := rest_skip_lt found
      rw [size] at shorter
      have later : (source.skip lexeme.spelling.length).lexing =
          (source.skip lexeme.spelling.length).cursor.rest.lex := ih _ shorter sound rfl
      rw [rest_skip] at later
      cases lexeme with
      | token kind text =>
        rw [lexing_of_token scanned, Text.lex_token found, later]
        rfl
      | layout w =>
        rw [lexing_of_layout scanned, Text.lex_blank found, later]
        rfl
      | fault cause text =>
        rw [lexing_of_failed scanned, Text.lex_fault found]
        rfl

end Source

theorem tokenize_iff_lex (text fileName : Text) (terminals : List Terminal) :
    (∃ tokens, tokenize text fileName = .ok tokens ∧ tokens.map Token.terminal = terminals) ↔
      text.lex = ⟨terminals, none⟩ := by
  have same : (Source.ofText text fileName).lexing = text.lex := Source.lexing_eq_lex rfl
  rw [← same, Source.lexing, tokenize, Source.tokens]
  cases (Source.ofText text fileName).drain.2.fault <;> simp

end SchemeSyntax
