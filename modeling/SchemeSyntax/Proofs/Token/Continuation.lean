import SchemeSyntax.Proofs.Token.Completion

namespace SchemeSyntax

/-- A token as it is written, and where it begins. -/
def Token.placed (token : Token) : Terminal × Option Int :=
  (token.terminal, token.location.map Location.offset)

namespace Writing

def placed : Writing → Nat → List (Terminal × Option Int)
  | ending _, _ => []
  | piece layout terminal later, offset =>
    (terminal, some (offset + layout.length : Nat)) ::
      later.placed (offset + layout.length + terminal.spelling.length)

/-- Where the tokens begin depends on no text behind them. -/
theorem placed_tokens {writing : Writing} {source : Source} {later : Text}
    (ahead : source.cursor.rest = writing.text ++ later) :
    (writing.tokens source).map Token.placed = writing.placed source.cursor.offset := by
  induction writing generalizing source with
  | ending layout => rfl
  | piece layout terminal rest ih =>
    rw [text, List.append_assoc, List.append_assoc] at ahead
    have front := Source.rest_skip_left ahead
    rw [tokens, List.map_cons, ih (Source.rest_skip_left front), placed, Source.offset_skip_left front,
      Source.offset_skip_left ahead, Token.placed, Option.map_some, Source.locate,
      Source.offset_skip_left ahead]
    rfl

end Writing

namespace Source

theorem drain_writing_fault {source : Source} {writing : Writing} {later text : Text}
    {cause : ScanCause} (sound : source.fault = none)
    (ahead : source.cursor.rest = writing.text ++ later) (lawful : writing.LawfulBefore later)
    (found : Lexeme.first? later = some (.fault cause text)) :
    source.drain = (writing.tokens source, { source.skip writing.text.length with
      fault := some ⟨cause, text, some ((source.skip writing.text.length).locate text.length)⟩ }) := by
  have soundBehind : (source.skip writing.text.length).fault = none := sound
  rw [← rest_skip_left ahead] at found
  rw [drain_writing sound ahead lawful, drain_fault soundBehind found, List.append_nil]

/-- A text is a writing that is scanned, up to its end or up to what cannot be scanned. -/
theorem drain_ofText (text fileName : Text) : ∃ (writing : Writing) (later : Text),
    text = writing.text ++ later ∧ writing.LawfulBefore later ∧
      (ofText text fileName).drain.1 = writing.tokens (ofText text fileName) ∧
      (later = [] ∧ (ofText text fileName).drain.2.fault = none ∨
        ∃ cause piece, Lexeme.first? later = some (.fault cause piece) ∧
          (ofText text fileName).drain.2.fault = some ⟨cause, piece,
            some (((ofText text fileName).skip writing.text.length).locate piece.length)⟩) := by
  obtain ⟨writing, later, written, lawful, rfl | ⟨cause, piece, found⟩⟩ :=
    Writing.exists_lawfulBefore text
  · have sound : ((ofText text fileName).skip writing.text.length).fault = none := rfl
    have drained : (ofText text fileName).drain = _ := drain_writing rfl written lawful
    rw [drain_end sound (rest_skip_left written), List.append_nil] at drained
    refine ⟨writing, [], written, lawful, ?_, .inl ⟨rfl, ?_⟩⟩
    · rw [drained]
    · rw [drained]
      rfl
  · have drained : (ofText text fileName).drain = _ := drain_writing_fault rfl written lawful found
    refine ⟨writing, later, written, lawful, ?_, .inr ⟨cause, piece, found, ?_⟩⟩
    · rw [drained]
    · rw [drained]

end Source

theorem tokenize_eq_error_iff {text fileName : Text} {fault : ScanFault} :
    tokenize text fileName = .error fault ↔ (Source.ofText text fileName).drain.2.fault = some fault := by
  rw [tokenize, Source.tokens]
  cases (Source.ofText text fileName).drain.2.fault <;> simp

theorem tokenize_eq_ok_iff {text fileName : Text} {tokens : List Token} :
    tokenize text fileName = .ok tokens ↔
      (Source.ofText text fileName).drain.2.fault = none ∧ (Source.ofText text fileName).drain.1 = tokens := by
  rw [tokenize, Source.tokens]
  cases (Source.ofText text fileName).drain.2.fault <;> simp

theorem exists_writing_of_fault {text fileName : Text} {fault : ScanFault}
    (failed : tokenize text fileName = .error fault) :
    ∃ (writing : Writing) (later piece : Text) (cause : ScanCause), text = writing.text ++ later ∧
      writing.LawfulBefore later ∧ Lexeme.first? later = some (.fault cause piece) ∧
        fault = ⟨cause, piece,
          some (((Source.ofText text fileName).skip writing.text.length).locate piece.length)⟩ := by
  rw [tokenize_eq_error_iff] at failed
  obtain ⟨writing, later, written, lawful, _, ⟨_, sound⟩ | ⟨cause, piece, found, stored⟩⟩ :=
    Source.drain_ofText text fileName
  · rw [sound] at failed
    cases failed
  · rw [stored] at failed
    exact ⟨writing, later, piece, cause, written, lawful, found, (Option.some.inj failed).symm⟩

/-- Where something unknown stands, it is found again in front of any other text, at the same place
    and behind the same tokens. -/
theorem tokenize_append_of_unknown {text fileName : Text} {fault : ScanFault}
    (failed : tokenize text fileName = .error fault) (unknown : fault.cause = .unknown) (more : Text) :
    ∃ other place, tokenize (text ++ more) fileName = .error other ∧ other.cause = .unknown ∧
      fault.fragment.location.map Location.offset = some place ∧
      other.fragment.location.map Location.offset = some place ∧
        (Source.ofText (text ++ more) fileName).drain.1.map Token.placed =
          (Source.ofText text fileName).drain.1.map Token.placed := by
  obtain ⟨writing, later, piece, cause, written, lawful, found, rfl⟩ := exists_writing_of_fault failed
  subst unknown
  obtain ⟨longer, foundAgain⟩ := Lexeme.first?_append_of_unknown found more
  have begun : later ≠ [] := by
    rintro rfl
    cases found
  have lawfulAgain : writing.LawfulBefore (later ++ more) :=
    lawful.extend fun nothing => absurd nothing begun
  have ahead : (Source.ofText text fileName).cursor.rest = writing.text ++ later := written
  have aheadAgain : (Source.ofText (text ++ more) fileName).cursor.rest =
      writing.text ++ (later ++ more) := by
    rw [← List.append_assoc, ← written]
    rfl
  have place := Source.offset_skip_left ahead
  have placeAgain := Source.offset_skip_left aheadAgain
  have drained := Source.drain_writing_fault rfl ahead lawful found
  have drainedAgain := Source.drain_writing_fault rfl aheadAgain lawfulAgain foundAgain
  refine ⟨⟨.unknown, longer, some (((Source.ofText (text ++ more) fileName).skip
    writing.text.length).locate longer.length)⟩, writing.text.length, ?_, rfl, ?_, ?_, ?_⟩
  · rw [tokenize_eq_error_iff, drainedAgain]
  · rw [Option.map_some, Source.locate, place, Source.ofText, Cursor.start, Nat.zero_add]
  · rw [Option.map_some, Source.locate, placeAgain, Source.ofText, Cursor.start, Nat.zero_add]
  · rw [drained, drainedAgain, Writing.placed_tokens aheadAgain, Writing.placed_tokens ahead]
    rfl

theorem tokenize_append_of_unexpectedEnd {text fileName : Text} {fault : ScanFault}
    (failed : tokenize text fileName = .error fault) (early : fault.cause.kind = .unexpectedEnd) :
    ∃ more tokens, tokenize (text ++ more) fileName = .ok tokens := by
  obtain ⟨writing, later, piece, cause, written, lawful, found, rfl⟩ := exists_writing_of_fault failed
  obtain ⟨more, terminal, spelling, spelled⟩ := Lexeme.exists_spelling_of_unexpectedEnd found early
  have begun : later ≠ [] := by
    rintro rfl
    cases found
  have lawfulBefore : writing.LawfulBefore (later ++ more) :=
    lawful.extend fun nothing => absurd nothing begun
  have ahead : (Source.ofText (text ++ more) fileName).cursor.rest =
      writing.text ++ (later ++ more) := by
    rw [← List.append_assoc, ← written]
    rfl
  rw [spelling, ← List.append_nil terminal.spelling] at lawfulBefore ahead
  have front := Source.rest_skip_left ahead
  have sound : (((Source.ofText (text ++ more) fileName).skip writing.text.length).skip
      terminal.spelling.length).fault = none := rfl
  refine ⟨more, _, tokenize_eq_ok_iff.mpr ⟨?_, rfl⟩⟩
  rw [Source.drain_writing rfl ahead lawfulBefore, Source.drain_spelling rfl front spelled fun _ => nofun,
    Source.drain_end sound (Source.rest_skip_left front)]
  rfl

/-- A scan ends too early exactly where more text can complete the text. Where it meets something
    unknown, it meets it there in every longer text as well, behind the same tokens. -/
theorem tokenize_completable_iff {text fileName : Text} {fault : ScanFault}
    (failed : tokenize text fileName = .error fault) :
    (fault.cause.kind = .unexpectedEnd ↔
      ∃ more tokens, tokenize (text ++ more) fileName = .ok tokens) ∧
    (fault.cause.kind = .unknownToken → ∀ more, ∃ other place,
      tokenize (text ++ more) fileName = .error other ∧ other.cause.kind = .unknownToken ∧
        fault.fragment.location.map Location.offset = some place ∧
        other.fragment.location.map Location.offset = some place ∧
          (Source.ofText (text ++ more) fileName).drain.1.map Token.placed =
            (Source.ofText text fileName).drain.1.map Token.placed) := by
  have known : fault.cause = .unknown ↔ fault.cause.kind = .unknownToken := by
    cases fault.cause <;> decide
  constructor
  · constructor
    · exact tokenize_append_of_unexpectedEnd failed
    · rintro ⟨more, tokens, completed⟩
      cases cause : fault.cause with
      | unterminatedString => rfl
      | clipped => rfl
      | unknown =>
        obtain ⟨other, _, failedAgain, _⟩ := tokenize_append_of_unknown failed cause more
        cases failedAgain.symm.trans completed
  · intro unknown more
    obtain ⟨other, place, failedAgain, cause, rest⟩ :=
      tokenize_append_of_unknown failed (known.mpr unknown) more
    refine ⟨other, place, failedAgain, ?_, rest⟩
    rw [cause]
    rfl

theorem tokenize_completable_iff_clipped :
    (∃ fault, tokenize "(a #" "file" = .error fault ∧ fault.cause.kind = .unexpectedEnd ∧
      ∃ more tokens, tokenize ("(a #" ++ more) "file" = .ok tokens) ∧
    ∃ fault other place, tokenize "(a ..b" "file" = .error fault ∧ fault.cause.kind = .unknownToken ∧
      tokenize ("(a ..b" ++ Text.ofString ". \"") "file" = .error other ∧
        fault.fragment.location.map Location.offset = some place ∧
        other.fragment.location.map Location.offset = some place ∧
          (Source.ofText ("(a ..b" ++ Text.ofString ". \"") "file").drain.1.map Token.placed =
            (Source.ofText "(a ..b" "file").drain.1.map Token.placed := by
  constructor
  · have failed : tokenize "(a #" "file" =
        .error ⟨.clipped, "#", some ⟨"file", "(a #", 1, 4, 5, 3⟩⟩ :=
      tokenize_eq_error_iff.mpr (by decide +kernel)
    exact ⟨_, failed, rfl, (tokenize_completable_iff failed).1.mp rfl⟩
  · have failed : tokenize "(a ..b" "file" =
        .error ⟨.unknown, "..b", some ⟨"file", "(a ..b", 1, 4, 7, 3⟩⟩ :=
      tokenize_eq_error_iff.mpr (by decide +kernel)
    obtain ⟨other, place, failedAgain, _, here, there, same⟩ :=
      (tokenize_completable_iff failed).2 rfl (Text.ofString ". \"")
    exact ⟨_, other, place, failed, rfl, failedAgain, here, there, same⟩

end SchemeSyntax
