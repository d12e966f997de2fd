import Mathlib.Data.List.Basic
import SchemeSyntax.Diagnostic
import SchemeSyntax.Proofs.Form.Sharing
import SchemeSyntax.Proofs.Token.Interleaving

namespace SchemeSyntax

namespace Text

theorem trimRight_append {t : Text} (visible : ∀ c ∈ t.getLast?, c.isBlank = false) (rest : Text) :
    (t ++ rest).trimRight = t ++ rest.trimRight := by
  have kept : t.reverse.dropWhile CodePoint.isBlank = t.reverse := by
    cases ended : t.reverse with
    | nil => rfl
    | cons c others =>
      have last : t.getLast? = some c := by rw [← List.head?_reverse, ended]; rfl
      rw [List.dropWhile_cons, visible c last]
      rfl
  rw [trimRight, List.reverse_append, List.dropWhile_append, trimRight]
  split
  · next nothing =>
    rw [kept, List.isEmpty_iff.mp nothing, List.reverse_reverse, List.reverse_nil, List.append_nil]
  · rw [List.reverse_append, List.reverse_reverse]

end Text

theorem CodePoint.isBlank_of_isSubsequent {c : CodePoint} (subsequent : c.isSubsequent = true) :
    c.isBlank = false := by
  rw [isSubsequent_iff, isInitial_iff, isDigit_iff] at subsequent
  simp only [isBlank, Bool.or_eq_false_iff, Bool.and_eq_false_iff, decide_eq_false_iff_not]
  omega

/-- No token ends with a blank. -/
theorem Terminal.WellSpelled.visible {terminal : Terminal} (spelled : terminal.WellSpelled) :
    ∀ c ∈ terminal.spelling.getLast?, c.isBlank = false := by
  obtain ⟨kind, text⟩ := terminal
  have word : kind.isWord = true → ∀ c ∈ text.getLast?, c.isBlank = false := by
    intro word c last
    rcases TokenKind.Spells.subsequent spelled word c (List.mem_of_getLast? last) with subsequent | rfl
    · exact CodePoint.isBlank_of_isSubsequent subsequent
    · decide
  cases kind with
  | opening => cases spelled; decide
  | closing => cases spelled; decide
  | quote => cases spelled; decide
  | string =>
    intro c last
    rw [spelling, TokenKind.spell, List.getLast?_concat] at last
    cases last
    decide
  | number => exact word rfl
  | symbol => exact word rfl
  | boolean => exact word rfl
  | dot => exact word rfl

namespace Location

/-- The line around a place, cut in front of the piece that stands there and behind it. -/
theorem Exact.split {place : Location} {name text spelling : Text} {start : Nat}
    (exact : place.Exact name text start spelling) : ∃ before after : Text,
      place.line = before ++ (spelling ++ after) ∧ place.colStart = before.length + 1 := by
  obtain ⟨lineStart, ⟨le, _, _⟩, _, colStart⟩ := exact.line
  have nonempty := List.length_pos_iff.mpr exact.nonempty
  have width : (place.colStart + spelling.length - 1 - (place.colStart - 1)).toNat =
      spelling.length := by omega
  have found := exact.inLine
  rw [Text.slice, exact.colEnd, width] at found
  have ahead := List.take_append_drop spelling.length (place.line.drop (place.colStart - 1).toNat)
  have size := congrArg List.length found
  rw [found] at ahead
  refine ⟨place.line.take (place.colStart - 1).toNat,
    (place.line.drop (place.colStart - 1).toNat).drop spelling.length, ?_, ?_⟩
  · rw [ahead, List.take_append_drop]
  · rw [List.length_take, List.length_drop] at size
    rw [List.length_take]
    omega

theorem marker_eq {place : Location} {column width : Nat} (colStart : place.colStart = column + 1)
    (colEnd : place.colEnd = place.colStart + width) (positive : 1 ≤ width) :
    place.marker = List.replicate (place.heading.length + column) CodePoint.space ++
      List.replicate width CodePoint.hyphen := by
  have indent : (place.heading.length + place.colStart - 1).toNat = place.heading.length + column := by
    omega
  have span : (max (place.colEnd - place.colStart) 1).toNat = width := by omega
  rw [marker, indent, span]

end Location

/-- The piece of text that a fault is about, as it is written there. -/
def SourceFault.blamed : SourceFault → Fragment
  | .scan fault => fault.fragment
  | .read fault => fault.token.written

/-- The faults that a text raises, scanned or read as a whole or step by step by any users of it. -/
inductive SourceFault.RaisedBy (text fileName : Text) : SourceFault → Prop
  | tokenize {fault : ScanFault} (failed : SchemeSyntax.tokenize text fileName = .error fault) :
      RaisedBy text fileName (.scan fault)
  | read {fault : SourceFault} (failed : SchemeSyntax.read text fileName = .error fault) :
      RaisedBy text fileName fault
  | readProgram {fault : SourceFault}
      (failed : SchemeSyntax.readProgram text fileName = .error fault) : RaisedBy text fileName fault
  | scans {ι : Type} [DecidableEq ι] {steps : List (Source.Step ι)} {fault : ScanFault}
      (failed : fault ∈ ((Source.Session.ofText text fileName).run steps).1.filterMap
        Source.Answer.fault?) : RaisedBy text fileName (.scan fault)
  | reads {ι : Type} [DecidableEq ι] {steps : List (TokenStream.Step ι)} {fault : SourceFault}
      (failed : fault ∈ ((TokenStream.Session.ofText text fileName).run steps).1.filterMap
        TokenStream.Answer.fault?) : RaisedBy text fileName fault

namespace SourceFault

/-- A text raises its scanning fault and faults about its tokens, and no others. -/
theorem RaisedBy.blames {text fileName : Text} {fault : SourceFault}
    (raised : RaisedBy text fileName fault) :
    (∃ met, fault = .scan met ∧ (Source.ofText text fileName).drain.2.fault = some met) ∨
      ∃ wrong, fault = .read wrong ∧ wrong.token ∈ (Source.ofText text fileName).drain.1 := by
  cases raised with
  | tokenize failed => exact .inl ⟨_, rfl, tokenize_eq_error_iff.mp failed⟩
  | read failed => exact TokenStream.mem_of_readForms failed
  | readProgram failed =>
    have forms : (TokenStream.ofText text fileName).readForms.1 = .error fault := by
      rw [SchemeSyntax.readProgram, TokenStream.readProgram] at failed
      cases forms : (TokenStream.ofText text fileName).readForms.1 with
      | ok nodes =>
        rw [forms] at failed
        cases failed
      | error other =>
        rw [forms] at failed
        cases failed
        rfl
    exact TokenStream.mem_of_readForms forms
  | @scans _ _ _ fault failed =>
    refine .inl ⟨fault, rfl, ?_⟩
    have stored := Source.Session.fault_run failed
    rwa [Source.Session.source_run_of_fault failed] at stored
  | reads failed => exact TokenStream.Session.blamed_run failed

theorem RaisedBy.exact {text fileName : Text} {fault : SourceFault}
    (raised : RaisedBy text fileName fault) : ∃ start, fault.blamed.Exact fileName text start := by
  rcases raised.blames with ⟨met, rfl, stored⟩ | ⟨wrong, rfl, member⟩
  · exact Source.exact_of_fault_drain stored
  · exact Source.exact_of_mem_drain member

theorem RaisedBy.visible {text fileName : Text} {wrong : ReadFault}
    (raised : RaisedBy text fileName (.read wrong)) :
    ∀ c ∈ wrong.token.terminal.spelling.getLast?, c.isBlank = false := by
  rcases raised.blames with ⟨met, same, _⟩ | ⟨other, same, member⟩
  · cases same
  · cases same
    exact (Source.wellSpelled_drain _ _ member).visible

theorem location?_eq_blamed (fault : SourceFault) :
    (Fault.ofSource fault).diagnostic.subject.location? = fault.blamed.location := by
  cases fault <;> rfl

/-- The dashes stand right under the piece of text that a fault is about, as long as it, where the line
    is shown as it is. A token is shown in full also where blanks at the end of the line are left
    out. -/
theorem render_marker {text fileName : Text} {fault : SourceFault}
    (raised : RaisedBy text fileName fault) :
    let diagnostic := (Fault.ofSource fault).diagnostic
    ∃ place start indent width, diagnostic.subject.location? = some place ∧
      place.Exact fileName text start fault.blamed.text ∧
      let front := fileName ++ Text.ofString ":" ++ Numeral.ofInt place.lineNo ++ Text.ofString ", "
      diagnostic.render = Text.ofString "Error: " ++ diagnostic.message ++ CodePoint.newline ::
        (front ++ place.line.trimRight ++ CodePoint.newline ::
          (List.replicate indent CodePoint.space ++ List.replicate width CodePoint.hyphen)) ∧
      ((front ++ place.line).drop indent).take width = fault.blamed.text ∧
      width = fault.blamed.text.length ∧ 1 ≤ width ∧
      ∀ wrong, fault = .read wrong → diagnostic.subject = .token wrong.token ∧
        ((front ++ place.line.trimRight).drop indent).take width = fault.blamed.text := by
  intro diagnostic
  obtain ⟨start, place, located, exact⟩ := raised.exact
  obtain ⟨before, after, line, colStart⟩ := exact.split
  have positive := List.length_pos_iff.mpr exact.nonempty
  have subject : diagnostic.subject.location? = some place :=
    (location?_eq_blamed fault).trans located
  have heading : place.heading =
      fileName ++ Text.ofString ":" ++ Numeral.ofInt place.lineNo ++ Text.ofString ", " := by
    rw [Location.heading, exact.fileName]
  refine ⟨place, start, place.heading.length + before.length, fault.blamed.text.length, subject, exact,
    ?_⟩
  intro front
  have shown : ∀ rest : Text, ((front ++ (before ++ (fault.blamed.text ++ rest))).drop
      (place.heading.length + before.length)).take fault.blamed.text.length = fault.blamed.text := by
    intro rest
    rw [heading, ← List.length_append, ← List.append_assoc front, List.drop_left, List.take_left]
  refine ⟨?_, ?_, rfl, positive, ?_⟩
  · rw [Diagnostic.render, subject]
    simp only [Location.render, heading, Location.marker_eq colStart exact.colEnd positive]
    rfl
  · rw [line]
    exact shown after
  · rintro wrong rfl
    -- Only blanks behind the token can be left out, because it does not end with one.
    have visible : ∀ c ∈ (before ++ (SourceFault.read wrong).blamed.text).getLast?,
        c.isBlank = false := by
      intro c last
      rw [List.getLast?_append_of_ne_nil _ exact.nonempty] at last
      exact raised.visible c last
    rw [line, ← List.append_assoc before, Text.trimRight_append visible,
      List.append_assoc before]
    exact ⟨rfl, shown _⟩

/-- The dashes under a string count its quotes, and those under a broken string the blanks that are left
    out at the end of the line. -/
theorem render_marker_blank_end :
    (∃ fault, SchemeSyntax.read "(a . b\n \"c\"  \n)" "file" = .error fault ∧
      ∃ indent, (Fault.ofSource fault).diagnostic.render = Text.ofString "Error: Wrong pair format." ++
          CodePoint.newline :: (Text.ofString "file:2,  \"c\"" ++ CodePoint.newline ::
            (List.replicate indent CodePoint.space ++ List.replicate 3 CodePoint.hyphen)) ∧
        ((Text.ofString "file:2,  \"c\"").drop indent).take 3 = Text.ofString "\"c\"") ∧
    ∃ fault, tokenize "a\n \"b  " "file" = .error fault ∧
      ∃ indent, (Fault.scan fault).diagnostic.render = Text.ofString "Error: Unterminated string" ++
          CodePoint.newline :: (Text.ofString "file:2,  \"b" ++ CodePoint.newline ::
            (List.replicate indent CodePoint.space ++ List.replicate 4 CodePoint.hyphen)) ∧
        ((Text.ofString "file:2,  \"b  ").drop indent).take 4 = Text.ofString "\"b  " := by
  constructor
  · have failed : SchemeSyntax.read "(a . b\n \"c\"  \n)" "file" = .error (.read ⟨.wrongPair,
        ⟨.string, "c", some ⟨"file", " \"c\"  ", 2, 2, 5, 8⟩⟩⟩) := by decide +kernel
    obtain ⟨place, start, indent, width, located, _, shown, _, rfl, _, inShown⟩ :=
      render_marker (.read failed)
    cases located
    have top : Text.ofString "Error: " ++ ReadCause.message .wrongPair =
        Text.ofString "Error: Wrong pair format." := by decide +kernel
    have line : Text.ofString "file" ++ Text.ofString ":" ++ Numeral.ofInt 2 ++ Text.ofString ", " ++
        Text.trimRight " \"c\"  " = Text.ofString "file:2,  \"c\"" := by decide +kernel
    rw [← top, ← line]
    exact ⟨_, failed, indent, shown, (inShown _ rfl).2⟩
  · have failed : tokenize "a\n \"b  " "file" = .error ⟨.unterminatedString,
        ⟨"\"b  ", some ⟨"file", " \"b  ", 2, 2, 6, 3⟩⟩⟩ := by decide +kernel
    obtain ⟨place, start, indent, width, located, _, shown, inLine, rfl, _, _⟩ :=
      render_marker (.tokenize failed)
    cases located
    have top : Text.ofString "Error: " ++ Text.ofString "Unterminated string" =
        Text.ofString "Error: Unterminated string" := by decide +kernel
    have line : Text.ofString "file" ++ Text.ofString ":" ++ Numeral.ofInt 2 ++ Text.ofString ", " ++
        Text.ofString " \"b  " = Text.ofString "file:2,  \"b  " := by decide +kernel
    have trimmed : Text.ofString "file" ++ Text.ofString ":" ++ Numeral.ofInt 2 ++ Text.ofString ", " ++
        Text.trimRight " \"b  " = Text.ofString "file:2,  \"b" := by decide +kernel
    rw [← top, ← line, ← trimmed]
    exact ⟨_, failed, indent, shown, inLine⟩

end SourceFault

end SchemeSyntax
