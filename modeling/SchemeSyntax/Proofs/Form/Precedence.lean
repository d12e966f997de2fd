import SchemeSyntax.Diagnostic
import SchemeSyntax.Proofs.Form.Reading
import SchemeSyntax.Proofs.Token.Continuation

namespace SchemeSyntax

/-- What is wrong is only that the tokens have run out. -/
def ReadCause.isShortage : ReadCause → Bool
  | unterminatedList => true
  | nothingToQuote => true
  | _ => false

theorem StringBody.EscapeFault.message_ne (fault : EscapeFault) :
    fault.message ≠ "Unterminated list." ∧ fault.message ≠ "Nothing to quote." := by
  have begins : fault.message.take 3 = Text.ofString "Inv" ∨
      fault.message.take 3 = Text.ofString "Unk" := by
    obtain ⟨cause, spelling⟩ := fault
    cases cause with
    | outOfRange => exact .inl rfl
    | unknown => exact .inr rfl
  constructor
  · intro same
    rw [same] at begins
    revert begins
    decide
  · intro same
    rw [same] at begins
    revert begins
    decide

theorem ReadCause.message_of_not_isShortage {cause : ReadCause} (plain : cause.isShortage = false) :
    cause.message ≠ "Unterminated list." ∧ cause.message ≠ "Nothing to quote." := by
  cases cause with
  | unterminatedList => cases plain
  | nothingToQuote => cases plain
  | unexpectedClosing => decide
  | unexpectedDot => decide
  | wrongPair => decide
  | badEscape fault => exact fault.message_ne

theorem ReadCause.isShortage_iff {cause : ReadCause} : cause.isShortage = true ↔
    cause.message = "Unterminated list." ∨ cause.message = "Nothing to quote." := by
  constructor
  · intro short
    cases cause with
    | unterminatedList => exact .inl rfl
    | nothingToQuote => exact .inr rfl
    | unexpectedClosing => cases short
    | unexpectedDot => cases short
    | wrongPair => cases short
    | badEscape fault => cases short
  · intro message
    cases plain : cause.isShortage with
    | true => rfl
    | false =>
      obtain ⟨noList, noQuote⟩ := message_of_not_isShortage plain
      rcases message with same | same
      · exact absurd same noList
      · exact absurd same noQuote

/-- A token that is there is never refused for want of another one. -/
def Progress.Definite : Progress → Prop
  | .wrong fault => fault.cause.isShortage = false
  | .more _ => True
  | .done _ => True

namespace Partial

theorem definite_deliver (openings : List Opening) (node : Node) :
    (deliver openings node).Definite := by
  induction openings generalizing node with
  | nil => trivial
  | cons opening outer ih =>
    cases opening with
    | quote mark => exact ih (.quoted node)
    | list paren elements => trivial
    | tail paren dot elements => trivial

theorem definite_close (openings : List Opening) (token : Token) :
    (close openings token).Definite := by
  unfold close
  split
  · exact definite_deliver _ _
  · rfl
  · rfl

theorem definite_dot (openings : List Opening) (token : Token) : (dot openings token).Definite := by
  unfold dot
  split
  · trivial
  · rfl
  · rfl

theorem definite_string (openings : List Opening) (token : Token) :
    (string openings token).Definite := by
  unfold string Token.decodeString
  cases StringBody.decode token.text with
  | ok value => exact definite_deliver _ _
  | error fault => rfl

theorem definite_feed (form : Partial) (token : Token) : (form.feed token).Definite := by
  cases form with
  | form openings =>
    obtain ⟨kind, text, location⟩ := token
    cases kind with
    | opening => trivial
    | quote => trivial
    | number => exact definite_deliver _ _
    | symbol => exact definite_deliver _ _
    | boolean => exact definite_deliver _ _
    | string => exact definite_string _ _
    | closing => exact definite_close _ _
    | dot => exact definite_dot _ _
  | closing paren dot elements tail openings =>
    simp only [feed]
    split
    · split
      · exact definite_deliver _ _
      · rfl
    · rfl

theorem definite_run {tokens : List Token} {progress : Progress}
    (ran : start.run tokens = (progress, [])) : progress.Definite :=
  run_induct (motive := fun _ progress => progress.Definite) trivial
    (fun _ form token _ => definite_feed form token) ran

theorem isShortage_of_shortfall? {form : Partial} {fault : ReadFault}
    (short : form.shortfall? = some fault) : fault.cause.isShortage = true := by
  unfold shortfall? at short
  split at short <;> cases short <;> rfl

end Partial

namespace TokenStream

theorem readForm_of_wrong {tokens : List Token} {wrong : ReadFault}
    (ran : Partial.start.run tokens = (.wrong wrong, [])) (rest : List Token)
    (fault : Option ScanFault) :
    (⟨tokens ++ rest, fault⟩ : TokenStream).readForm = (.failed (.read wrong), ⟨rest, fault⟩) := by
  have again : Partial.start.run (tokens ++ rest) = (.wrong wrong, rest) := by
    rw [Partial.run_append, ran]
    rfl
  simp only [readForm, again]

theorem readForm_of_more {tokens : List Token} {form : Partial}
    (ran : Partial.start.run tokens = (.more form, [])) (fault : ScanFault) :
    (⟨tokens, some fault⟩ : TokenStream).readForm = (.failed (.scan fault), ended) := by
  simp only [readForm, ran]

theorem readForms_of_part {earlier rest : List Token} {nodes : List Node} {fault : Option ScanFault}
    {failure : SourceFault} {after : TokenStream} (forms : Forms (earlier.map Token.terminal) nodes)
    (failed : (⟨rest, fault⟩ : TokenStream).readForm = (.failed failure, after)) :
    (⟨earlier ++ rest, fault⟩ : TokenStream).readForms.1 = .error failure := by
  rw [readForms_append forms, readForms_of_failed failed]
  rfl

/-- Tokens that are refused are refused whatever follows, or all that they lack is the rest of their
    last form. -/
theorem readForms_refused {tokens : List Token} {wrong : ReadFault}
    (refused : (⟨tokens, none⟩ : TokenStream).readForms.1 = .error (.read wrong)) :
    (wrong.cause.isShortage = false ∧
      ∀ later fault, (⟨tokens ++ later, fault⟩ : TokenStream).readForms.1 = .error (.read wrong)) ∨
    wrong.cause.isShortage = true ∧ ∃ earlier part nodes form, tokens = earlier ++ part ∧
      Forms (earlier.map Token.terminal) nodes ∧ Partial.start.run part = (.more form, []) := by
  rcases readForms_outcome ⟨tokens, none⟩ with ⟨nodes, accepted, _⟩ |
    ⟨earlier, rest, part, nodes, failure, after, failed, rfl, forms, outcome⟩
  · rw [accepted] at refused
    cases refused
  · rw [failed] at refused
    cases refused
    cases outcome with
    | @wrong _ behind _ split ran =>
      obtain rfl : rest = part ++ behind := split
      refine .inl ⟨Partial.definite_run ran, fun later fault => ?_⟩
      rw [List.append_assoc, List.append_assoc]
      exact readForms_of_part forms (readForm_of_wrong ran _ fault)
    | @short form _ _ ran short =>
      exact .inr ⟨Partial.isShortage_of_shortfall? short, earlier, _, nodes, form, rfl, forms, ran⟩

/-- A scanning fault behind the tokens is met, unless one of the tokens is refused before. That the
    tokens run out is not reported then. -/
theorem readForms_of_fault (tokens : List Token) (fault : ScanFault) :
    (∃ wrong, (⟨tokens, none⟩ : TokenStream).readForms.1 = .error (.read wrong) ∧
      wrong.cause.isShortage = false ∧
        (⟨tokens, some fault⟩ : TokenStream).readForms.1 = .error (.read wrong)) ∨
    (∀ wrong, (⟨tokens, none⟩ : TokenStream).readForms.1 = .error (.read wrong) →
      wrong.cause.isShortage = true) ∧
        (⟨tokens, some fault⟩ : TokenStream).readForms.1 = .error (.scan fault) := by
  cases alone : (⟨tokens, none⟩ : TokenStream).readForms.1 with
  | ok nodes =>
    have nothing : (⟨[], some fault⟩ : TokenStream).readForm = (.failed (.scan fault), ended) :=
      readForm_of_more rfl fault
    have broken := readForms_of_part (forms_of_readForms alone).2 nothing
    rw [List.append_nil] at broken
    refine .inr ⟨fun wrong impossible => ?_, broken⟩
    cases impossible
  | error failure =>
    obtain ⟨wrong, rfl⟩ := read_of_readForms rfl alone
    rcases readForms_refused alone with ⟨definite, always⟩ |
      ⟨short, earlier, part, nodes, form, rfl, forms, ran⟩
    · have same := always [] (some fault)
      rw [List.append_nil] at same
      exact .inl ⟨wrong, rfl, definite, same⟩
    · refine .inr ⟨fun other same => ?_, readForms_of_part forms (readForm_of_more ran fault)⟩
      cases same
      exact short

end TokenStream

theorem ScanCause.kind_mem (cause : ScanCause) :
    cause.kind ∈ [FaultKind.unexpectedEnd, FaultKind.unknownToken] := by
  cases cause <;> decide

/-- Reading gives the forms of a text, its scanning fault or a fault about one of its tokens, and
    nothing else. Where the scan fails, a token before that place that fits nowhere is blamed, as it
    would be without the fault behind it. Otherwise the scanning fault is given as it is, and never a
    want of tokens. -/
theorem read_precedence (text fileName : Text) :
    (∀ failure, read text fileName = .error failure →
      (∃ fault, failure = .scan fault ∧ tokenize text fileName = .error fault ∧
        (Fault.ofSource failure).diagnostic.kind ∈ [FaultKind.unexpectedEnd, FaultKind.unknownToken]) ∨
      ∃ wrong, failure = .read wrong ∧ wrong.token ∈ (Source.ofText text fileName).drain.1 ∧
        (Fault.ofSource failure).diagnostic.kind = .read) ∧
    ∀ fault, tokenize text fileName = .error fault →
      let alone := (⟨(Source.ofText text fileName).drain.1, none⟩ : TokenStream).readForms.1
      (∀ wrong, alone = .error (.read wrong) → wrong.cause.isShortage = false →
        read text fileName = .error (.read wrong)) ∧
      ((∀ wrong, alone = .error (.read wrong) → wrong.cause.isShortage = true) →
        read text fileName = .error (.scan fault)) ∧
      ∀ wrong, read text fileName = .error (.read wrong) →
        wrong.message ≠ "Unterminated list." ∧ wrong.message ≠ "Nothing to quote." := by
  constructor
  · intro failure failed
    rcases TokenStream.mem_of_readForms failed with ⟨fault, rfl, met⟩ | ⟨wrong, rfl, member⟩
    · exact .inl ⟨fault, rfl, tokenize_eq_error_iff.mpr met, fault.cause.kind_mem⟩
    · exact .inr ⟨wrong, rfl, member, rfl⟩
  · intro fault failed alone
    have stream : TokenStream.ofText text fileName =
        ⟨(Source.ofText text fileName).drain.1, some fault⟩ := by
      rw [← tokenize_eq_error_iff.mp failed]
      rfl
    rw [read, stream]
    rcases TokenStream.readForms_of_fault (Source.ofText text fileName).drain.1 fault with
      ⟨wrong, refused, definite, same⟩ | ⟨short, broken⟩
    · have unique : ∀ other, alone = .error (.read other) → other = wrong := by
        intro other found
        cases found.symm.trans refused
        rfl
      refine ⟨?_, ?_, ?_⟩
      · intro other found _
        rw [unique other found, same]
      · intro all
        cases definite.symm.trans (all wrong refused)
      · intro other found
        cases found.symm.trans same
        exact ReadCause.message_of_not_isShortage definite
    · refine ⟨?_, fun _ => broken, ?_⟩
      · intro wrong found definite
        cases definite.symm.trans (short wrong found)
      · intro wrong found
        cases found.symm.trans broken

theorem read_precedence_nested :
    read "(a . ('#x" "file" = .error (.scan ⟨.unknown, "#x", some ⟨"file", "(a . ('#x", 1, 8, 10, 7⟩⟩) ∧
    ∃ wrong, read "(a . ) #x" "file" = .error (.read wrong) ∧ wrong.cause = .wrongPair := by
  constructor
  · have failed : tokenize "(a . ('#x" "file" =
        .error ⟨.unknown, "#x", some ⟨"file", "(a . ('#x", 1, 8, 10, 7⟩⟩ :=
      tokenize_eq_error_iff.mpr (by decide +kernel)
    refine ((read_precedence "(a . ('#x" "file").2 _ failed).2.1 fun wrong found => ?_
    have short : (match (⟨(Source.ofText "(a . ('#x" "file").drain.1, none⟩ : TokenStream).readForms.1 with
        | .error (.read wrong) => wrong.cause.isShortage
        | _ => true) = true := by decide +kernel
    rwa [found] at short
  · have failed : tokenize "(a . ) #x" "file" =
        .error ⟨.unknown, "#x", some ⟨"file", "(a . ) #x", 1, 8, 10, 7⟩⟩ :=
      tokenize_eq_error_iff.mpr (by decide +kernel)
    have cause : (match (⟨(Source.ofText "(a . ) #x" "file").drain.1, none⟩ : TokenStream).readForms.1 with
        | .error (.read wrong) => some wrong.cause
        | _ => none) = some .wrongPair := by decide +kernel
    split at cause
    · next wrong refused =>
      have wrongPair := Option.some.inj cause
      have definite : wrong.cause.isShortage = false := by
        rw [wrongPair]
        rfl
      exact ⟨wrong, ((read_precedence "(a . ) #x" "file").2 _ failed).1 wrong refused definite, wrongPair⟩
    · cases cause

end SchemeSyntax
