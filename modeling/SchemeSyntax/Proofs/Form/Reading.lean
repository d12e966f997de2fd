import SchemeSyntax.Proofs.Form.Outcome
import SchemeSyntax.Proofs.Token.Draining

namespace SchemeSyntax

namespace TokenStream

theorem readForm_of_form {terminals : List Terminal} {node : Node} (form : Form terminals node)
    {tokens : List Token} (same : tokens.map Token.terminal = terminals) (rest : List Token)
    (fault : Option ScanFault) :
    (⟨tokens ++ rest, fault⟩ : TokenStream).readForm = (.form node, ⟨rest, fault⟩) := by
  have ran : Partial.start.run (tokens ++ rest) = (.done node, rest) := form.run same [] rest
  simp only [readForm, ran]

/-- A part of a form is not refused, so the scanning fault behind it is met. -/
theorem readForm_of_part {tokens : List Token} {terminal : Terminal} {behind : List Terminal}
    {node : Node} (form : Form (tokens.map Token.terminal ++ terminal :: behind) node)
    (fault : ScanFault) :
    (⟨tokens, some fault⟩ : TokenStream).readForm = (.failed (.scan fault), ended) := by
  obtain ⟨missing, spelled⟩ := exists_tokens (terminal :: behind)
  have same : (tokens ++ missing).map Token.terminal =
      tokens.map Token.terminal ++ terminal :: behind := by
    rw [List.map_append, spelled]
  have whole : Partial.start.run (tokens ++ missing) = (.done node, []) := by
    have ran := form.run same [] []
    rwa [List.append_nil] at ran
  rw [Partial.run_append] at whole
  cases ran : Partial.start.run tokens with
  | mk progress rest =>
    rw [ran] at whole
    cases progress with
    | more unfinished => simp only [readForm, ran]
    | done other =>
      have nothing := (List.append_eq_nil_iff.mp (Prod.mk.inj whole).2).2
      rw [nothing] at spelled
      cases spelled
    | wrong other => exact Progress.noConfusion (Prod.mk.inj whole).1

/-- Forms at the front of a stream are read first, and then what is behind them. -/
theorem readForms_append {nodes : List Node} {tokens : List Token}
    (forms : Forms (tokens.map Token.terminal) nodes) (later : List Token) (fault : Option ScanFault) :
    (⟨tokens ++ later, fault⟩ : TokenStream).readForms =
      ((⟨later, fault⟩ : TokenStream).readForms.1.map (nodes ++ ·),
        (⟨later, fault⟩ : TokenStream).readForms.2) := by
  generalize same : tokens.map Token.terminal = terminals at forms
  induction nodes generalizing tokens terminals with
  | nil =>
    cases forms
    cases List.map_eq_nil_iff.mp same
    rw [List.nil_append]
    cases (⟨later, fault⟩ : TokenStream).readForms with
    | mk outcome after => cases outcome <;> rfl
  | cons node nodes ih =>
    cases forms with
    | cons form forms =>
      obtain ⟨taken, rest, rfl, first, others⟩ := List.map_eq_append_iff.mp same
      have found := readForm_of_form form first (rest ++ later) fault
      rw [List.append_assoc, readForms_of_form found, ih _ others forms]
      cases (⟨later, fault⟩ : TokenStream).readForms.1 <;> rfl

theorem readForms_of_forms {nodes : List Node} {tokens : List Token}
    (forms : Forms (tokens.map Token.terminal) nodes) :
    (⟨tokens, none⟩ : TokenStream).readForms = (.ok nodes, ended) := by
  have finished : ended.readForms = (.ok [], ended) := readForms_of_finished rfl
  have whole := readForms_append forms [] none
  rw [List.append_nil] at whole
  rw [whole, ← ended, finished]
  exact congrArg (Except.ok ·, ended) (List.append_nil nodes)

theorem forms_of_readForms {stream : TokenStream} {nodes : List Node}
    (read : stream.readForms.1 = .ok nodes) :
    stream.fault = none ∧ Forms (stream.tokens.map Token.terminal) nodes := by
  rcases readForms_outcome stream with ⟨others, accepted, forms⟩ | ⟨_, _, _, _, _, _, refused, _⟩
  · rw [accepted] at read
    cases read
    exact forms
  · rw [refused] at read
    cases read

theorem read_of_readForms {stream : TokenStream} (sound : stream.fault = none) {fault : SourceFault}
    (read : stream.readForms.1 = .error fault) : ∃ readFault, fault = .read readFault := by
  rcases mem_of_readForms read with ⟨met, _, stored⟩ | ⟨wrong, same, _⟩
  · cases sound.symm.trans stored
  · exact ⟨wrong, same⟩

end TokenStream

theorem TokenStream.lexing_ofText (text fileName : Text) :
    (⟨(ofText text fileName).tokens.map Token.terminal, (ofText text fileName).fault.map ScanFault.cause⟩
      : Lexing) = text.lex := by
  have sound : (Source.ofText text fileName).fault = none := rfl
  exact Source.lexing_eq_lex sound

theorem read_of_lex {text fileName : Text} {terminals : List Terminal} {nodes : List Node}
    (found : text.lex = ⟨terminals, none⟩) (forms : Forms terminals nodes) :
    read text fileName = .ok nodes := by
  rw [← TokenStream.lexing_ofText text fileName] at found
  unfold read
  generalize TokenStream.ofText text fileName = stream at found ⊢
  obtain ⟨tokens, fault⟩ := stream
  obtain ⟨rfl, sound⟩ := Lexing.mk.inj found
  cases Option.map_eq_none_iff.mp sound
  rw [TokenStream.readForms_of_forms forms]

theorem read_of_part {text fileName : Text} {terminals behind : List Terminal} {terminal : Terminal}
    {node : Node} {cause : ScanCause} (found : text.lex = ⟨terminals, some cause⟩)
    (form : Form (terminals ++ terminal :: behind) node) :
    ∃ fault, read text fileName = .error (.scan fault) ∧ fault.cause = cause := by
  rw [← TokenStream.lexing_ofText text fileName] at found
  unfold read
  generalize TokenStream.ofText text fileName = stream at found ⊢
  obtain ⟨tokens, fault⟩ := stream
  obtain ⟨rfl, blamed⟩ := Lexing.mk.inj found
  obtain ⟨fault, rfl, same⟩ := Option.map_eq_some_iff.mp blamed
  refine ⟨fault, ?_, same⟩
  rw [TokenStream.readForms_of_failed (TokenStream.readForm_of_part form fault)]

theorem lex_of_read {text fileName : Text} {nodes : List Node} (accepted : read text fileName = .ok nodes) :
    ∃ terminals, text.lex = ⟨terminals, none⟩ ∧ Forms terminals nodes := by
  obtain ⟨sound, forms⟩ := TokenStream.forms_of_readForms accepted
  refine ⟨_, ?_, forms⟩
  rw [← TokenStream.lexing_ofText text fileName, sound]
  rfl

theorem stream_of_tokenize {text fileName : Text} {tokens : List Token}
    (scanned : tokenize text fileName = .ok tokens) :
    TokenStream.ofText text fileName = ⟨tokens, none⟩ := by
  simp only [tokenize, Source.tokens] at scanned
  split at scanned
  · next sound =>
    cases scanned
    rw [TokenStream.ofText, TokenStream.ofSource, sound]
  · cases scanned

/-- Reading accepts exactly the sequences of forms and gives the nodes that they denote. Any other
    text that can be scanned is refused by the reader. -/
theorem read_iff_forms {text fileName : Text} {tokens : List Token}
    (scanned : tokenize text fileName = .ok tokens) :
    (∀ nodes : List Node,
      read text fileName = .ok nodes ↔ Forms (tokens.map Token.terminal) nodes) ∧
    ((∀ nodes : List Node, ¬ Forms (tokens.map Token.terminal) nodes) →
      ∃ fault, read text fileName = .error (.read fault)) := by
  rw [read, stream_of_tokenize scanned]
  have accepts : ∀ nodes : List Node,
      (⟨tokens, none⟩ : TokenStream).readForms.1 = .ok nodes ↔
        Forms (tokens.map Token.terminal) nodes := by
    intro nodes
    constructor
    · intro read
      exact (TokenStream.forms_of_readForms read).2
    · intro forms
      rw [TokenStream.readForms_of_forms forms]
  refine ⟨accepts, ?_⟩
  intro none
  cases outcome : (⟨tokens, .none⟩ : TokenStream).readForms.1 with
  | ok nodes => exact absurd ((accepts nodes).mp outcome) (none nodes)
  | error fault =>
    obtain ⟨readFault, rfl⟩ := TokenStream.read_of_readForms rfl outcome
    exact ⟨readFault, rfl⟩

theorem read_iff_forms_spliced :
    (∃ tokens, tokenize "(-120 . ('b +305 007))" "file" = .ok tokens ∧
      read "(-120 . ('b +305 007))" "file" = .ok [.list [.leaf (.number (-120)),
        .quoted (.leaf (.symbol (.defined "b"))), .leaf (.number 305), .leaf (.number 7)] none]) ∧
    ∃ tokens, tokenize "( . (a . b))" "file" = .ok tokens ∧
      ∃ fault, read "( . (a . b))" "file" = .error (.read fault) := by
  constructor
  · obtain ⟨tokens, scanned, same⟩ := (tokenize_iff_lex "(-120 . ('b +305 007))" "file"
      [⟨.opening, "("⟩, ⟨.number, "-120"⟩, ⟨.dot, "."⟩, ⟨.opening, "("⟩, ⟨.quote, "'"⟩, ⟨.symbol, "b"⟩,
        ⟨.number, "+305"⟩, ⟨.number, "007"⟩, ⟨.closing, ")"⟩, ⟨.closing, ")"⟩]).mpr (by decide +kernel)
    have front : Numeral.Decimal "-120" (-120) := .minus (Text.ofString "120")
    have middle : Numeral.Decimal "+305" 305 := .plus (Text.ofString "305")
    have last : Numeral.Decimal "007" 7 := .unsigned (by decide)
    have marked : Form [⟨.quote, "'"⟩, ⟨.symbol, "b"⟩] (.quoted (.leaf (.symbol (.defined "b")))) :=
      .quoted (.symbol "b")
    have elements := Forms.cons marked (.cons (.number middle) (.single (.number last)))
    refine ⟨tokens, scanned, ((read_iff_forms scanned).1 _).mpr ?_⟩
    rw [same]
    exact .single (.spliced (.single (.number front)) (.list elements) nofun)
  · obtain ⟨tokens, scanned, _⟩ := (tokenize_iff_lex "( . (a . b))" "file"
      [⟨.opening, "("⟩, ⟨.dot, "."⟩, ⟨.opening, "("⟩, ⟨.symbol, "a"⟩, ⟨.dot, "."⟩, ⟨.symbol, "b"⟩,
        ⟨.closing, ")"⟩, ⟨.closing, ")"⟩]).mpr (by decide +kernel)
    obtain ⟨accepts, refuses⟩ := read_iff_forms scanned
    refine ⟨tokens, scanned, refuses fun nodes forms => ?_⟩
    have accepted := (accepts nodes).mpr forms
    have refused : (read "( . (a . b))" "file").isOk = false := by decide +kernel
    rw [accepted] at refused
    cases refused

end SchemeSyntax
