import SchemeSyntax.Form.Stream
import SchemeSyntax.Proofs.Text.Numeral
import SchemeSyntax.Proofs.Token.Spelling

namespace SchemeSyntax

mutual

/-- The grammar of forms, each with the node that it denotes. A tail that is a list has its elements
    and its ending taken over, but an improper one needs elements in front of it. -/
inductive Form : List Terminal → Node → Prop
  | number {text : Text} {value : Int} (decimal : Numeral.Decimal text value) :
      Form [⟨.number, text⟩] (.leaf (.number value))
  | symbol (text : Text) : Form [⟨.symbol, text⟩] (.leaf (.symbol (.ofSpelling text)))
  | boolean (text : Text) : Form [⟨.boolean, text⟩] (.leaf (.boolean (text = Text.ofString "#t")))
  | string {text value : Text} (decoded : StringBody.decode text = .ok value) :
      Form [⟨.string, text⟩] (.leaf (.string value))
  | quoted {mark : Text} {terminals : List Terminal} {node : Node} (form : Form terminals node) :
      Form (⟨.quote, mark⟩ :: terminals) (.list [.leaf (.symbol (.core .quoteForm)), node] none)
  | list {left right : Text} {inside : List Terminal} {nodes : List Node}
      (forms : Forms inside nodes) :
      Form (⟨.opening, left⟩ :: (inside ++ [⟨.closing, right⟩])) (.list nodes none)
  | dotted {left dot right : Text} {inside behind : List Terminal} {nodes : List Node} {tail : Leaf}
      (forms : Forms inside nodes) (form : Form behind (.leaf tail)) :
      Form (⟨.opening, left⟩ :: (inside ++ ⟨.dot, dot⟩ :: (behind ++ [⟨.closing, right⟩])))
        (.list nodes (some tail))
  | spliced {left dot right : Text} {inside behind : List Terminal} {nodes others : List Node}
      {ending : Option Leaf} (forms : Forms inside nodes) (form : Form behind (.list others ending))
      (proper : nodes = [] → ending = none) :
      Form (⟨.opening, left⟩ :: (inside ++ ⟨.dot, dot⟩ :: (behind ++ [⟨.closing, right⟩])))
        (.list (nodes ++ others) ending)

inductive Forms : List Terminal → List Node → Prop
  | nil : Forms [] []
  | cons {first later : List Terminal} {node : Node} {nodes : List Node} (form : Form first node)
      (forms : Forms later nodes) : Forms (first ++ later) (node :: nodes)

end

theorem Forms.append {left right : List Terminal} {nodes others : List Node}
    (forms : Forms left nodes) (later : Forms right others) :
    Forms (left ++ right) (nodes ++ others) := by
  induction nodes generalizing left with
  | nil =>
    cases forms
    exact later
  | cons node nodes ih =>
    cases forms with
    | cons form forms =>
      rw [List.append_assoc]
      exact .cons form (ih forms)

theorem Forms.single {terminals : List Terminal} {node : Node} (form : Form terminals node) :
    Forms terminals [node] := by
  rw [← List.append_nil terminals]
  exact .cons form .nil

namespace Builder

theorem buildWithTail_list {builder : Builder} {others : List Node} {ending : Option Leaf}
    (proper : builder.toList = [] → ending = none) :
    builder.buildWithTail (.list others ending) = .ok (.list (builder.toList ++ others) ending) := by
  cases ending with
  | none => rfl
  | some tail =>
    have nonempty : ¬ builder.isEmpty = true := by
      rw [isEmpty_iff]
      intro empty
      cases proper empty
    rw [buildWithTail, if_neg nonempty]

theorem exists_buildWithTail {builder : Builder} {tail : Node}
    (proper : builder.toList = [] → tail.isImproperList = false) :
    ∃ whole, builder.buildWithTail tail = .ok whole := by
  cases tail with
  | leaf l => exact ⟨_, rfl⟩
  | list others ending =>
    refine ⟨_, buildWithTail_list fun empty => ?_⟩
    have ended := proper empty
    cases ending with
    | none => rfl
    | some l => cases ended

theorem eq_of_buildWithTail_list {builder : Builder} {others : List Node} {ending : Option Leaf}
    {whole : Node} (built : builder.buildWithTail (.list others ending) = .ok whole) :
    whole = .list (builder.toList ++ others) ending := by
  cases ending with
  | none => exact (Except.ok.inj built).symm
  | some l =>
    rw [buildWithTail] at built
    split at built
    · cases built
    · exact (Except.ok.inj built).symm

end Builder

/-- Goes on with more tokens, if more can be taken. -/
def Progress.run : Progress → List Token → Progress × List Token
  | .more form, tokens => form.run tokens
  | .done node, tokens => (.done node, tokens)
  | .wrong fault, tokens => (.wrong fault, tokens)

theorem Partial.run_cons (form : Partial) (token : Token) (rest : List Token) :
    form.run (token :: rest) = (form.feed token).run rest := by
  rw [Partial.run]
  cases form.feed token <;> rfl

theorem Token.decodeString_of_ok {kind : TokenKind} {text value : Text} {location : Option Location}
    (decoded : StringBody.decode text = .ok value) :
    Token.decodeString ⟨kind, text, location⟩ = .ok value := by
  rw [decodeString, decoded]
  rfl

theorem Partial.run_append (form : Partial) (tokens later : List Token) :
    form.run (tokens ++ later) = (form.run tokens).1.run ((form.run tokens).2 ++ later) := by
  induction tokens generalizing form with
  | nil => rfl
  | cons token tokens ih =>
    rw [List.cons_append, run_cons, run_cons]
    cases form.feed token with
    | more after => exact ih after
    | done node => rfl
    | wrong fault => rfl

theorem exists_tokens (terminals : List Terminal) :
    ∃ tokens : List Token, tokens.map Token.terminal = terminals :=
  ⟨terminals.map fun t => ⟨t.kind, t.text, none⟩, by simp [Function.comp_def, Token.terminal]⟩

theorem eq_cons_of_terminals {tokens : List Token} {kind : TokenKind} {text : Text}
    {later : List Terminal} (same : tokens.map Token.terminal = ⟨kind, text⟩ :: later) :
    ∃ location rest, tokens = ⟨kind, text, location⟩ :: rest ∧ rest.map Token.terminal = later := by
  obtain ⟨⟨tokenKind, tokenText, location⟩, rest, rfl, first, others⟩ := List.map_eq_cons_iff.mp same
  cases first
  exact ⟨location, rest, rfl, others⟩

theorem eq_single_of_terminals {tokens : List Token} {kind : TokenKind} {text : Text}
    (same : tokens.map Token.terminal = [⟨kind, text⟩]) :
    ∃ location, tokens = [⟨kind, text, location⟩] := by
  obtain ⟨location, rest, rfl, nothing⟩ := eq_cons_of_terminals same
  cases List.map_eq_nil_iff.mp nothing
  exact ⟨location, rfl⟩

/-- What the two ways to write a tail have in common. -/
theorem Partial.run_dotted {tokens : List Token} {left dot right : Text}
    {inside behind : List Terminal} {nodes : List Node} {node whole : Node}
    {openings : List Opening} {rest : List Token}
    (same : tokens.map Token.terminal =
      ⟨.opening, left⟩ :: (inside ++ ⟨.dot, dot⟩ :: (behind ++ [⟨.closing, right⟩])))
    (readInside : ∀ {tokens : List Token}, tokens.map Token.terminal = inside → ∀ paren elements rest,
      (form (.list paren elements :: openings)).run (tokens ++ rest) =
        (form (.list paren (elements.pushAll nodes) :: openings)).run rest)
    (readBehind : ∀ {tokens : List Token}, tokens.map Token.terminal = behind → ∀ openings rest,
      (form openings).run (tokens ++ rest) = (deliver openings node).run rest)
    (built : (Builder.empty.pushAll nodes).buildWithTail node = .ok whole) :
    (form openings).run (tokens ++ rest) = (deliver openings whole).run rest := by
  obtain ⟨location, later, rfl, afterParen⟩ := eq_cons_of_terminals same
  obtain ⟨elements, later, rfl, inner, fromDot⟩ := List.map_eq_append_iff.mp afterParen
  obtain ⟨dotLocation, later, rfl, afterDot⟩ := eq_cons_of_terminals fromDot
  obtain ⟨tail, closing, rfl, inTail, closing⟩ := List.map_eq_append_iff.mp afterDot
  obtain ⟨right, rfl⟩ := eq_single_of_terminals closing
  rw [List.cons_append, List.append_assoc, List.cons_append, List.append_assoc, run_cons]
  apply (readInside inner _ .empty _).trans
  rw [run_cons]
  apply (readBehind inTail _ _).trans
  rw [deliver, List.singleton_append, Progress.run, run_cons, feed, if_pos rfl, built]

mutual

/-- A form is read as it stands, whatever is open around it and whatever follows. -/
theorem Form.run {terminals : List Terminal} {node : Node} : Form terminals node →
    ∀ {tokens : List Token}, tokens.map Token.terminal = terminals →
      ∀ (openings : List Opening) (rest : List Token),
        (Partial.form openings).run (tokens ++ rest) = (Partial.deliver openings node).run rest
  | .number decimal, tokens, same, openings, rest => by
    obtain ⟨location, rfl⟩ := eq_single_of_terminals same
    cases Numeral.decimal_iff.mp decimal
    exact Partial.run_cons _ _ _
  | .symbol text, tokens, same, openings, rest => by
    obtain ⟨location, rfl⟩ := eq_single_of_terminals same
    exact Partial.run_cons _ _ _
  | .boolean text, tokens, same, openings, rest => by
    obtain ⟨location, rfl⟩ := eq_single_of_terminals same
    exact Partial.run_cons _ _ _
  | .string decoded, tokens, same, openings, rest => by
    obtain ⟨location, rfl⟩ := eq_single_of_terminals same
    apply (Partial.run_cons _ _ _).trans
    simp only [Partial.feed, Partial.string, Token.decodeString_of_ok decoded]
    rfl
  | .quoted form, tokens, same, openings, rest => by
    obtain ⟨location, later, rfl, inner⟩ := eq_cons_of_terminals same
    rw [List.cons_append, Partial.run_cons]
    exact form.run inner _ rest
  | .list forms, tokens, same, openings, rest => by
    obtain ⟨location, later, rfl, others⟩ := eq_cons_of_terminals same
    obtain ⟨inside, behind, rfl, inner, closing⟩ := List.map_eq_append_iff.mp others
    obtain ⟨right, rfl⟩ := eq_single_of_terminals closing
    rw [List.cons_append, List.append_assoc, Partial.run_cons]
    apply (forms.run inner _ .empty openings _).trans
    rw [List.singleton_append, Partial.run_cons]
    simp only [Partial.feed, Partial.close, Builder.build, Builder.toList_pushAll,
      Builder.toList_empty, List.nil_append]
  | .dotted forms form, tokens, same, openings, rest => by
    refine Partial.run_dotted same (fun inner paren elements => forms.run inner paren elements openings)
      form.run ?_
    rw [Builder.buildWithTail, Builder.toList_pushAll]
    rfl
  | .spliced forms form proper, tokens, same, openings, rest => by
    refine Partial.run_dotted same (fun inner paren elements => forms.run inner paren elements openings)
      form.run ?_
    rw [Builder.buildWithTail_list, Builder.toList_pushAll]
    · rfl
    · rwa [Builder.toList_pushAll]

theorem Forms.run {terminals : List Terminal} {nodes : List Node} : Forms terminals nodes →
    ∀ {tokens : List Token}, tokens.map Token.terminal = terminals →
      ∀ (paren : Token) (elements : Builder) (outer : List Opening) (rest : List Token),
        (Partial.form (.list paren elements :: outer)).run (tokens ++ rest) =
          (Partial.form (.list paren (elements.pushAll nodes) :: outer)).run rest
  | .nil, tokens, same, paren, elements, outer, rest => by
    cases List.map_eq_nil_iff.mp same
    rfl
  | .cons form forms, tokens, same, paren, elements, outer, rest => by
    obtain ⟨first, later, rfl, head, tail⟩ := List.map_eq_append_iff.mp same
    rw [List.append_assoc, form.run head, Partial.deliver, Progress.run, forms.run tail]
    rfl

end

end SchemeSyntax
