import SchemeSyntax.Proofs.Token.Draining

namespace SchemeSyntax

/-- A text as its terminals and the layout around them. -/
inductive Writing
  | ending (layout : Text)
  | piece (layout : Text) (terminal : Terminal) (later : Writing)

namespace Writing

def text : Writing → Text
  | ending layout => layout
  | piece layout terminal later => layout ++ (terminal.spelling ++ later.text)

def terminals : Writing → List Terminal
  | ending _ => []
  | piece _ terminal later => terminal :: later.terminals

/-- A word may stand in front of this: of layout, of a terminal that delimits, or of nothing. -/
def Separated : Writing → Prop
  | ending _ => True
  | piece layout terminal _ => layout ≠ [] ∨ terminal.kind.delimits = true

def Lawful : Writing → Prop
  | ending layout => Text.LayoutBefore [] layout
  | piece layout terminal later =>
    Text.LayoutBefore (terminal.spelling ++ later.text) layout ∧ terminal.WellSpelled ∧
      (terminal.kind.isWord = true → later.Separated) ∧ later.Lawful

def prepend (space : Text) : Writing → Writing
  | ending layout => ending (space ++ layout)
  | piece layout terminal later => piece (space ++ layout) terminal later

theorem text_prepend (space : Text) (writing : Writing) :
    (writing.prepend space).text = space ++ writing.text := by
  cases writing <;> simp [prepend, text]

theorem terminals_prepend (space : Text) (writing : Writing) :
    (writing.prepend space).terminals = writing.terminals := by
  cases writing <;> rfl

theorem Lawful.prepend {space : Text} {writing : Writing} (lawful : writing.Lawful)
    (isLayout : Text.LayoutBefore writing.text space) : (writing.prepend space).Lawful := by
  cases writing with
  | ending layout =>
    rw [text, ← List.append_nil layout] at isLayout
    exact isLayout.append lawful
  | piece layout terminal later => exact ⟨isLayout.append lawful.1, lawful.2⟩

end Writing

namespace Terminal

theorem WellSpelled.ne_nil {terminal : Terminal} (spelled : terminal.WellSpelled) :
    terminal.spelling ≠ [] := by
  obtain ⟨kind, text⟩ := terminal
  cases kind with
  | opening => cases spelled; nofun
  | closing => cases spelled; nofun
  | quote => cases spelled; nofun
  | string => nofun
  | number => exact TokenKind.Spells.ne_nil spelled rfl
  | symbol => exact TokenKind.Spells.ne_nil spelled rfl
  | boolean => exact TokenKind.Spells.ne_nil spelled rfl
  | dot => exact TokenKind.Spells.ne_nil spelled rfl

theorem WellSpelled.head {terminal : Terminal} (spelled : terminal.WellSpelled) :
    ∀ c ∈ terminal.spelling.head?,
      c.isDelimiter = terminal.kind.delimits ∧ c.isSpace = false ∧ c ≠ CodePoint.semicolon := by
  obtain ⟨kind, text⟩ := terminal
  have word : kind.isWord = true → ∀ c ∈ text.head?,
      c.isDelimiter = false ∧ c.isSpace = false ∧ c ≠ CodePoint.semicolon := by
    intro word c first
    have inside := TokenKind.Spells.inside spelled word c (List.mem_of_mem_head? first)
    refine ⟨inside, ?_⟩
    simp only [CodePoint.isDelimiter, Bool.or_eq_false_iff, decide_eq_false_iff_not] at inside
    exact ⟨inside.1.1.1.1, inside.1.1.1.2⟩
  cases kind with
  | opening => cases spelled; decide
  | closing => cases spelled; decide
  | quote => cases spelled; decide
  | string =>
    intro c first
    cases first
    exact ⟨rfl, rfl, by decide⟩
  | number => exact word rfl
  | symbol => exact word rfl
  | boolean => exact word rfl
  | dot => exact word rfl

theorem WellSpelled.layout_spelling {terminal : Terminal} (spelled : terminal.WellSpelled)
    (rest : Text) : Text.layout false (terminal.spelling ++ rest) = [] := by
  have head := spelled.head
  obtain ⟨c, later, written⟩ := List.exists_cons_of_ne_nil spelled.ne_nil
  rw [written] at head ⊢
  obtain ⟨_, noSpace, noComment⟩ := head c rfl
  simp [Text.layout, noSpace, noComment]

theorem WellSpelled.delimited_iff {terminal : Terminal} (spelled : terminal.WellSpelled)
    (rest : Text) : (terminal.spelling ++ rest).Delimited ↔ terminal.kind.delimits = true := by
  have head := spelled.head
  obtain ⟨c, later, written⟩ := List.exists_cons_of_ne_nil spelled.ne_nil
  rw [written] at head ⊢
  rw [← (head c rfl).1]
  constructor
  · intro stop
    exact stop c rfl
  · intro delimiter d first
    cases first
    exact delimiter

end Terminal

namespace Writing

theorem Lawful.delimited_iff {writing : Writing} (lawful : writing.Lawful) :
    writing.text.Delimited ↔ writing.Separated := by
  cases writing with
  | ending layout =>
    have stop : layout.Delimited := by
      cases layout with
      | nil => exact nofun
      | cons c rest => simpa using Text.LayoutBefore.delimited lawful nofun []
    exact ⟨fun _ => trivial, fun _ => stop⟩
  | piece layout terminal later =>
    obtain ⟨isLayout, spelled, _, _⟩ := lawful
    cases layout with
    | nil => simpa [text, Separated] using spelled.delimited_iff later.text
    | cons c rest =>
      have stop := isLayout.delimited nofun (terminal.spelling ++ later.text)
      exact ⟨fun _ => .inl nofun, fun _ => stop⟩

theorem Lawful.lex {writing : Writing} (lawful : writing.Lawful) :
    writing.text.lex = ⟨writing.terminals, none⟩ := by
  induction writing with
  | ending layout =>
    have only := Text.lex_layout lawful
    rwa [List.append_nil, Text.lex_nil] at only
  | piece layout terminal later ih =>
    obtain ⟨isLayout, spelled, separated, lawful⟩ := lawful
    have stop := fun word => lawful.delimited_iff.mpr (separated word)
    rw [text, Text.lex_layout isLayout, Text.lex_spelling spelled stop, ih lawful]
    rfl

def front : Writing → Text
  | ending layout => layout
  | piece layout _ _ => layout

theorem Lawful.layout_text {writing : Writing} (lawful : writing.Lawful) :
    Text.layout false writing.text = writing.front := by
  cases writing with
  | ending layout =>
    have whole := Text.layout_append lawful
    rwa [List.append_nil, Text.layout, List.append_nil] at whole
  | piece layout terminal later =>
    rw [text, Text.layout_append lawful.1, lawful.2.1.layout_spelling, List.append_nil]
    rfl

theorem Lawful.unique {left right : Writing} (lawful : left.Lawful) (other : right.Lawful)
    (same : left.text = right.text) : left = right := by
  induction left generalizing right with
  | ending layout =>
    have front := lawful.layout_text.symm.trans ((congrArg _ same).trans other.layout_text)
    cases right with
    | ending others => exact congrArg ending same
    | piece others terminal later =>
      cases front
      have nothing := List.self_eq_append_right.mp same
      exact absurd (List.append_eq_nil_iff.mp nothing).1 other.2.1.ne_nil
  | piece layout terminal later ih =>
    have front := lawful.layout_text.symm.trans ((congrArg _ same).trans other.layout_text)
    cases right with
    | ending others =>
      cases front
      have nothing := List.append_right_eq_self.mp same
      exact absurd (List.append_eq_nil_iff.mp nothing).1 lawful.2.1.ne_nil
    | piece others otherTerminal otherLater =>
      cases front
      obtain ⟨_, spelled, separated, lawful⟩ := lawful
      obtain ⟨_, otherSpelled, otherSeparated, other⟩ := other
      have ahead := List.append_cancel_left same
      have found := Lexeme.first?_spelling spelled fun word => lawful.delimited_iff.mpr (separated word)
      have otherFound := Lexeme.first?_spelling otherSpelled fun word =>
        other.delimited_iff.mpr (otherSeparated word)
      rw [ahead, otherFound] at found
      have terminals : otherTerminal = terminal := by
        cases terminal
        cases otherTerminal
        cases found
        rfl
      subst terminals
      rw [ih lawful other (List.append_cancel_left ahead)]

theorem Lawful.wellSpelled {writing : Writing} (lawful : writing.Lawful) :
    ∀ t ∈ writing.terminals, t.WellSpelled := by
  induction writing with
  | ending layout => exact nofun
  | piece layout terminal later ih =>
    obtain ⟨_, spelled, _, lawful⟩ := lawful
    intro t member
    rcases List.mem_cons.mp member with rfl | member
    · exact spelled
    · exact ih lawful t member

theorem lawful_of_lex {t : Text} {terminals : List Terminal} (scanned : t.lex = ⟨terminals, none⟩) :
    ∃ writing : Writing, writing.Lawful ∧ writing.text = t ∧ writing.terminals = terminals := by
  generalize size : t.length = n
  induction n using Nat.strongRecOn generalizing t terminals with
  | ind n ih =>
    cases found : Lexeme.first? t with
    | none =>
      rw [Text.lex_end found] at scanned
      cases scanned
      exact ⟨ending [], .nil, (Lexeme.eq_nil_of_first? found).symm, rfl⟩
    | some lexeme =>
      have shorter := Lexeme.length_drop_lt found
      rw [size] at shorter
      cases lexeme with
      | token kind text =>
        obtain ⟨rest, rfl, spelled, stop⟩ := Lexeme.spells_of_first? found
        rw [Text.lex_token found, List.drop_left] at scanned
        rw [Lexeme.spelling, List.drop_left] at shorter
        obtain ⟨later, lexed, rfl⟩ : ∃ later, rest.lex = ⟨later, none⟩ ∧
            terminals = ⟨kind, text⟩ :: later := by
          cases lexed : rest.lex
          rw [lexed] at scanned
          cases scanned
          exact ⟨_, rfl, rfl⟩
        obtain ⟨later, lawful, rfl, rfl⟩ := ih _ shorter lexed rfl
        refine ⟨piece [] ⟨kind, text⟩ later, ⟨.nil, spelled, ?_, lawful⟩, rfl, rfl⟩
        exact fun word => lawful.delimited_iff.mp (stop word)
      | layout w =>
        obtain ⟨rest, same, _, isLayout⟩ := (Text.layoutBefore_layout t).1
        rw [← Lexeme.eq_layout_of_first? found] at same isLayout
        rw [Text.lex_blank found, same, List.drop_left] at scanned
        rw [Lexeme.spelling, same, List.drop_left] at shorter
        obtain ⟨later, lawful, rfl, rfl⟩ := ih _ shorter scanned rfl
        refine ⟨later.prepend w, lawful.prepend isLayout, ?_, terminals_prepend w later⟩
        rw [text_prepend, same]
      | fault cause text =>
        rw [Text.lex_fault found] at scanned
        cases scanned

end Writing

/-- Scanning accepts exactly what the lexical grammar writes, and the grammar takes a text apart in
    one way only: layout never decides which tokens are found. -/
theorem tokenize_iff_writing (text fileName : Text) :
    (∀ terminals : List Terminal,
      (∃ tokens, tokenize text fileName = .ok tokens ∧ tokens.map Token.terminal = terminals) ↔
        ∃ writing : Writing, writing.Lawful ∧ writing.text = text ∧ writing.terminals = terminals) ∧
    (∀ left right : Writing, left.Lawful → right.Lawful → left.text = text → right.text = text →
      left = right) ∧
    ∀ left right : Writing, left.Lawful → right.Lawful → left.terminals = right.terminals →
      ∃ tokens others, tokenize left.text fileName = .ok tokens ∧
        tokenize right.text fileName = .ok others ∧
          tokens.map Token.terminal = others.map Token.terminal := by
  refine ⟨?_, ?_, ?_⟩
  · intro terminals
    rw [tokenize_iff_lex]
    constructor
    · exact Writing.lawful_of_lex
    · intro written
      obtain ⟨writing, lawful, rfl, rfl⟩ := written
      exact lawful.lex
  · intro left right lawful other first second
    exact lawful.unique other (first.trans second.symm)
  · intro left right lawful other same
    obtain ⟨tokens, scanned, terminals⟩ := (tokenize_iff_lex left.text fileName _).mpr lawful.lex
    obtain ⟨others, otherScanned, otherTerminals⟩ :=
      (tokenize_iff_lex right.text fileName _).mpr other.lex
    exact ⟨tokens, others, scanned, otherScanned, by rw [terminals, otherTerminals, same]⟩

theorem tokenize_iff_writing_commented : ∃ tokens others,
    tokenize "(a;c\n\"x\")" "file" = .ok tokens ∧ tokenize " ( a\"x\" )" "file" = .ok others ∧
      tokens.map Token.terminal = others.map Token.terminal := by
  let commented : Writing :=
    .piece [] ⟨.opening, "("⟩ (.piece [] ⟨.symbol, "a"⟩ (.piece ";c\n" ⟨.string, "x"⟩
      (.piece [] ⟨.closing, ")"⟩ (.ending []))))
  let spaced : Writing :=
    .piece " " ⟨.opening, "("⟩ (.piece " " ⟨.symbol, "a"⟩ (.piece [] ⟨.string, "x"⟩
      (.piece " " ⟨.closing, ")"⟩ (.ending []))))
  have symbol : TokenKind.symbol.Spells "a" := (Text.spellsSymbol_iff _).mp (by decide)
  have body : Text.IsBody "x" := .plain (by decide) (by decide) (by decide) .nil
  have comment : Text.LayoutBefore "\"x\")" ";c\n" := by
    have ended : Text.LineEnds (Text.ofString "\n" ++ Text.ofString "\"x\")") := by
      intro d first
      cases first
      rfl
    have sameLine : CodePoint.newline ∉ Text.ofString "c" := by decide
    exact .comment sameLine ended (.space rfl .nil)
  have space : ∀ later, Text.LayoutBefore later " " := fun _ => .space rfl .nil
  have lawful : commented.Lawful :=
    ⟨.nil, rfl, nofun, .nil, symbol, fun _ => .inl nofun, comment, body, nofun, .nil, rfl, nofun, .nil⟩
  have other : spaced.Lawful :=
    ⟨space _, rfl, nofun, space _, symbol, fun _ => .inr rfl, .nil, body, nofun, space _, rfl, nofun, .nil⟩
  exact (tokenize_iff_writing [] "file").2.2 commented spaced lawful other rfl

end SchemeSyntax
