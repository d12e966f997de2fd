import SchemeSyntax.Proofs.Node.Printing

namespace SchemeSyntax

/-- A string cannot be scanned where a newline is written in it. -/
def Terminal.IsBroken (terminal : Terminal) : Prop :=
  terminal.kind = .string ∧ CodePoint.newline ∈ terminal.text

instance : DecidablePred Terminal.IsBroken := fun _ => inferInstanceAs (Decidable (_ ∧ _))

namespace Lexing

/-- What is found in terminals and then in the text behind them. A broken string is the end of it. -/
def prepend : List Terminal → Lexing → Lexing
  | [], later => later
  | terminal :: terminals, later =>
    if terminal.IsBroken then ⟨[], some .unknown⟩ else (prepend terminals later).cons terminal

theorem prepend_append (left right : List Terminal) (later : Lexing) :
    prepend (left ++ right) later = prepend left (prepend right later) := by
  induction left with
  | nil => rfl
  | cons terminal left ih => rw [List.cons_append, prepend, prepend, ih]

theorem prepend_of_sound {terminals : List Terminal} (sound : ∀ t ∈ terminals, ¬ t.IsBroken)
    (later : Lexing) : prepend terminals later = ⟨terminals ++ later.terminals, later.cause⟩ := by
  induction terminals with
  | nil => rfl
  | cons terminal terminals ih =>
    obtain ⟨head, others⟩ := List.forall_mem_cons.mp sound
    rw [prepend, if_neg head, ih others]
    rfl

theorem prepend_of_broken {terminals : List Terminal} (broken : ∃ t ∈ terminals, t.IsBroken)
    (later : Lexing) : ∃ before terminal after, terminals = before ++ terminal :: after ∧
      prepend terminals later = ⟨before, some .unknown⟩ := by
  induction terminals with
  | nil => simp at broken
  | cons terminal terminals ih =>
    by_cases here : terminal.IsBroken
    · exact ⟨[], terminal, terminals, rfl, if_pos here⟩
    · have behind : ∃ t ∈ terminals, t.IsBroken := by simpa [here] using broken
      obtain ⟨before, first, after, rfl, found⟩ := ih behind
      refine ⟨terminal :: before, first, after, rfl, ?_⟩
      rw [prepend, if_neg here, found]
      rfl

end Lexing

theorem Text.lex_space (rest : Text) : lex (CodePoint.space :: rest) = lex rest :=
  lex_layout (.space (by decide) .nil)

theorem Text.lex_escape_of_newline {value : Text} (newline : CodePoint.newline ∈ value) (rest : Text) :
    lex (CodePoint.doubleQuote :: (StringBody.escape value ++ rest)) = ⟨[], some .unknown⟩ := by
  have broken := StringBody.stringEnd_escape_of_newline newline rest
  have first : ∀ t, Lexeme.first? (CodePoint.doubleQuote :: t) = some (Lexeme.ofString t) :=
    fun _ => rfl
  have found : Lexeme.first? (CodePoint.doubleQuote :: (StringBody.escape value ++ rest)) =
      some (.fault .unknown [CodePoint.doubleQuote]) := by
    rw [first, Lexeme.ofString, broken]
  exact lex_fault found

theorem Text.delimited_cons {c : CodePoint} (delimiter : c.isDelimiter = true) (rest : Text) :
    Delimited (c :: rest) := by
  intro d first
  cases first
  exact delimiter

namespace Terminal

/-- In front of a delimiter the terminal is found, or is where scanning fails. -/
def Scans (terminal : Terminal) : Prop :=
  ∀ rest : Text, rest.Delimited →
    Text.lex (terminal.spelling ++ rest) = Lexing.prepend [terminal] (Text.lex rest)

theorem WellSpelled.not_isBroken {terminal : Terminal} (spelled : terminal.WellSpelled) :
    ¬ terminal.IsBroken := by
  obtain ⟨kind, text⟩ := terminal
  intro broken
  obtain ⟨string, newline⟩ := broken
  cases string
  exact Text.IsBody.sameLine spelled newline

theorem WellSpelled.lex {terminal : Terminal} (spelled : terminal.WellSpelled) {rest : Text}
    (stop : terminal.kind.isWord = true → rest.Delimited) :
    Text.lex (terminal.spelling ++ rest) = Lexing.prepend [terminal] (Text.lex rest) := by
  rw [Text.lex_spelling spelled stop, Lexing.prepend, if_neg spelled.not_isBroken]
  rfl

theorem WellSpelled.scans {terminal : Terminal} (spelled : terminal.WellSpelled) : terminal.Scans :=
  fun _ stop => spelled.lex fun _ => stop

end Terminal

namespace Leaf

theorem wellSpelled_number (value : Int) : Terminal.WellSpelled ⟨.number, Numeral.ofInt value⟩ := by
  cases value with
  | ofNat n =>
    exact ⟨[], Numeral.ofNat n, rfl, .inl rfl, Numeral.ofNat_ne_nil n, Numeral.isDigit_of_mem_ofNat⟩
  | negSucc n =>
    exact ⟨Text.ofString "-", Numeral.ofNat (n + 1), rfl, .inr (.inr rfl), Numeral.ofNat_ne_nil _,
      Numeral.isDigit_of_mem_ofNat⟩

theorem Spellable.wellSpelled {l : Leaf} (spellable : l.Spellable) {escape : Text → Text}
    (isBody : ∀ value, l = string value → (escape value).IsBody) :
    (l.terminal escape).WellSpelled := by
  cases l with
  | number value => exact wellSpelled_number value
  | symbol s => exact spellable
  | string value => exact isBody value rfl
  | boolean value =>
    cases value with
    | true => exact .inl rfl
    | false => exact .inr rfl
  | unclassified value => cases spellable

/-- A string is printed on one line unless it holds a newline. -/
def OnOneLine : Leaf → Prop
  | string value => CodePoint.newline ∉ value
  | _ => True

instance : DecidablePred OnOneLine
  | string value => inferInstanceAs (Decidable (CodePoint.newline ∉ value))
  | number _ | symbol _ | boolean _ | unclassified _ => .isTrue trivial

theorem isBroken_terminal_iff (l : Leaf) :
    (l.terminal StringBody.escape).IsBroken ↔ ¬ l.OnOneLine := by
  cases l with
  | string value =>
    have kept := StringBody.newline_mem_escape_iff value
    simp [terminal, Terminal.IsBroken, OnOneLine, kept]
  | number value => simp [terminal, Terminal.IsBroken, OnOneLine]
  | symbol s => simp [terminal, Terminal.IsBroken, OnOneLine]
  | boolean value => cases value <;> simp [terminal, Terminal.IsBroken, OnOneLine]
  | unclassified value => simp [terminal, Terminal.IsBroken, OnOneLine]

theorem Spellable.scans {l : Leaf} (spellable : l.Spellable) :
    (l.terminal StringBody.escape).Scans := by
  by_cases broken : ∃ value, l = string value ∧ CodePoint.newline ∈ value
  · obtain ⟨value, rfl, newline⟩ := broken
    have isBroken : ((string value).terminal StringBody.escape).IsBroken :=
      ⟨rfl, (StringBody.newline_mem_escape_iff value).mpr newline⟩
    intro rest _
    have written : ((string value).terminal StringBody.escape).spelling ++ rest =
        CodePoint.doubleQuote :: (StringBody.escape value ++ CodePoint.doubleQuote :: rest) := by
      simp [terminal, Terminal.spelling, TokenKind.spell]
    rw [written, Text.lex_escape_of_newline newline, Lexing.prepend, if_pos isBroken]
  · have spelled : (l.terminal StringBody.escape).WellSpelled := by
      apply spellable.wellSpelled
      intro value same
      apply StringBody.isBody_escape
      intro newline
      exact broken ⟨value, same, newline⟩
    exact spelled.scans

end Leaf

namespace Node

variable {escape : Text → Text}

def Scans (escape : Text → Text) (node : Node) : Prop :=
  ∀ rest : Text, rest.Delimited → Text.lex (node.renderWith escape ++ rest) =
    Lexing.prepend (node.terminals escape) (Text.lex rest)

theorem delimited_renderBehind (nodes : List Node) {rest : Text} (stop : rest.Delimited) :
    (renderBehind escape nodes ++ rest).Delimited := by
  cases nodes with
  | nil => exact stop
  | cons node nodes => exact Text.delimited_cons rfl _

theorem lex_renderBehind (nodes : List Node) (rest : Text) :
    Text.lex (renderBehind escape nodes ++ rest) = Text.lex (renderAll escape nodes ++ rest) := by
  cases nodes with
  | nil => rfl
  | cons node nodes => exact Text.lex_space _

theorem lex_renderAll {nodes : List Node} (each : ∀ node ∈ nodes, node.Scans escape) {rest : Text}
    (stop : rest.Delimited) : Text.lex (renderAll escape nodes ++ rest) =
      Lexing.prepend (terminalsAll escape nodes) (Text.lex rest) := by
  induction nodes with
  | nil => rfl
  | cons node nodes ih =>
    obtain ⟨head, others⟩ := List.forall_mem_cons.mp each
    have stopped : (renderBehind escape nodes ++ rest).Delimited := delimited_renderBehind nodes stop
    rw [renderAll, List.append_assoc, head _ stopped, lex_renderBehind, ih others, terminalsAll,
      Lexing.prepend_append]

theorem delimited_renderEnd (tail : Option Leaf) (rest : Text) :
    (renderEnd escape tail ++ rest).Delimited := by
  cases tail with
  | none => exact Text.delimited_cons rfl _
  | some tail => exact Text.delimited_cons rfl _

theorem lex_closing (rest : Text) : Text.lex (CodePoint.rightParen :: rest) =
    Lexing.prepend [⟨.closing, [CodePoint.rightParen]⟩] (Text.lex rest) := by
  have spelled : Terminal.WellSpelled ⟨.closing, [CodePoint.rightParen]⟩ := rfl
  exact spelled.lex nofun

theorem lex_renderEnd {tail : Option Leaf} (scans : ∀ l, tail = some l → (l.terminal escape).Scans)
    (rest : Text) : Text.lex (renderEnd escape tail ++ rest) =
      Lexing.prepend (tailTerminals escape tail ++ [⟨.closing, [CodePoint.rightParen]⟩])
        (Text.lex rest) := by
  cases tail with
  | none => exact lex_closing rest
  | some tail =>
    have dot : Terminal.WellSpelled ⟨.dot, Text.ofString "."⟩ := rfl
    have written : renderEnd escape (some tail) ++ rest = CodePoint.space ::
        (Terminal.spelling ⟨.dot, Text.ofString "."⟩ ++ (CodePoint.space ::
          ((tail.terminal escape).spelling ++ CodePoint.rightParen :: rest))) := by
      rw [renderEnd, List.append_assoc, List.append_assoc]
      rfl
    have last := scans tail rfl (CodePoint.rightParen :: rest) (Text.delimited_cons rfl rest)
    rw [written, Text.lex_space, dot.lex (fun _ => Text.delimited_cons rfl _), Text.lex_space, last,
      lex_closing, ← Lexing.prepend_append, ← Lexing.prepend_append]
    rfl

/-- A printed tree is scanned into its terminals, up to the first string that is broken. -/
theorem scans_of_leaves {node : Node} (scans : ∀ l ∈ node.leaves, (l.terminal escape).Scans) :
    node.Scans escape := by
  induction node using inductPrinted with
  | leaf l => exact scans l (List.mem_singleton_self l)
  | quoted form ih =>
    have inner : form.Scans escape := by
      apply ih
      intro l member
      have inside : l ∈ (quoted form).leaves := by simp [leaves_quoted, member]
      exact scans l inside
    have mark : Terminal.WellSpelled ⟨.quote, [CodePoint.apostrophe]⟩ := rfl
    intro rest stop
    have written : (quoted form).renderWith escape ++ rest =
        Terminal.spelling ⟨.quote, [CodePoint.apostrophe]⟩ ++ (form.renderWith escape ++ rest) := rfl
    rw [written, mark.lex nofun, inner rest stop, terminals_quoted]
    rfl
  | list nodes tail plain ih =>
    have each : ∀ node ∈ nodes, node.Scans escape := by
      intro node member
      apply ih node member
      intro l within
      have inside : l ∈ (list nodes tail).leaves := mem_leaves_list.mpr (.inl ⟨node, member, within⟩)
      exact scans l inside
    have last : ∀ l, tail = some l → (l.terminal escape).Scans := by
      intro l behind
      have inside : l ∈ (list nodes tail).leaves := mem_leaves_list.mpr (.inr behind)
      exact scans l inside
    have paren : Terminal.WellSpelled ⟨.opening, [CodePoint.leftParen]⟩ := rfl
    intro rest stop
    have written : (list nodes tail).renderWith escape ++ rest =
        Terminal.spelling ⟨.opening, [CodePoint.leftParen]⟩ ++
          (renderAll escape nodes ++ (renderEnd escape tail ++ rest)) := by
      rw [renderWith_list plain, List.cons_append, List.append_assoc]
      rfl
    rw [written, paren.lex nofun, lex_renderAll each (delimited_renderEnd tail rest),
      lex_renderEnd last rest, ← Lexing.prepend_append, ← Lexing.prepend_append, terminals_list plain]
    rfl

theorem exists_isBroken_terminalsAll {nodes : List Node}
    (each : ∀ node ∈ nodes, (∃ t ∈ node.terminals escape, t.IsBroken) ↔
      ∃ l ∈ node.leaves, (l.terminal escape).IsBroken) :
    (∃ t ∈ terminalsAll escape nodes, t.IsBroken) ↔
      ∃ l ∈ leavesAll nodes, (l.terminal escape).IsBroken := by
  induction nodes with
  | nil => simp [terminalsAll, leavesAll]
  | cons node nodes ih =>
    obtain ⟨head, others⟩ := List.forall_mem_cons.mp each
    have later := ih others
    simp only [terminalsAll, leavesAll, List.mem_append, or_and_right, exists_or, head, later]

theorem exists_isBroken_terminals (node : Node) :
    (∃ t ∈ node.terminals escape, t.IsBroken) ↔
      ∃ l ∈ node.leaves, (l.terminal escape).IsBroken := by
  have mark : ¬ Terminal.IsBroken ⟨.quote, [CodePoint.apostrophe]⟩ := by decide
  have symbol : ¬ ((Leaf.ofCore .quoteForm).terminal escape).IsBroken := nofun
  have opening : ¬ Terminal.IsBroken ⟨.opening, [CodePoint.leftParen]⟩ := by decide
  have closing : ¬ Terminal.IsBroken ⟨.closing, [CodePoint.rightParen]⟩ := by decide
  have dot : ¬ Terminal.IsBroken ⟨.dot, Text.ofString "."⟩ := by decide
  induction node using inductPrinted with
  | leaf l => simp [terminals, leaves]
  | quoted form ih => simp [terminals_quoted, leaves_quoted, ih, mark, symbol]
  | list nodes tail plain ih =>
    have inside := exists_isBroken_terminalsAll ih
    rw [terminals_list plain, leaves]
    cases tail with
    | none => simp [tailTerminals, opening, closing, inside, or_and_right, exists_or]
    | some tail => simp [tailTerminals, opening, closing, dot, inside, or_and_right, exists_or]

end Node

end SchemeSyntax
