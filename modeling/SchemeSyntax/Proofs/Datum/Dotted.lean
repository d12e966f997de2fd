import Mathlib.Data.List.Forall2
import SchemeSyntax.Proofs.Form.Lines
import SchemeSyntax.Proofs.Node.RoundTrip

namespace SchemeSyntax

namespace Node

def Denotes (node : Node) (datum : Datum) : Prop := node.toDatum = .ok datum

theorem chain_append {nodes others : List Node} {data : List Datum} {ending : Atom} {datum : Datum}
    (each : List.Forall₂ Denotes nodes data) (behind : chain others ending = .ok datum) :
    chain (nodes ++ others) ending = .ok (data.foldr Datum.pair datum) := by
  induction each with
  | nil => exact behind
  | cons first _ ih => exact chain_cons first ih

/-- Whatever the tail is, the whole denotes what is written: pairs in front of the datum of the tail. -/
theorem toDatum_of_buildWithTail {builder : Builder} {data : List Datum} {tail whole : Node}
    {datum : Datum} (each : List.Forall₂ Denotes builder.toList data) (last : tail.Denotes datum)
    (built : builder.buildWithTail tail = .ok whole) :
    whole.Denotes (data.foldr Datum.pair datum) := by
  cases tail with
  | leaf l =>
    obtain ⟨atom, same, rfl⟩ := toDatum_leaf_iff.mp last
    cases built
    have chained : chain (builder.toList ++ []) atom = _ := chain_append each rfl
    rw [List.append_nil] at chained
    exact toDatum_list_iff.mpr ⟨atom, same, chained⟩
  | list others ending =>
    obtain ⟨atom, same, inside⟩ := toDatum_list_iff.mp last
    cases Builder.eq_of_buildWithTail_list built
    exact toDatum_list_iff.mpr ⟨atom, same, chain_append each inside⟩

end Node

namespace Text

/-- The texts one below the other, each with a newline behind it. -/
def lines (pieces : List Text) : Text := pieces.flatMap fun piece => piece ++ [CodePoint.newline]

/-- The dotted list of the texts, each piece of it on a line of its own. -/
def dotted (pieces : List Text) (tail : Text) : Text :=
  lines ([ofString "("] ++ pieces ++ [ofString ".", tail]) ++ ofString ")"

theorem lines_append (above below : List Text) : lines (above ++ below) = lines above ++ lines below :=
  List.flatMap_append

theorem lines_cons_append (piece : Text) (pieces : List Text) (rest : Text) :
    lines (piece :: pieces) ++ rest = piece ++ CodePoint.newline :: (lines pieces ++ rest) := by
  simp [lines]

/-- The whole text is this one form. -/
def Writes (fileName text : Text) (node : Node) : Prop := read text fileName = .ok [node]

end Text

theorem Form.of_single {terminals : List Terminal} {node : Node} (forms : Forms terminals [node]) :
    Form terminals node := by
  cases forms with
  | cons form nothing =>
    cases nothing
    rwa [List.append_nil]

variable {fileName text : Text} {pieces : List Text} {nodes : List Node} {tail : Node}

theorem Text.Writes.lex (writes : Text.Writes fileName text tail) :
    ∃ terminals, text.lex = ⟨terminals, none⟩ ∧ Form terminals tail := by
  obtain ⟨terminals, found, forms⟩ := lex_of_read writes
  exact ⟨terminals, found, .of_single forms⟩

theorem Text.lex_lines (each : List.Forall₂ (Text.Writes fileName) pieces nodes) :
    ∃ terminals, Forms terminals nodes ∧ ∀ rest : Text, lex (lines pieces ++ rest) =
      ⟨terminals ++ rest.lex.terminals, rest.lex.cause⟩ := by
  induction each with
  | nil => exact ⟨[], .nil, fun _ => rfl⟩
  | cons first _ ih =>
    obtain ⟨terminals, found, form⟩ := first.lex
    obtain ⟨others, forms, later⟩ := ih
    refine ⟨terminals ++ others, .cons form forms, fun rest => ?_⟩
    rw [lines_cons_append, lex_line found, later, List.append_assoc]

theorem Text.lex_dotted (each : List.Forall₂ (Text.Writes fileName) pieces nodes)
    (last : Text.Writes fileName text tail) :
    ∃ inside behind, Forms inside nodes ∧ Form behind tail ∧ lex (dotted pieces text) =
      ⟨⟨.opening, "("⟩ :: (inside ++ ⟨.dot, "."⟩ :: (behind ++ [⟨.closing, ")"⟩])), none⟩ := by
  have paren : lex "(" = ⟨[⟨.opening, "("⟩], none⟩ := by decide +kernel
  have dot : lex "." = ⟨[⟨.dot, "."⟩], none⟩ := by decide +kernel
  have closing : lex ")" = ⟨[⟨.closing, ")"⟩], none⟩ := by decide +kernel
  obtain ⟨inside, forms, above⟩ := lex_lines each
  obtain ⟨behind, found, form⟩ := last.lex
  refine ⟨inside, behind, forms, form, ?_⟩
  rw [dotted, List.append_assoc, List.singleton_append, lines_cons_append, lex_line paren,
    lines_append, List.append_assoc, above, lines_cons_append, lex_line dot, lines_cons_append,
    lex_line found, lines, List.flatMap_nil, List.nil_append, closing]
  rfl

theorem read_dotted {whole : Node} (each : List.Forall₂ (Text.Writes fileName) pieces nodes)
    (last : Text.Writes fileName text tail)
    (built : (Builder.empty.pushAll nodes).buildWithTail tail = .ok whole) :
    Text.Writes fileName (Text.dotted pieces text) whole := by
  let paren : Token := ⟨.opening, "(", none⟩
  let dot : Token := ⟨.dot, ".", none⟩
  let closing : Token := ⟨.closing, ")", none⟩
  obtain ⟨inside, behind, forms, form, found⟩ := Text.lex_dotted each last
  have elements : Forms inside (Builder.empty.pushAll nodes).toList := by
    rwa [Builder.toList_pushAll]
  have list : Form (paren.terminal :: (inside ++ dot.terminal :: (behind ++ [closing.terminal]))) whole :=
    Partial.reads_closing rfl rfl rfl elements form built
  exact read_of_lex found (.single list)

/-- The dot of a list with nothing in front of it stands alone on the second line. -/
def Token.loneDot (fileName : Text) : Token := ⟨.dot, ".", some ⟨fileName, ".", 2, 1, 2, 2⟩⟩

theorem exists_stream_dotted (last : Text.Writes fileName text tail) :
    ∃ paren behind closing, paren.kind = .opening ∧ closing.kind = .closing ∧
      Form (behind.map Token.terminal) tail ∧ TokenStream.ofText (Text.dotted [] text) fileName =
        ⟨paren :: .loneDot fileName :: (behind ++ [closing]), none⟩ := by
  obtain ⟨inside, terminals, nothing, form, found⟩ := Text.lex_dotted .nil last
  cases nothing
  let below : Text := text ++ CodePoint.newline :: Text.ofString ")"
  let pointed : Text := "." ++ CodePoint.newline :: below
  have written : Text.dotted [] text = "(" ++ CodePoint.newline :: pointed := by
    simp [Text.dotted, Text.lines, pointed, below]
  let paren : Token := ⟨.opening, "(", some ⟨fileName, "(", 1, 1, 2, 0⟩⟩
  let dot : Token := ⟨.dot, ".", some ⟨fileName, ".", 1, 1, 2, 0⟩⟩
  have opening : Terminal.WellSpelled ⟨.opening, "("⟩ := rfl
  have point : Terminal.WellSpelled ⟨.dot, "."⟩ := rfl
  have openingScanned : tokenize "(" fileName = .ok [paren] := tokenize_spelling opening fileName
  have pointScanned : tokenize "." fileName = .ok [dot] := tokenize_spelling point fileName
  obtain ⟨others, fault, stream⟩ : ∃ others fault,
      TokenStream.ofText (Text.dotted [] text) fileName = ⟨paren :: .loneDot fileName :: others, fault⟩ := by
    rw [written, TokenStream.ofText, TokenStream.ofSource, Source.drain_lines openingScanned,
      Source.drain_lines pointScanned]
    exact ⟨_, _, rfl⟩
  rw [← TokenStream.lexing_ofText _ fileName, stream] at found
  obtain ⟨same, sound⟩ := Lexing.mk.inj found
  cases Option.map_eq_none_iff.mp sound
  obtain ⟨behind, last, rfl, rfl, closing⟩ := List.map_eq_append_iff.mp (List.cons.inj (List.cons.inj same).2).2
  obtain ⟨place, rfl⟩ := eq_single_of_terminals closing
  exact ⟨paren, behind, _, rfl, rfl, form, stream⟩

/-- A list with nothing in front of its dot takes no improper tail over. -/
theorem read_dotted_of_improper (last : Text.Writes fileName text tail)
    (improper : tail.isImproperList = true) :
    read (Text.dotted [] text) fileName = .error (.read ⟨.wrongPair, .loneDot fileName⟩) := by
  obtain ⟨paren, behind, closing, opens, closes, form, stream⟩ := exists_stream_dotted last
  have fed : ∀ tokens, Partial.start.run (paren :: .loneDot fileName :: tokens) =
      (Partial.form [.tail paren (.loneDot fileName) .empty]).run tokens := by
    intro tokens
    rw [Partial.run_cons, Partial.start, Partial.feed, opens]
    show (Partial.form [.list paren .empty]).run (.loneDot fileName :: tokens) = _
    rw [Partial.run_cons]
    rfl
  obtain ⟨others, ending, rfl⟩ : ∃ others ending, tail = .list others (some ending) := by
    unfold Node.isImproperList at improper
    split at improper
    · exact ⟨_, _, rfl⟩
    · cases improper
  have ran : Partial.start.run (paren :: .loneDot fileName :: (behind ++ [closing])) =
      (.wrong ⟨.wrongPair, .loneDot fileName⟩, []) := by
    rw [fed, form.run rfl, Partial.deliver, Progress.run, Partial.run_cons, Partial.feed, if_pos closes]
    rfl
  have refused : (⟨paren :: .loneDot fileName :: (behind ++ [closing]), none⟩ : TokenStream).readForm =
      (.failed (.read ⟨.wrongPair, .loneDot fileName⟩), .ended) := by
    rw [TokenStream.readForm]
    simp only [ran]
    rfl
  rw [read, stream, TokenStream.readForms_of_failed refused]

theorem denotes_of_writes (each : List.Forall₂ (Text.Writes fileName) pieces nodes) :
    ∃ data, List.Forall₂ Node.Denotes nodes data := by
  induction each with
  | nil => exact ⟨[], .nil⟩
  | cons first _ ih =>
    obtain ⟨datum, denotes⟩ := toDatum_of_read first _ List.mem_cons_self
    obtain ⟨data, others⟩ := ih
    exact ⟨datum :: data, .cons denotes others⟩

theorem read_dotted_outcome (each : List.Forall₂ (Text.Writes fileName) pieces nodes)
    (last : Text.Writes fileName text tail) :
    (pieces = [] ∧ tail.isImproperList = true) ∧
        read (Text.dotted pieces text) fileName = .error (.read ⟨.wrongPair, .loneDot fileName⟩) ∨
      ¬ (pieces = [] ∧ tail.isImproperList = true) ∧
        ∃ whole, (Builder.empty.pushAll nodes).buildWithTail tail = .ok whole ∧
          Text.Writes fileName (Text.dotted pieces text) whole := by
  by_cases alone : pieces = [] ∧ tail.isImproperList = true
  · obtain ⟨rfl, improper⟩ := alone
    exact .inl ⟨⟨rfl, improper⟩, read_dotted_of_improper last improper⟩
  · have proper : (Builder.empty.pushAll nodes).toList = [] → tail.isImproperList = false := by
      intro empty
      rw [Builder.toList_pushAll, Builder.toList_empty, List.nil_append] at empty
      subst empty
      cases each
      exact Bool.eq_false_iff.mpr fun improper => alone ⟨rfl, improper⟩
    obtain ⟨whole, built⟩ := Builder.exists_buildWithTail proper
    exact .inr ⟨alone, whole, built, read_dotted each last built⟩

/-- Dotted notation denotes the pairs that it writes, whatever stands behind the dot: the nodes that
    were pushed, in front of the datum of the tail. So does a dotted list of texts that are a form
    each. It is read unless nothing but an improper list is written in it, and then the dot is
    blamed. -/
theorem toDatum_dotted :
    (∀ {nodes : List Node} {data : List Datum} {tail whole : Node} {datum : Datum},
      List.Forall₂ Node.Denotes nodes data → tail.Denotes datum →
        (Builder.empty.pushAll nodes).buildWithTail tail = .ok whole →
          whole.Denotes (data.foldr Datum.pair datum)) ∧
    ∀ {fileName text : Text} {pieces : List Text} {nodes : List Node} {tail : Node},
      List.Forall₂ (Text.Writes fileName) pieces nodes → Text.Writes fileName text tail →
        (∀ forms, read (Text.dotted pieces text) fileName = .ok forms →
          ∃ whole data datum, forms = [whole] ∧ List.Forall₂ Node.Denotes nodes data ∧
            tail.Denotes datum ∧ whole.Denotes (data.foldr Datum.pair datum)) ∧
        ((∃ fault, read (Text.dotted pieces text) fileName = .error fault) ↔
          pieces = [] ∧ tail.isImproperList = true) ∧
        ∀ fault, read (Text.dotted pieces text) fileName = .error fault → ∃ wrong,
          fault = .read wrong ∧ wrong.message = "Wrong pair format." ∧
            wrong.token = .loneDot fileName := by
  have built : ∀ {nodes : List Node} {data : List Datum} {tail whole : Node} {datum : Datum},
      List.Forall₂ Node.Denotes nodes data → tail.Denotes datum →
        (Builder.empty.pushAll nodes).buildWithTail tail = .ok whole →
          whole.Denotes (data.foldr Datum.pair datum) := by
    intro nodes data tail whole datum each last ended
    have elements : List.Forall₂ Node.Denotes (Builder.empty.pushAll nodes).toList data := by
      rwa [Builder.toList_pushAll]
    exact Node.toDatum_of_buildWithTail elements last ended
  refine ⟨built, ?_⟩
  intro fileName text pieces nodes tail each last
  rcases read_dotted_outcome each last with ⟨alone, refused⟩ | ⟨joined, whole, ended, accepted⟩
  · rw [refused]
    refine ⟨?_, iff_of_true ⟨_, rfl⟩ alone, ?_⟩
    · intro forms impossible
      cases impossible
    · intro fault same
      cases same
      exact ⟨_, rfl, rfl, rfl⟩
  · rw [accepted]
    refine ⟨?_, iff_of_false ?_ joined, ?_⟩
    · intro forms same
      cases same
      obtain ⟨data, elements⟩ := denotes_of_writes each
      obtain ⟨datum, behind⟩ := toDatum_of_read last _ List.mem_cons_self
      exact ⟨whole, data, datum, rfl, elements, behind, built elements behind ended⟩
    · rintro ⟨fault, impossible⟩
      cases impossible
    · intro fault impossible
      cases impossible

theorem toDatum_dotted_improper :
    (∃ whole, (Builder.empty.pushAll [.leaf (.number 1)]).buildWithTail (.list [] (some (.number 2))) =
      .ok whole ∧ whole.Denotes (.pair (Atom.number 1) (Atom.number 2))) ∧
    (∃ whole, read (Text.dotted ["a"] "(b . c)") "file" = .ok [whole] ∧
      whole.Denotes (.pair (Atom.symbol "a") (.pair (Atom.symbol "b") (Atom.symbol "c")))) ∧
    ∃ wrong, read (Text.dotted [] "(b . c)") "file" = .error (.read wrong) ∧
      wrong.message = "Wrong pair format." ∧ wrong.token = .loneDot "file" := by
  obtain ⟨built, written⟩ := toDatum_dotted
  let a : Node := .leaf (.symbol (.ofSpelling "a"))
  let tail : Node := .list [.leaf (.symbol (.ofSpelling "b"))] (some (.symbol (.ofSpelling "c")))
  have single : Text.Writes "file" "a" a := by
    have found : Text.lex "a" = ⟨[⟨.symbol, "a"⟩], none⟩ := by decide +kernel
    exact read_of_lex found (.single (.symbol _))
  have improper : Text.Writes "file" "(b . c)" tail := by
    have found : Text.lex "(b . c)" = ⟨[⟨.opening, "("⟩, ⟨.symbol, "b"⟩, ⟨.dot, "."⟩, ⟨.symbol, "c"⟩,
        ⟨.closing, ")"⟩], none⟩ := by decide +kernel
    exact read_of_lex found (.single (.dotted (.single (.symbol _)) (.symbol _)))
  refine ⟨?_, ?_, ?_⟩
  · have one : Node.Denotes (.leaf (.number 1)) (Atom.number 1) := rfl
    have two : Node.Denotes (.list [] (some (.number 2))) (Atom.number 2) := rfl
    exact ⟨_, rfl, built (.cons one .nil) two rfl⟩
  · obtain ⟨reads, refuses, _⟩ := written (.cons single .nil) improper
    cases accepted : read (Text.dotted ["a"] "(b . c)") "file" with
    | error fault => exact absurd (refuses.mp ⟨fault, accepted⟩).1 nofun
    | ok forms =>
      obtain ⟨whole, data, datum, rfl, elements, behind, denotes⟩ := reads forms accepted
      cases elements with
      | cons first nothing =>
        cases nothing
        cases first
        cases behind
        exact ⟨whole, rfl, denotes⟩
  · obtain ⟨_, refuses, blames⟩ := written .nil improper
    obtain ⟨fault, refused⟩ := refuses.mpr ⟨rfl, rfl⟩
    obtain ⟨wrong, rfl, message, token⟩ := blames fault refused
    exact ⟨wrong, refused, message, token⟩

end SchemeSyntax
