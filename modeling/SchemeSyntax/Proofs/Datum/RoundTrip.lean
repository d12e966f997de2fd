import SchemeSyntax.Proofs.Datum.Embedding
import SchemeSyntax.Proofs.Node.RoundTrip

namespace SchemeSyntax

namespace Node

variable {escape : Text → Text}

/-- What a node adds to the printed list whose elements it goes on with. -/
def renderCdr (escape : Text → Text) : Node → Text
  | leaf tail => renderEnd escape (some tail)
  | list nodes tail => renderBehind escape nodes ++ renderEnd escape tail

theorem renderCdr_prepend (first rest : Node) : (prepend first rest).renderCdr escape =
    CodePoint.space :: (first.renderWith escape ++ rest.renderCdr escape) := by
  cases rest <;> simp [prepend, renderCdr, renderBehind]

theorem renderWith_prepend {first rest : Node} (plain : ∀ form, prepend first rest ≠ quoted form) :
    (prepend first rest).renderWith escape =
      CodePoint.leftParen :: (first.renderWith escape ++ rest.renderCdr escape) := by
  cases rest with
  | leaf tail =>
    rw [prepend, renderWith_list plain]
    simp [renderAll, renderBehind, renderCdr]
  | list nodes tail =>
    rw [prepend, renderWith_list plain]
    simp [renderAll, renderCdr]

end Node

def Text.PrintableAscii (t : Text) : Prop := ∀ c ∈ t, 32 ≤ c.val ∧ c.val ≤ 126

instance : DecidablePred Text.PrintableAscii := fun _ => inferInstanceAs (Decidable (∀ c ∈ _, _))

namespace Text.PrintableAscii

theorem cons {c : CodePoint} {t : Text} (first : 32 ≤ c.val ∧ c.val ≤ 126) (rest : t.PrintableAscii) :
    PrintableAscii (c :: t) := by
  intro d member
  rcases List.mem_cons.mp member with rfl | member
  · exact first
  · exact rest d member

theorem append {left right : Text} (first : left.PrintableAscii) (second : right.PrintableAscii) :
    PrintableAscii (left ++ right) := by
  intro c member
  rcases List.mem_append.mp member with member | member
  · exact first c member
  · exact second c member

end Text.PrintableAscii

theorem TokenKind.Spells.printableAscii {kind : TokenKind} {t : Text} (spelled : kind.Spells t)
    (word : kind.isWord = true) : t.PrintableAscii := by
  intro c member
  rcases spelled.subsequent word c member with subsequent | rfl
  · rw [CodePoint.isSubsequent_iff, CodePoint.isInitial_iff, CodePoint.isDigit_iff] at subsequent
    omega
  · decide

namespace Datum

theorem exists_of_toNode_eq_quoted {datum : Datum} {form : Node} (same : datum.toNode = .quoted form) :
    ∃ inner, datum = pair quoteSymbol (pair inner null) := by
  have denotes := toDatum_toNode datum
  rw [same] at denotes
  exact Node.toDatum_quoted denotes

theorem render_pair {car cdr : Datum}
    (plain : ∀ inner, pair car cdr ≠ pair quoteSymbol (pair inner null)) :
    (pair car cdr).render = CodePoint.leftParen :: (car.render ++ cdr.renderRest) := by
  by_cases single : ∃ inner, cdr = pair inner null
  · obtain ⟨inner, rfl⟩ := single
    have other : car ≠ quoteSymbol := by
      intro same
      subst same
      exact plain inner rfl
    exact if_neg other
  · rw [render, List.cons_append]
    intro inner same
    subst same
    exact single ⟨inner, rfl⟩

theorem render_quoted (inner : Datum) :
    (pair quoteSymbol (pair inner null)).render = CodePoint.apostrophe :: inner.render := if_pos rfl

theorem toNode_quoted (inner : Datum) :
    (pair quoteSymbol (pair inner null)).toNode = .quoted inner.toNode := rfl

theorem render_atom (a : Atom) :
    (atom a).render = (atom a).toNode.renderWith StringBody.escapeToAscii ∧
      (atom a).renderRest = (atom a).toNode.renderCdr StringBody.escapeToAscii := by
  cases a with
  | null => exact ⟨rfl, rfl⟩
  | number value => exact ⟨rfl, rfl⟩
  | string value => exact ⟨rfl, rfl⟩
  | boolean value => cases value <;> exact ⟨rfl, rfl⟩
  | symbol name =>
    have printed : (Leaf.symbol (.ofSpelling name)).terminal StringBody.escapeToAscii =
        ⟨.symbol, name⟩ := congrArg (Terminal.mk .symbol) (Symbol.name_ofSpelling name)
    simp only [toNode, Atom.toNode, Node.renderWith, Node.renderCdr, Node.renderEnd, printed]
    exact ⟨rfl, rfl⟩

theorem render_eq_renderWith (datum : Datum) :
    datum.render = datum.toNode.renderWith StringBody.escapeToAscii ∧
      datum.renderRest = datum.toNode.renderCdr StringBody.escapeToAscii := by
  induction datum with
  | atom a => exact render_atom a
  | pair car cdr head later =>
    constructor
    · by_cases quote : ∃ inner, pair car cdr = pair quoteSymbol (pair inner null)
      · obtain ⟨inner, same⟩ := quote
        cases same
        -- the element of a list of one is printed between a space and the closing parenthesis
        have rest : CodePoint.space :: (inner.render ++ [CodePoint.rightParen]) =
            CodePoint.space ::
              (inner.toNode.renderWith StringBody.escapeToAscii ++ [CodePoint.rightParen]) :=
          later.2.trans (Node.renderCdr_prepend inner.toNode .empty)
        have inside := List.append_cancel_right (List.cons.inj rest).2
        rw [render_quoted, toNode_quoted, inside]
        rfl
      · have plain : ∀ form, Node.prepend car.toNode cdr.toNode ≠ .quoted form := by
          intro form same
          exact quote (exists_of_toNode_eq_quoted same)
        rw [render_pair (not_exists.mp quote), toNode, Node.renderWith_prepend plain, head.1, later.2]
    · rw [renderRest, toNode, Node.renderCdr_prepend, head.1, later.2]
      rfl

theorem printable_render_atom {a : Atom} (spellable : a.Spellable) :
    Text.PrintableAscii a.render := by
  cases a with
  | null => decide
  | boolean value => cases value <;> decide
  | number value => exact TokenKind.Spells.printableAscii (Leaf.wellSpelled_number value) rfl
  | symbol name =>
    have spelled : TokenKind.symbol.Spells name := spellable
    exact spelled.printableAscii rfl
  | string value =>
    have body : Text.PrintableAscii (StringBody.escapeToAscii value) := by
      intro c member
      obtain ⟨d, _, inside⟩ := List.mem_flatMap.mp member
      exact StringBody.printable_asciiChar d c inside
    exact .cons (by decide) (body.append (by decide))

theorem printable_renderRest_atom {a : Atom} (spellable : a.Spellable) :
    Text.PrintableAscii (atom a).renderRest := by
  have dotted : Text.PrintableAscii (Text.ofString " . " ++ a.render ++ [CodePoint.rightParen]) := by
    have before : Text.PrintableAscii (Text.ofString " . ") := by decide
    exact (before.append (printable_render_atom spellable)).append (by decide)
  cases a with
  | null => decide
  | boolean value => exact dotted
  | number value => exact dotted
  | symbol name => exact dotted
  | string value => exact dotted

theorem Spellable.printable {datum : Datum} (spellable : datum.Spellable) :
    Text.PrintableAscii datum.render ∧ Text.PrintableAscii datum.renderRest := by
  induction datum with
  | atom a => exact ⟨printable_render_atom spellable, printable_renderRest_atom spellable⟩
  | pair car cdr head later =>
    obtain ⟨first, _⟩ := head spellable.1
    obtain ⟨_, rest⟩ := later spellable.2
    constructor
    · by_cases quote : ∃ inner, pair car cdr = pair quoteSymbol (pair inner null)
      · obtain ⟨inner, same⟩ := quote
        cases same
        have inside : Text.PrintableAscii inner.render := by
          intro c member
          exact rest c (List.mem_append_left _ (List.mem_cons_of_mem _ member))
        rw [render_quoted]
        exact .cons (by decide) inside
      · rw [render_pair (not_exists.mp quote)]
        exact .cons (by decide) (first.append rest)
    · exact .cons (by decide) (first.append rest)

end Datum

/-- A datum is printed on one line of printable ASCII and read back as it was. -/
theorem read_render_datum {datum : Datum} (spellable : datum.Spellable) (fileName : Text) :
    (∀ c ∈ datum.render, 32 ≤ c.val ∧ c.val ≤ 126) ∧
      ∃ node, read datum.render fileName = .ok [node] ∧ node.toDatum = .ok datum := by
  refine ⟨spellable.printable.1, datum.toNode.respelled, ?_, ?_⟩
  · rw [datum.render_eq_renderWith.1]
    refine spellable.toNode.read_renderWith ?_ StringBody.decode_escapeToAscii fileName
    exact fun value _ => StringBody.isBody_escapeToAscii value
  · rw [Node.toDatum_respelled, Datum.toDatum_toNode]

theorem read_render_surrogate : ∃ datum : Datum,
    datum.render = Text.ofString "(quote \"\\xd800;\\n\\\"\" . y)" ∧ datum.Spellable ∧
      ∃ node, read datum.render "file" = .ok [node] ∧ node.toDatum = .ok datum := by
  let body : Text := [⟨0xD800, by decide⟩, CodePoint.newline, CodePoint.doubleQuote]
  let datum : Datum := .pair (Atom.symbol "quote") (.pair (Atom.string body) (Atom.symbol "y"))
  have spellable : datum.Spellable := by decide
  exact ⟨datum, by decide +kernel, spellable, (read_render_datum spellable "file").2⟩

end SchemeSyntax
