import SchemeSyntax.Proofs.Datum.Identification
import SchemeSyntax.Proofs.Datum.RoundTrip
import SchemeSyntax.Proofs.Token.Lines

namespace SchemeSyntax

/-- The characters of a string are those that both printers leave readable. -/
def Leaf.PrintableAscii : Leaf → Prop
  | string value => value.PrintableAscii
  | _ => True

instance : DecidablePred Leaf.PrintableAscii
  | .string value => inferInstanceAs (Decidable value.PrintableAscii)
  | .number _ | .symbol _ | .boolean _ | .unclassified _ => .isTrue trivial

def Node.PrintableAscii (node : Node) : Prop := ∀ l ∈ node.leaves, l.PrintableAscii

instance : DecidablePred Node.PrintableAscii := fun _ => inferInstanceAs (Decidable (∀ l ∈ _, _))

theorem Datum.render_toNode {datum : Datum} (printable : datum.toNode.PrintableAscii) :
    datum.toNode.render = datum.render := by
  have escaped : ∀ value, Leaf.string value ∈ datum.toNode.leaves →
      StringBody.escape value = StringBody.escapeToAscii value :=
    fun _ member => (StringBody.escapeToAscii_of_printable (printable _ member)).symm
  calc datum.toNode.render
    _ = datum.toNode.renderWith StringBody.escape := datum.toNode.render_eq_renderWith
    _ = datum.toNode.renderWith StringBody.escapeToAscii := Node.renderWith_congr escaped
    _ = datum.render := datum.render_eq_renderWith.1.symm

/-- A tree that was read, and each part of it, is printed like the datum that it denotes. Only strings
    with other characters than printable ASCII and lists that are no more than their tails can be
    printed in another way. -/
theorem render_toDatum {text fileName : Text} {nodes : List Node}
    (accepted : read text fileName = .ok nodes) :
    ∀ node ∈ nodes, ∀ part, Node.Within part node → part.PrintableAscii → part.Uncollapsible →
      ∃ datum, part.toDatum = .ok datum ∧ part.render = datum.render := by
  intro node member part within printable solid
  have leaves : ∀ l ∈ part.leaves, l.IsRead :=
    fun l inside => isRead_of_read accepted node member l (within.leaves l inside)
  obtain ⟨datum, denotes, rfl⟩ := Node.exists_toNode_of_isRead leaves solid
  exact ⟨datum, denotes, Datum.render_toNode printable⟩

theorem render_toDatum_nearQuotes :
    ∃ (node : Node) (datum : Datum), read "(quote (quote . x) 'y (a quote \"\\\"\") . 3)" "file" = .ok [node] ∧
      node.toDatum = .ok datum ∧
        node.render = Text.ofString "(quote (quote . x) 'y (a quote \"\\\"\") . 3)" ∧
          datum.render = node.render := by
  have found : Text.lex "(quote (quote . x) 'y (a quote \"\\\"\") . 3)" = ⟨[⟨.opening, "("⟩,
      ⟨.symbol, "quote"⟩, ⟨.opening, "("⟩, ⟨.symbol, "quote"⟩, ⟨.dot, "."⟩, ⟨.symbol, "x"⟩,
      ⟨.closing, ")"⟩, ⟨.quote, "'"⟩, ⟨.symbol, "y"⟩, ⟨.opening, "("⟩, ⟨.symbol, "a"⟩,
      ⟨.symbol, "quote"⟩, ⟨.string, "\\\""⟩, ⟨.closing, ")"⟩, ⟨.dot, "."⟩, ⟨.number, "3"⟩,
      ⟨.closing, ")"⟩], none⟩ := by decide +kernel
  let quote : Node := .leaf (.symbol (.ofSpelling "quote"))
  let pair : Node := .list [quote] (some (.symbol (.ofSpelling "x")))
  let marked : Node := .quoted (.leaf (.symbol (.ofSpelling "y")))
  let list : Node := .list [.leaf (.symbol (.ofSpelling "a")), quote, .leaf (.string "\"")] none
  let node : Node := .list [quote, pair, marked, list] (some (.number 3))
  have decoded : StringBody.decode "\\\"" = .ok "\"" := StringBody.decode_escape "\""
  have three : Numeral.Decimal "3" 3 := .unsigned (by decide)
  have accepted : read "(quote (quote . x) 'y (a quote \"\\\"\") . 3)" "file" = .ok [node] :=
    read_of_lex found (.single (.dotted (.cons (.symbol _) (.cons (.dotted (.single (.symbol _)) (.symbol _))
      (.cons (.quoted (.symbol _)) (.single (.list (.cons (.symbol _) (.cons (.symbol _)
        (.single (.string decoded)))))))))
      (.number three)))
  obtain ⟨datum, denotes, same⟩ := render_toDatum accepted node (by simp) node .self
    (by decide +kernel) (by decide +kernel)
  exact ⟨node, datum, accepted, denotes, by decide +kernel, same.symm⟩

/-- Both ways to print a string can be read back. The datum is always printed as a single token, and the
    tree where the string has one line. -/
theorem decode_render_string (value fileName : Text) : ∃ printed written : Text,
    (Node.leaf (.string value)).render = TokenKind.string.spell printed ∧
      (Datum.atom (.string value)).render = TokenKind.string.spell written ∧
      (∀ kind place, Token.decodeString ⟨kind, printed, place⟩ = .ok value ∧
        Token.decodeString ⟨kind, written, place⟩ = .ok value) ∧
      (∃ place, tokenize (Datum.atom (.string value)).render fileName =
        .ok [⟨.string, written, place⟩]) ∧
      ((∃ place, tokenize (Node.leaf (.string value)).render fileName =
        .ok [⟨.string, printed, place⟩]) ↔ CodePoint.newline ∉ value) := by
  refine ⟨StringBody.escape value, StringBody.escapeToAscii value, rfl, rfl, fun kind place => ?_, ?_, ?_⟩
  · exact ⟨Token.decodeString_of_ok (StringBody.decode_escape value),
      Token.decodeString_of_ok (StringBody.decode_escapeToAscii value)⟩
  · exact (tokenize_spelling_iff ⟨.string, StringBody.escapeToAscii value⟩ fileName).mpr
      (StringBody.isBody_escapeToAscii value)
  · exact (tokenize_spelling_iff ⟨.string, StringBody.escape value⟩ fileName).trans
      (StringBody.isBody_escape_iff value)

end SchemeSyntax
