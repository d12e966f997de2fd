import SchemeSyntax.Proofs.Form.Reading
import SchemeSyntax.Proofs.Node.Scanning
import SchemeSyntax.Proofs.Token.Writing

namespace SchemeSyntax

variable {escape : Text → Text}

theorem Leaf.Spellable.form_terminal {l : Leaf} (spellable : l.Spellable)
    (decodes : ∀ value, StringBody.decode (escape value) = .ok value) :
    Form [l.terminal escape] (.leaf l.respelled) := by
  cases l with
  | number value => exact .number (Numeral.decimal_iff.mpr (Numeral.intValue_ofInt value))
  | symbol s => exact .symbol s.name
  | string value => exact .string (decodes value)
  | boolean value =>
    cases value with
    | true => exact .boolean (Text.ofString "#t")
    | false => exact .boolean (Text.ofString "#f")
  | unclassified value => cases spellable

namespace Node

theorem forms_terminalsAll {nodes : List Node}
    (each : ∀ node ∈ nodes, Form (node.terminals escape) node.respelled) :
    Forms (terminalsAll escape nodes) (mapAll Leaf.respelled nodes) := by
  induction nodes with
  | nil => exact .nil
  | cons node nodes ih =>
    obtain ⟨head, others⟩ := List.forall_mem_cons.mp each
    exact .cons head (ih others)

theorem Spellable.form_terminals {node : Node} (spellable : node.Spellable)
    (decodes : ∀ value, StringBody.decode (escape value) = .ok value) :
    Form (node.terminals escape) node.respelled := by
  induction node using inductPrinted with
  | leaf l =>
    have spelled := spellable l (List.mem_singleton_self l)
    exact spelled.form_terminal decodes
  | quoted form ih =>
    have inner := ih (spellable.elements form (by simp))
    exact .quoted inner
  | list nodes tail plain ih =>
    have each : ∀ node ∈ nodes, Form (node.terminals escape) node.respelled := by
      intro node member
      exact ih node member (spellable.elements node member)
    have elements := forms_terminalsAll each
    rw [terminals_list plain]
    cases tail with
    | none => exact .list elements
    | some tail => exact .dotted elements (spellable.tail.form_terminal decodes)

end Node

/-- Source text spells the leaf and no other prints alike. -/
def Leaf.IsRead (l : Leaf) : Prop := l.Spellable ∧ l.respelled = l

theorem Leaf.isRead_ofSpelling {spelling : Text} (spelled : TokenKind.symbol.Spells spelling) :
    (Leaf.symbol (.ofSpelling spelling)).IsRead := by
  have name := Symbol.name_ofSpelling spelling
  constructor
  · rwa [Spellable, name]
  · rw [respelled, name]

theorem Leaf.isRead_quote : (Leaf.ofCore .quoteForm).IsRead :=
  ⟨CoreSymbol.spells_name .quoteForm, rfl⟩

mutual

theorem Form.isRead {terminals : List Terminal} {node : Node} : Form terminals node →
    (∀ t ∈ terminals, t.WellSpelled) → ∀ l ∈ node.leaves, l.IsRead
  | .number text, spelled, l, member => by
    cases List.mem_singleton.mp member
    exact ⟨trivial, rfl⟩
  | .symbol text, spelled, l, member => by
    cases List.mem_singleton.mp member
    exact Leaf.isRead_ofSpelling (spelled _ List.mem_cons_self)
  | .boolean text, spelled, l, member => by
    cases List.mem_singleton.mp member
    exact ⟨trivial, rfl⟩
  | .string decoded, spelled, l, member => by
    cases List.mem_singleton.mp member
    exact ⟨trivial, rfl⟩
  | @Form.quoted _ _ inner form, spelled, l, member => by
    rcases List.mem_cons.mp member with rfl | member
    · exact Leaf.isRead_quote
    · have inside : l ∈ inner.leaves := by simpa [Node.leavesAll] using member
      exact form.isRead (fun t within => spelled t (List.mem_cons_of_mem _ within)) l inside
  | .list forms, spelled, l, member => by
    rcases Node.mem_leaves_list.mp member with ⟨node, element, member⟩ | nothing
    · exact forms.isRead (fun t within => spelled t (by simp [within])) node element l member
    · cases nothing
  | .dotted forms form, spelled, l, member => by
    rcases Node.mem_leaves_list.mp member with ⟨node, element, member⟩ | last
    · exact forms.isRead (fun t within => spelled t (by simp [within])) node element l member
    · have inside := List.mem_singleton.mpr (Option.some.inj last).symm
      exact form.isRead (fun t within => spelled t (by simp [within])) l inside
  | .spliced forms form _, spelled, l, member => by
    have behind := form.isRead fun t within => spelled t (by simp [within])
    rcases Node.mem_leaves_list.mp member with ⟨node, element, member⟩ | last
    · rcases List.mem_append.mp element with element | element
      · exact forms.isRead (fun t within => spelled t (by simp [within])) node element l member
      · exact behind l (Node.mem_leaves_list.mpr (.inl ⟨node, element, member⟩))
    · exact behind l (Node.mem_leaves_list.mpr (.inr last))

theorem Forms.isRead {terminals : List Terminal} {nodes : List Node} : Forms terminals nodes →
    (∀ t ∈ terminals, t.WellSpelled) → ∀ node ∈ nodes, ∀ l ∈ node.leaves, l.IsRead
  | .nil, _, _, element, _, _ => absurd element List.not_mem_nil
  | .cons form forms, spelled, node, element, l, member => by
    rcases List.mem_cons.mp element with same | element
    · rw [same] at member
      exact form.isRead (fun t within => spelled t (List.mem_append_left _ within)) l member
    · exact forms.isRead (fun t within => spelled t (List.mem_append_right _ within)) node element l member

end

theorem isRead_of_read {text fileName : Text} {nodes : List Node}
    (accepted : read text fileName = .ok nodes) : ∀ node ∈ nodes, ∀ l ∈ node.leaves, l.IsRead := by
  obtain ⟨terminals, found, forms⟩ := lex_of_read accepted
  obtain ⟨writing, lawful, _, rfl⟩ := Writing.lawful_of_lex found
  exact forms.isRead lawful.wellSpelled

theorem toDatum_of_read {text fileName : Text} {nodes : List Node}
    (accepted : read text fileName = .ok nodes) : ∀ node ∈ nodes, ∃ datum, node.toDatum = .ok datum := by
  intro node member
  have leaves := isRead_of_read accepted node member
  have spellable : node.Spellable := fun l within => (leaves l within).1
  exact spellable.toDatum

namespace Node

theorem Spellable.read_renderWith {node : Node} (spellable : node.Spellable)
    (isBody : ∀ value, .string value ∈ node.leaves → (escape value).IsBody)
    (decodes : ∀ value, StringBody.decode (escape value) = .ok value) (fileName : Text) :
    read (node.renderWith escape) fileName = .ok [node.respelled] := by
  have spelled : ∀ l ∈ node.leaves, (l.terminal escape).WellSpelled := by
    intro l member
    apply (spellable l member).wellSpelled
    intro value same
    subst same
    exact isBody value member
  have sound : ∀ t ∈ node.terminals escape, ¬ t.IsBroken := by
    intro t member broken
    obtain ⟨l, inside, broken⟩ := node.exists_isBroken_terminals.mp ⟨t, member, broken⟩
    exact (spelled l inside).not_isBroken broken
  have found := scans_of_leaves (fun l member => (spelled l member).scans) [] nofun
  rw [List.append_nil, Text.lex_nil, Lexing.prepend_of_sound sound, List.append_nil] at found
  exact read_of_lex found (.single (spellable.form_terminals decodes))

def OnOneLine (node : Node) : Prop := ∀ l ∈ node.leaves, l.OnOneLine

instance : DecidablePred OnOneLine := fun _ => inferInstanceAs (Decidable (∀ l ∈ _, _))

theorem Spellable.read_render_of_onOneLine {node : Node} (spellable : node.Spellable)
    (oneLine : node.OnOneLine) (fileName : Text) :
    read node.render fileName = .ok [node.respelled] := by
  rw [render_eq_renderWith]
  refine spellable.read_renderWith ?_ StringBody.decode_escape fileName
  intro value member
  exact StringBody.isBody_escape (oneLine _ member)

theorem Spellable.read_render_of_broken {node : Node} (spellable : node.Spellable)
    (broken : ¬ node.OnOneLine) (fileName : Text) :
    ∃ fault, read node.render fileName = .error (.scan fault) ∧ fault.cause = .unknown := by
  obtain ⟨l, member, newline⟩ : ∃ l ∈ node.leaves, ¬ l.OnOneLine := by
    simpa [OnOneLine] using broken
  have somewhere : ∃ t ∈ node.terminals StringBody.escape, t.IsBroken :=
    node.exists_isBroken_terminals.mpr ⟨l, member, l.isBroken_terminal_iff.mpr newline⟩
  obtain ⟨before, terminal, after, split, cut⟩ := Lexing.prepend_of_broken somewhere ⟨[], none⟩
  have found := scans_of_leaves (fun l member => (spellable l member).scans) [] nofun
  rw [List.append_nil, Text.lex_nil, cut] at found
  have form := spellable.form_terminals StringBody.decode_escape
  rw [split] at form
  rw [render_eq_renderWith]
  exact read_of_part found form

end Node

/-- A printed tree is read back as it was, but for the origins of symbols, unless a string in it
    holds a newline. -/
theorem read_render (fileName : Text) :
    (∀ node : Node, node.Spellable →
      (node.OnOneLine → read node.render fileName = .ok [node.respelled]) ∧
      (¬ node.OnOneLine →
        ∃ fault, read node.render fileName = .error (.scan fault) ∧ fault.cause = .unknown) ∧
      (∃ datum, node.toDatum = .ok datum ∧ node.respelled.toDatum = .ok datum) ∧
      (node.respelled = node ↔ ∀ l ∈ node.leaves, l.Nameable)) ∧
    ∀ (text otherName : Text) (nodes : List Node), read text otherName = .ok nodes →
      ∀ node ∈ nodes, node.Spellable ∧ node.respelled = node := by
  constructor
  · intro node spellable
    obtain ⟨datum, same⟩ := spellable.toDatum
    refine ⟨?_, ?_, ⟨datum, same, ?_⟩, node.respelled_eq_iff⟩
    · exact fun oneLine => spellable.read_render_of_onOneLine oneLine fileName
    · exact fun broken => spellable.read_render_of_broken broken fileName
    · rw [Node.toDatum_respelled, same]
  · intro text otherName nodes accepted node member
    have leaves := isRead_of_read accepted node member
    refine ⟨fun l inside => (leaves l inside).1, ?_⟩
    exact (Node.map_eq_self_iff Leaf.respelled node).mpr fun l inside => (leaves l inside).2

theorem read_render_generated :
    (∃ node : Node, node.render = Text.ofString "($temp$id3 '( . \"a\\\\\") . #t)" ∧ node.Spellable ∧
      node.OnOneLine ∧ read node.render "file" = .ok [node.respelled] ∧ node.respelled ≠ node ∧
        node.respelled.respelled = node.respelled) ∧
    ∃ node : Node, node.render = Text.ofString "\"a\nb\"" ∧ node.Spellable ∧ ¬ node.OnOneLine ∧
      ∃ fault, read node.render "file" = .error (.scan fault) ∧ fault.cause = .unknown := by
  obtain ⟨trees, accepted⟩ := read_render "file"
  constructor
  · let fresh : Leaf := .symbol (.generated 3)
    let node : Node :=
      .list [.leaf fresh, .quoted (.list [] (some (.string "a\\")))] (some (.boolean true))
    have spellable : node.Spellable := by decide +kernel
    have oneLine : node.OnOneLine := by decide
    obtain ⟨readBack, _, _, kept⟩ := trees node spellable
    have other : node.respelled ≠ node := by
      intro same
      exact kept.mp same fresh (by decide)
    have again := accepted node.render "file" _ (readBack oneLine) node.respelled (by simp)
    exact ⟨node, by decide +kernel, spellable, oneLine, readBack oneLine, other, again.2⟩
  · let node : Node := .leaf (.string "a\nb")
    have spellable : node.Spellable := by decide
    have newline : ¬ node.OnOneLine := by decide
    exact ⟨node, by decide, spellable, newline, (trees node spellable).2.1 newline⟩

end SchemeSyntax
