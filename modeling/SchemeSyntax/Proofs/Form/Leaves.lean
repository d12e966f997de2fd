import Mathlib.Data.List.Forall2
import SchemeSyntax.Proofs.Form.Reading
import SchemeSyntax.Proofs.Node.Leaves
import SchemeSyntax.Proofs.Token.Continuation

namespace SchemeSyntax

namespace Terminal

/-- Parentheses and dots give a tree its shape. Every other terminal stands for a leaf. -/
def isShape (terminal : Terminal) : Bool :=
  match terminal.kind with
  | .opening => true
  | .closing => true
  | .dot => true
  | _ => false

def leaf? (terminal : Terminal) : Option Leaf :=
  match terminal.kind with
  | .number => some (.number (Numeral.intValue terminal.text))
  | .symbol => some (.symbol (.ofSpelling terminal.text))
  | .boolean => some (.boolean (terminal.text = Text.ofString "#t"))
  | .string => (StringBody.decode terminal.text).toOption.map .string
  | .quote => some (Leaf.ofCore .quoteForm)
  | _ => none

/-- The leaves that terminals stand for, from left to right. For a string that cannot be decoded
    there is a gap. -/
def leaves (terminals : List Terminal) : List (Option Leaf) :=
  (terminals.filter fun terminal => !terminal.isShape).map leaf?

theorem leaves_append (left right : List Terminal) :
    leaves (left ++ right) = leaves left ++ leaves right := by
  rw [leaves, List.filter_append, List.map_append, leaves, leaves]

theorem leaves_cons_of_isShape {terminal : Terminal} (shape : terminal.isShape = true)
    (terminals : List Terminal) : leaves (terminal :: terminals) = leaves terminals := by
  rw [leaves, List.filter_cons_of_neg, leaves]
  simp [shape]

theorem leaves_dotted (left dot right : Text) (inside behind : List Terminal) :
    leaves (⟨.opening, left⟩ :: (inside ++ ⟨.dot, dot⟩ :: (behind ++ [⟨.closing, right⟩]))) =
      leaves inside ++ leaves behind := by
  have nothing : leaves [⟨.closing, right⟩] = [] := rfl
  rw [leaves_cons_of_isShape rfl, leaves_append, leaves_cons_of_isShape rfl, leaves_append, nothing,
    List.append_nil]

end Terminal

mutual

/-- The leaves of a form are those that its terminals stand for, each once and in the same order. -/
theorem Form.leaves {terminals : List Terminal} {node : Node} : Form terminals node →
    Terminal.leaves terminals = node.leaves.map some
  | .number decimal => by
    cases Numeral.decimal_iff.mp decimal
    rfl
  | .symbol _ => rfl
  | .boolean _ => rfl
  | @Form.string text value decoded => by
    have single : Terminal.leaves [⟨.string, text⟩] =
        [(StringBody.decode text).toOption.map .string] := rfl
    rw [single, decoded]
    rfl
  | @Form.quoted mark inside inner form => by
    have quoted : Terminal.leaves (⟨.quote, mark⟩ :: inside) =
        some (Leaf.ofCore .quoteForm) :: Terminal.leaves inside := rfl
    have same := Node.leaves_quoted inner
    rw [Node.quoted] at same
    rw [quoted, form.leaves, ← List.map_cons, ← same]
    rfl
  | .list forms => by
    rw [Terminal.leaves_cons_of_isShape rfl, Terminal.leaves_append, forms.leaves, Node.leaves,
      List.map_append]
    rfl
  | .dotted forms form => by
    rw [Terminal.leaves_dotted, forms.leaves, form.leaves, ← List.map_append]
    rfl
  | .spliced forms form _ => by
    rw [Terminal.leaves_dotted, forms.leaves, form.leaves, ← List.map_append, Node.leaves, Node.leaves,
      Node.leavesAll_append, List.append_assoc]

theorem Forms.leaves {terminals : List Terminal} {nodes : List Node} : Forms terminals nodes →
    Terminal.leaves terminals = (Node.leavesAll nodes).map some
  | .nil => rfl
  | .cons form forms => by
    rw [Terminal.leaves_append, form.leaves, forms.leaves, Node.leavesAll, List.map_append]

end

namespace Token

/-- What a token stands for that is neither a parenthesis nor a dot. -/
inductive Denotes : Token → Leaf → Prop
  | number {token : Token} {value : Int} (kind : token.kind = .number)
      (decimal : Numeral.Decimal token.text value) : Denotes token (.number value)
  | symbol {token : Token} (kind : token.kind = .symbol) :
      Denotes token (.symbol (.ofSpelling token.text))
  | boolean {token : Token} (kind : token.kind = .boolean) : Denotes token (.boolean token.isTrue)
  | string {token : Token} {value : Text} (kind : token.kind = .string)
      (decoded : token.decodeString = .ok value) : Denotes token (.string value)
  | quote {token : Token} (kind : token.kind = .quote) : Denotes token (Leaf.ofCore .quoteForm)

theorem denotes_leaf? {token : Token} {l : Leaf} (found : token.terminal.leaf? = some l) :
    token.Denotes l := by
  obtain ⟨kind, text, location⟩ := token
  cases kind with
  | opening => cases found
  | closing => cases found
  | dot => cases found
  | number =>
    cases found
    exact .number rfl (Numeral.decimal_iff.mpr rfl)
  | symbol =>
    cases found
    exact .symbol rfl
  | boolean =>
    cases found
    exact .boolean rfl
  | quote =>
    cases found
    exact .quote rfl
  | string =>
    obtain ⟨value, decoded, rfl⟩ := Option.map_eq_some_iff.mp found
    refine .string rfl (decodeString_of_ok ?_)
    cases outcome : StringBody.decode text with
    | ok other =>
      rw [terminal, outcome] at decoded
      cases decoded
      rfl
    | error fault =>
      rw [terminal, outcome] at decoded
      cases decoded

theorem denotes_leaves {tokens : List Token} {leaves : List Leaf}
    (same : Terminal.leaves (tokens.map terminal) = leaves.map some) :
    List.Forall₂ Denotes (tokens.filter fun token => !token.terminal.isShape) leaves := by
  rw [Terminal.leaves, List.filter_map, List.map_map, ← List.forall₂_eq_eq_eq,
    List.forall₂_map_left_iff, List.forall₂_map_right_iff] at same
  exact same.imp fun _ _ found => denotes_leaf? found

end Token

/-- Reading loses no token, doubles none and keeps their order: parentheses and dots give the nodes
    their shape, and each other token stands for one leaf, in turn. -/
theorem read_leaves {text fileName : Text} {nodes : List Node}
    (accepted : read text fileName = .ok nodes) :
    ∃ tokens, tokenize text fileName = .ok tokens ∧
      List.Forall₂ Token.Denotes (tokens.filter fun token => !token.terminal.isShape)
        (nodes.flatMap Node.leaves) := by
  obtain ⟨sound, forms⟩ := TokenStream.forms_of_readForms accepted
  refine ⟨_, tokenize_eq_ok_iff.mpr ⟨sound, rfl⟩, ?_⟩
  rw [← Node.leavesAll_eq_flatMap]
  exact Token.denotes_leaves forms.leaves

theorem read_leaves_spliced :
    let nodes : List Node := [.list [.quoted (.leaf (.symbol (.defined "a"))),
      .list [.leaf (.number 1)] (some (.boolean true)), .leaf (.string "x\n")] (some (.number (-2)))]
    read "('a (+1 . ( . #t)) . (\"x\\n\" . -2))" "file" = .ok nodes ∧
      ∃ tokens, tokenize "('a (+1 . ( . #t)) . (\"x\\n\" . -2))" "file" = .ok tokens ∧
        List.Forall₂ Token.Denotes (tokens.filter fun token => !token.terminal.isShape)
          (nodes.flatMap Node.leaves) := by
  intro nodes
  have found : Text.lex "('a (+1 . ( . #t)) . (\"x\\n\" . -2))" = ⟨[⟨.opening, "("⟩, ⟨.quote, "'"⟩,
      ⟨.symbol, "a"⟩, ⟨.opening, "("⟩, ⟨.number, "+1"⟩, ⟨.dot, "."⟩, ⟨.opening, "("⟩, ⟨.dot, "."⟩,
      ⟨.boolean, "#t"⟩, ⟨.closing, ")"⟩, ⟨.closing, ")"⟩, ⟨.dot, "."⟩, ⟨.opening, "("⟩,
      ⟨.string, "x\\n"⟩, ⟨.dot, "."⟩, ⟨.number, "-2"⟩, ⟨.closing, ")"⟩, ⟨.closing, ")"⟩], none⟩ := by
    decide +kernel
  have decoded : StringBody.decode "x\\n" = .ok "x\n" := by decide +kernel
  have accepted : read "('a (+1 . ( . #t)) . (\"x\\n\" . -2))" "file" = .ok nodes := by
    have inner : Form [⟨.opening, "("⟩, ⟨.number, "+1"⟩, ⟨.dot, "."⟩, ⟨.opening, "("⟩, ⟨.dot, "."⟩,
        ⟨.boolean, "#t"⟩, ⟨.closing, ")"⟩, ⟨.closing, ")"⟩]
          (.list [.leaf (.number 1)] (some (.boolean true))) :=
      .spliced (.single (.number (.plus (Text.ofString "1")))) (.dotted .nil (.boolean "#t")) nofun
    have behind : Form [⟨.opening, "("⟩, ⟨.string, "x\\n"⟩, ⟨.dot, "."⟩, ⟨.number, "-2"⟩, ⟨.closing, ")"⟩]
        (.list [.leaf (.string "x\n")] (some (.number (-2)))) :=
      .dotted (.single (.string decoded)) (.number (.minus (Text.ofString "2")))
    have marked : Form [⟨.quote, "'"⟩, ⟨.symbol, "a"⟩] (.quoted (.leaf (.symbol (.defined "a")))) :=
      .quoted (.symbol "a")
    have elements := Forms.cons marked (.single inner)
    exact read_of_lex found (.single (.spliced elements behind nofun))
  exact ⟨accepted, read_leaves accepted⟩

end SchemeSyntax
