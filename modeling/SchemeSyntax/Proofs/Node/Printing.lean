import SchemeSyntax.Node.Printer
import SchemeSyntax.Proofs.Form.Grammar
import SchemeSyntax.Proofs.Node.Respelling
import SchemeSyntax.Proofs.Text.Escape

namespace SchemeSyntax

/-- The terminal that a leaf is printed as, where `escape` writes the bodies of strings. -/
def Leaf.terminal (escape : Text → Text) : Leaf → Terminal
  | number value => ⟨.number, Numeral.ofInt value⟩
  | symbol s => ⟨.symbol, s.name⟩
  | string value => ⟨.string, escape value⟩
  | boolean true => ⟨.boolean, Text.ofString "#t"⟩
  | boolean false => ⟨.boolean, Text.ofString "#f"⟩
  | unclassified value => ⟨.symbol, (unclassified value).render⟩

theorem Leaf.terminal_congr {escape other : Text → Text} (l : Leaf)
    (same : ∀ value, l = string value → escape value = other value) :
    l.terminal escape = l.terminal other := by
  cases l with
  | string value => rw [terminal, terminal, same value rfl]
  | boolean value => cases value <;> rfl
  | number value => rfl
  | symbol s => rfl
  | unclassified value => rfl

namespace Node

theorem inductPrinted {motive : Node → Prop} (leaf : ∀ l, motive (.leaf l))
    (quoted : ∀ form, motive form → motive (.quoted form))
    (list : ∀ nodes tail, (∀ form, .list nodes tail ≠ Node.quoted form) →
      (∀ node ∈ nodes, motive node) → motive (.list nodes tail)) (node : Node) : motive node := by
  induction node with
  | leaf l => exact leaf l
  | list nodes tail ih =>
    by_cases mark : ∃ form, .list nodes tail = Node.quoted form
    · obtain ⟨form, same⟩ := mark
      cases same
      exact quoted form (ih form (by simp))
    · exact list nodes tail (not_exists.mp mark) ih

variable (escape : Text → Text)

def tailTerminals : Option Leaf → List Terminal
  | none => []
  | some tail => [⟨.dot, Text.ofString "."⟩, tail.terminal escape]

mutual

def terminals : Node → List Terminal
  | leaf l => [l.terminal escape]
  | list [leaf (.symbol (.core .quoteForm)), form] none =>
    ⟨.quote, [CodePoint.apostrophe]⟩ :: terminals form
  | list nodes tail =>
    ⟨.opening, [CodePoint.leftParen]⟩ ::
      (terminalsAll nodes ++ (tailTerminals escape tail ++ [⟨.closing, [CodePoint.rightParen]⟩]))

def terminalsAll : List Node → List Terminal
  | [] => []
  | node :: nodes => terminals node ++ terminalsAll nodes

end

def renderEnd : Option Leaf → Text
  | none => [CodePoint.rightParen]
  | some tail => Text.ofString " . " ++ (tail.terminal escape).spelling ++ [CodePoint.rightParen]

mutual

/-- Printing with `escape` for the bodies of strings. -/
def renderWith : Node → Text
  | leaf l => (l.terminal escape).spelling
  | list [leaf (.symbol (.core .quoteForm)), form] none => CodePoint.apostrophe :: renderWith form
  | list nodes tail => CodePoint.leftParen :: (renderAll nodes ++ renderEnd escape tail)

def renderAll : List Node → Text
  | [] => []
  | node :: nodes => renderWith node ++ renderBehind nodes

def renderBehind : List Node → Text
  | [] => []
  | node :: nodes => CodePoint.space :: (renderWith node ++ renderBehind nodes)

end

variable {escape} {nodes : List Node} {tail : Option Leaf}

theorem terminals_quoted (form : Node) :
    (quoted form).terminals escape = ⟨.quote, [CodePoint.apostrophe]⟩ :: form.terminals escape := rfl

theorem terminals_list (plain : ∀ form, list nodes tail ≠ quoted form) :
    (list nodes tail).terminals escape =
      ⟨.opening, [CodePoint.leftParen]⟩ :: (terminalsAll escape nodes ++
        (tailTerminals escape tail ++ [⟨.closing, [CodePoint.rightParen]⟩])) := by
  rw [terminals]
  intro form single proper
  subst single proper
  exact plain form rfl

theorem renderWith_list (plain : ∀ form, list nodes tail ≠ quoted form) :
    (list nodes tail).renderWith escape =
      CodePoint.leftParen :: (renderAll escape nodes ++ renderEnd escape tail) := by
  rw [renderWith]
  intro form single proper
  subst single proper
  exact plain form rfl

theorem renderEnd_congr {other : Text → Text}
    (same : ∀ value, tail = some (.string value) → escape value = other value) :
    renderEnd escape tail = renderEnd other tail := by
  cases tail with
  | none => rfl
  | some tail =>
    have terminal := tail.terminal_congr fun value is => same value (congrArg some is)
    rw [renderEnd, renderEnd, terminal]

theorem renderBehind_congr {other : Text → Text}
    (each : ∀ node ∈ nodes, node.renderWith escape = node.renderWith other) :
    renderBehind escape nodes = renderBehind other nodes := by
  induction nodes with
  | nil => rfl
  | cons node nodes ih =>
    obtain ⟨head, others⟩ := List.forall_mem_cons.mp each
    rw [renderBehind, renderBehind, head, ih others]

theorem renderAll_congr {other : Text → Text}
    (each : ∀ node ∈ nodes, node.renderWith escape = node.renderWith other) :
    renderAll escape nodes = renderAll other nodes := by
  cases nodes with
  | nil => rfl
  | cons node nodes =>
    obtain ⟨head, others⟩ := List.forall_mem_cons.mp each
    rw [renderAll, renderAll, head, renderBehind_congr others]

/-- What is printed depends on how the strings in the tree are written, and on no other. -/
theorem renderWith_congr {other : Text → Text} {node : Node}
    (same : ∀ value, Leaf.string value ∈ node.leaves → escape value = other value) :
    node.renderWith escape = node.renderWith other := by
  induction node using inductPrinted with
  | leaf l =>
    have terminal := l.terminal_congr fun value is => same value (List.mem_singleton.mpr is.symm)
    rw [renderWith, renderWith, terminal]
  | quoted form ih =>
    have inner : form.renderWith escape = form.renderWith other := by
      apply ih
      intro value member
      have inside : Leaf.string value ∈ (quoted form).leaves := by simp [leaves_quoted, member]
      exact same value inside
    exact congrArg (CodePoint.apostrophe :: ·) inner
  | list nodes tail plain ih =>
    have each : ∀ node ∈ nodes, node.renderWith escape = node.renderWith other := by
      intro node member
      apply ih node member
      intro value within
      exact same value (mem_leaves_list.mpr (.inl ⟨node, member, within⟩))
    have last : ∀ value, tail = some (.string value) → escape value = other value :=
      fun value behind => same value (mem_leaves_list.mpr (.inr behind))
    rw [renderWith_list plain, renderWith_list plain, renderAll_congr each, renderEnd_congr last]

theorem render_leaf (l : Leaf) : l.render = (l.terminal StringBody.escape).spelling := by
  cases l with
  | boolean value => cases value <;> rfl
  | number value => rfl
  | symbol s => rfl
  | string value => rfl
  | unclassified value => rfl

theorem renderTail_eq_renderEnd (tail : Option Leaf) :
    renderTail tail = renderEnd StringBody.escape tail := by
  cases tail with
  | none => rfl
  | some tail => rw [renderTail, renderEnd, render_leaf]

theorem renderRest_eq_renderBehind
    (each : ∀ node ∈ nodes, node.render = node.renderWith StringBody.escape) :
    renderRest nodes = renderBehind StringBody.escape nodes := by
  induction nodes with
  | nil => rfl
  | cons node nodes ih =>
    obtain ⟨head, others⟩ := List.forall_mem_cons.mp each
    rw [renderRest, renderBehind, head, ih others, List.cons_append]

theorem render_eq_renderWith (node : Node) : node.render = node.renderWith StringBody.escape := by
  induction node using inductPrinted with
  | leaf l => exact render_leaf l
  | quoted form ih => exact congrArg (CodePoint.apostrophe :: ·) ih
  | list nodes tail plain ih =>
    rw [renderWith_list plain, ← renderTail_eq_renderEnd]
    cases nodes with
    | nil => rfl
    | cons node nodes =>
      obtain ⟨head, others⟩ := List.forall_mem_cons.mp ih
      have rest := renderRest_eq_renderBehind others
      rw [render, renderAll, head, rest, List.cons_append, List.cons_append]
      intro form first single proper
      subst first single proper
      exact plain form rfl

end Node

end SchemeSyntax
