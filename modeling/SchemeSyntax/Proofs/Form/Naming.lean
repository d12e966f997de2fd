import Mathlib.Data.List.Forall2
import SchemeSyntax.Proofs.Form.Leaves
import SchemeSyntax.Proofs.Node.Respelling
import SchemeSyntax.Proofs.Token.Continuation
import SchemeSyntax.Symbol.Counter

namespace SchemeSyntax

def Leaf.symbol? : Leaf → Option Symbol
  | symbol s => some s
  | _ => none

/-- The symbols anywhere in a node, from left to right. -/
def Node.symbols (node : Node) : List Symbol := node.leaves.filterMap Leaf.symbol?

def Symbol.isInternal : Symbol → Bool
  | core c => c.isInternal
  | _ => false

namespace Token

def isName (token : Token) : Bool := token.kind = .symbol || token.kind = .quote

/-- What a token can name: a quote mark the core symbol of quoting, a symbol token the public core
    symbol that is printed like it, or else what the user defines by its spelling. -/
inductive Names : Token → Symbol → Prop
  | quote {token : Token} (mark : token.kind = .quote) : Names token (.core .quoteForm)
  | core {token : Token} {core : CoreSymbol} (kind : token.kind = .symbol)
      (isPublic : core.isInternal = false) (spelled : token.text = core.name) :
      Names token (.core core)
  | defined {token : Token} (kind : token.kind = .symbol)
      (free : ∀ core : CoreSymbol, core.isInternal = false → token.text ≠ core.name) :
      Names token (.defined token.text)

theorem names_ofSpelling {token : Token} (kind : token.kind = .symbol) :
    token.Names (.ofSpelling token.text) := by
  unfold Symbol.ofSpelling
  split
  · next core found =>
    obtain ⟨spelled, isPublic⟩ := CoreSymbol.eq_name_of_lookup? found
    exact .core kind isPublic spelled
  · next nothing =>
    refine .defined kind fun core isPublic spelled => ?_
    rw [spelled, CoreSymbol.lookup?_name, isPublic] at nothing
    cases nothing

namespace Names

variable {token : Token} {symbol : Symbol}

theorem isInternal_eq_false (names : token.Names symbol) : symbol.isInternal = false := by
  cases names with
  | quote _ => rfl
  | core _ isPublic _ => exact isPublic
  | defined _ _ => rfl

theorem ne_generated (names : token.Names symbol) (id : Int) : symbol ≠ .generated id := by
  cases names <;> exact Symbol.noConfusion

theorem ne_core (names : token.Names symbol) {core : CoreSymbol} (internal : core.isInternal = true) :
    symbol ≠ .core core := by
  rintro rfl
  cases internal.symm.trans names.isInternal_eq_false

end Names

theorem names_of_mem {tokens : List Token} {symbols : List Symbol}
    (named : List.Forall₂ Names tokens symbols) : ∀ symbol ∈ symbols, ∃ token, Names token symbol := by
  induction named with
  | nil => exact nofun
  | cons first _ ih =>
    intro symbol member
    rcases List.mem_cons.mp member with rfl | member
    · exact ⟨_, first⟩
    · exact ih symbol member

theorem not_isName_of_isShape {token : Token} (shape : token.terminal.isShape = true) :
    ¬ token.isName = true := by
  intro isName
  rcases Bool.or_eq_true_iff.mp isName with kind | kind
  · rw [Terminal.isShape, terminal, of_decide_eq_true kind] at shape
    cases shape
  · rw [Terminal.isShape, terminal, of_decide_eq_true kind] at shape
    cases shape

theorem Denotes.names {token : Token} {l : Leaf} (denotes : token.Denotes l) :
    (∃ symbol, l.symbol? = some symbol ∧ token.isName = true ∧ token.Names symbol) ∨
      l.symbol? = none ∧ token.isName = false := by
  cases denotes with
  | number kind => exact .inr ⟨rfl, by simp [isName, kind]⟩
  | boolean kind => exact .inr ⟨rfl, by simp [isName, kind]⟩
  | string kind _ => exact .inr ⟨rfl, by simp [isName, kind]⟩
  | symbol kind => exact .inl ⟨_, rfl, by simp [isName, kind], names_ofSpelling kind⟩
  | quote kind => exact .inl ⟨_, rfl, by simp [isName, kind], .quote kind⟩

/-- Of the leaves that tokens stand for, the symbols are those that their names name. -/
theorem names_leaves {tokens : List Token} {leaves : List Leaf}
    (each : List.Forall₂ Denotes (tokens.filter fun token => !token.terminal.isShape) leaves) :
    List.Forall₂ Names (tokens.filter isName) (leaves.filterMap Leaf.symbol?) := by
  have inside : tokens.filter isName =
      (tokens.filter fun token => !token.terminal.isShape).filter isName := by
    rw [List.filter_filter]
    refine List.filter_congr fun token _ => ?_
    by_cases isName : token.isName = true
    · have plain : ¬ token.terminal.isShape = true := fun shape => not_isName_of_isShape shape isName
      simp [isName, plain]
    · simp [isName]
  rw [inside]
  generalize (tokens.filter fun token => !token.terminal.isShape) = plain at each
  induction each with
  | nil => exact .nil
  | cons denotes _ ih =>
    rcases denotes.names with ⟨symbol, named, isName, names⟩ | ⟨unnamed, other⟩
    · rw [List.filter_cons_of_pos isName, List.filterMap_cons_some named]
      exact .cons names ih
    · rw [List.filter_cons_of_neg (by simp [other]), List.filterMap_cons_none unnamed]
      exact ih

end Token

theorem Node.symbols_flatMap (nodes : List Node) :
    nodes.flatMap symbols = (leavesAll nodes).filterMap Leaf.symbol? := by
  rw [leavesAll_eq_flatMap, List.filterMap_flatMap]
  rfl

theorem names_of_read {text fileName : Text} {nodes : List Node}
    (accepted : read text fileName = .ok nodes) :
    ∃ tokens, tokenize text fileName = .ok tokens ∧
      List.Forall₂ Token.Names (tokens.filter Token.isName) (nodes.flatMap Node.symbols) := by
  obtain ⟨sound, forms⟩ := TokenStream.forms_of_readForms accepted
  refine ⟨_, tokenize_eq_ok_iff.mpr ⟨sound, rfl⟩, ?_⟩
  rw [Node.symbols_flatMap]
  exact Token.names_leaves (Token.denotes_leaves forms.leaves)

/-- Only quoting marks and the names in a text name the symbols that are read, one each and in order:
    public core symbols and user-defined ones. None is internal and none can be generated by any
    counter. A program is read as the text is, behind the only internal symbol in it. -/
theorem read_names (text fileName : Text) :
    (∀ nodes, read text fileName = .ok nodes →
      (∃ tokens, tokenize text fileName = .ok tokens ∧
        List.Forall₂ Token.Names (tokens.filter Token.isName) (nodes.flatMap Node.symbols)) ∧
      (∀ symbol ∈ nodes.flatMap Node.symbols, (∀ id, symbol ≠ .generated id) ∧
        symbol ≠ .core .beginProgram ∧ symbol ≠ .core .unspecified) ∧
      (∀ (counters : Counters) (counter : Option Text),
        (counters.fresh counter).1 ∉ nodes.flatMap Node.symbols) ∧
      let program : Node := .list (Leaf.ofCore .beginProgram :: nodes) none
      readProgram text fileName = .ok program ∧
        program.symbols.filter Symbol.isInternal = [.core .beginProgram]) ∧
    ∀ failure, readProgram text fileName = .error failure ↔ read text fileName = .error failure := by
  have whole : readProgram text fileName = (read text fileName).map fun nodes =>
      .list (Leaf.ofCore .beginProgram :: nodes) none :=
    congrArg Prod.fst (TokenStream.readProgram_eq _)
  constructor
  · intro nodes accepted
    obtain ⟨tokens, scanned, named⟩ := names_of_read accepted
    have each := Token.names_of_mem named
    refine ⟨⟨tokens, scanned, named⟩, ?_, ?_, ?_, ?_⟩
    · intro symbol member
      obtain ⟨token, names⟩ := each symbol member
      exact ⟨names.ne_generated, names.ne_core rfl, names.ne_core rfl⟩
    · intro counters counter member
      obtain ⟨token, names⟩ := each _ member
      exact names.ne_generated _ rfl
    · rw [whole, accepted]
      rfl
    · have others : (nodes.flatMap Node.symbols).filter Symbol.isInternal = [] := by
        rw [List.filter_eq_nil_iff]
        intro symbol member
        obtain ⟨token, names⟩ := each symbol member
        rw [names.isInternal_eq_false]
        exact Bool.false_ne_true
      have symbols : (Node.list (Leaf.ofCore .beginProgram :: nodes) none).symbols =
          .core .beginProgram :: nodes.flatMap Node.symbols := by
        rw [Node.symbols_flatMap, Node.symbols, Node.leaves, Option.toList_none, List.append_nil]
        rfl
      rw [symbols, List.filter_cons_of_pos rfl, others]
  · intro failure
    rw [whole]
    cases read text fileName with
    | ok nodes => exact iff_of_false nofun nofun
    | error fault => simp [Except.map]

theorem read_names_forged :
    let nodes : List Node := [.quoted (Leaf.ofCore .ifForm),
      .leaf (.symbol (.defined "$begin-program")), .leaf (.symbol (.defined "$temp$id0"))]
    read "'if $begin-program $temp$id0" "file" = .ok nodes ∧
      (Counters.empty.fresh none).1.name = Text.ofString "$temp$id0" ∧
      (Counters.empty.fresh none).1 ∉ nodes.flatMap Node.symbols ∧
      readProgram "'if $begin-program $temp$id0" "file" =
        .ok (.list (Leaf.ofCore .beginProgram :: nodes) none) := by
  intro nodes
  have found : Text.lex "'if $begin-program $temp$id0" = ⟨[⟨.quote, "'"⟩, ⟨.symbol, "if"⟩,
      ⟨.symbol, "$begin-program"⟩, ⟨.symbol, "$temp$id0"⟩], none⟩ := by decide +kernel
  have accepted : read "'if $begin-program $temp$id0" "file" = .ok nodes :=
    read_of_lex found (.cons (.quoted (.symbol _)) (.cons (.symbol _) (.single (.symbol _))))
  obtain ⟨_, _, unforged, program, _⟩ :=
    (read_names "'if $begin-program $temp$id0" "file").1 nodes accepted
  exact ⟨accepted, by decide +kernel, unforged _ _, program⟩

end SchemeSyntax
