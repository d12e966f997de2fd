import SchemeSyntax.Proofs.Datum.Comparison
import SchemeSyntax.Proofs.Symbol.Counting
import SchemeSyntax.Quotation

namespace SchemeSyntax

theorem CoreSymbol.ofName?_name (core : CoreSymbol) : ofName? core.name = some core := by
  cases core <;> decide

theorem CoreSymbol.name_injective {core other : CoreSymbol} (same : core.name = other.name) : core = other := by
  have found := ofName?_name core
  rw [same, ofName?_name] at found
  exact (Option.some.inj found).symm

namespace Symbol

theorem not_stem_prefix (core : CoreSymbol) : ¬ generatedStem <+: core.name := by
  cases core <;> decide

theorem name_core_ne (core : CoreSymbol) (id : Int) : (Symbol.core core).name ≠ (generated id).name := by
  intro same
  have stem : generatedStem <+: core.name := ⟨Numeral.ofInt id, same.symm⟩
  exact not_stem_prefix core stem

theorem name_generated_iff (id other : Int) : (generated id).name = (generated other).name ↔ id = other := by
  constructor
  · intro same
    exact Decidable.byContradiction fun different => name_generated_ne different same
  · rintro rfl
    rfl

/-- Symbols that no program text defines are told apart by their names. -/
theorem eq_of_name {a b : Symbol} (undefined : a.origin ≠ .defined) (alike : b.origin ≠ .defined)
    (same : a.name = b.name) : a = b := by
  cases a with
  | defined spelling => exact absurd rfl undefined
  | core c =>
    cases b with
    | defined spelling => exact absurd rfl alike
    | core other => exact congrArg core (CoreSymbol.name_injective same)
    | generated id => exact absurd same (name_core_ne c id)
  | generated id =>
    cases b with
    | defined spelling => exact absurd rfl alike
    | core other => exact absurd same.symm (name_core_ne other id)
    | generated other => exact congrArg generated ((name_generated_iff id other).mp same)

theorem exists_spelling {symbol : Symbol} (written : symbol.origin = .defined) :
    ∃ spelling, symbol = defined spelling := by
  cases symbol with
  | core c => cases written
  | generated id => cases written
  | defined spelling => exact ⟨spelling, rfl⟩

/-- Only the first symbol is defined by program text, and it is spelled as the other is printed. -/
def Imitates (a b : Symbol) : Prop :=
  b.origin ≠ .defined ∧ ∃ spelling, a = defined spelling ∧ spelling = b.name

theorem Imitates.name_eq {a b : Symbol} (imitates : a.Imitates b) : a.name = b.name := by
  obtain ⟨_, spelling, rfl, same⟩ := imitates
  exact same

theorem Imitates.ne {a b : Symbol} (imitates : a.Imitates b) : a ≠ b := by
  obtain ⟨undefined, spelling, rfl, _⟩ := imitates
  rintro rfl
  exact undefined rfl

theorem imitates_of_name {a b : Symbol} (same : a.name = b.name) (different : a ≠ b) :
    a.Imitates b ∨ b.Imitates a := by
  by_cases first : a.origin = .defined
  · obtain ⟨spelling, rfl⟩ := exists_spelling first
    by_cases second : b.origin = .defined
    · obtain ⟨other, rfl⟩ := exists_spelling second
      exact absurd (congrArg defined same) different
    · exact .inl ⟨second, spelling, rfl, same⟩
  · by_cases second : b.origin = .defined
    · obtain ⟨other, rfl⟩ := exists_spelling second
      exact .inr ⟨first, other, rfl, same.symm⟩
    · exact absurd (eq_of_name first second same) different

theorem name_eq_iff (a b : Symbol) : a.name = b.name ↔ a = b ∨ a.Imitates b ∨ b.Imitates a := by
  constructor
  · intro same
    by_cases equal : a = b
    · exact .inl equal
    · exact .inr (imitates_of_name same equal)
  · rintro (rfl | imitates | imitates)
    · rfl
    · exact imitates.name_eq
    · exact imitates.name_eq.symm

/-- What a symbol denotes when it is quoted. -/
def denoted (symbol : Symbol) : Datum := .atom (.symbol symbol.name)

theorem identical_denoted (a b : Symbol) : a.denoted.identical b.denoted = a.denoted.equals b.denoted := by
  rw [Datum.equals_eq_same]
  exact Bool.and_true _

theorem equals_denoted_iff (a b : Symbol) : a.denoted.equals b.denoted = true ↔ a.name = b.name := by
  rw [Datum.equals_iff, denoted, denoted, Datum.atom.injEq, Atom.symbol.injEq]

/-- Symbols that differ have the same name only where one of them alone is defined by program text and
    imitates the other. No other symbols share a name, and what two symbols denote is the same datum, one
    object even, exactly where they share it. -/
theorem names_coincide_iff :
    (∀ a b : Symbol, a.name = b.name ∧ a ≠ b ↔ a.Imitates b ∨ b.Imitates a) ∧
    (∀ core id, (Symbol.core core).name ≠ (generated id).name) ∧
    (∀ id other, (generated id).name = (generated other).name ↔ id = other) ∧
    ∀ a b : Symbol, ∃ left right, (Node.leaf (.symbol a)).toDatum = .ok left ∧
      (Node.leaf (.symbol b)).toDatum = .ok right ∧ left.identical right = left.equals right ∧
        (left.equals right = true ↔ a = b ∨ a.Imitates b ∨ b.Imitates a) := by
  refine ⟨?_, name_core_ne, name_generated_iff, ?_⟩
  · intro a b
    constructor
    · rintro ⟨same, different⟩
      exact imitates_of_name same different
    · rintro (imitates | imitates)
      · exact ⟨imitates.name_eq, imitates.ne⟩
      · exact ⟨imitates.name_eq.symm, imitates.ne.symm⟩
  · intro a b
    refine ⟨a.denoted, b.denoted, rfl, rfl, identical_denoted a b, ?_⟩
    rw [equals_denoted_iff, name_eq_iff]

end Symbol

end SchemeSyntax
