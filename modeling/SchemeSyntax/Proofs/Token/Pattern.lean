import SchemeSyntax.Token.Pattern

namespace SchemeSyntax.Pattern

/-- Any number of rounds, one behind the other. -/
inductive Rounds (once : Text → Text → Prop) : Text → Text → Prop
  | nil {rest : Text} : Rounds once [] rest
  | cons {taken more rest : Text} (first : once taken (more ++ rest)) (later : Rounds once more rest) :
      Rounds once (taken ++ more) rest

/-- The pattern may take the first text where the second one follows. -/
def Takes : Pattern → Text → Text → Prop
  | empty, taken, _ => taken = []
  | finish, taken, rest => taken = [] ∧ rest = []
  | one accepts, taken, _ => ∃ c, taken = [c] ∧ accepts c = true
  | seq first second, taken, rest =>
    ∃ left right, taken = left ++ right ∧ first.Takes left (right ++ rest) ∧ second.Takes right rest
  | either first second, taken, rest => first.Takes taken rest ∨ second.Takes taken rest
  | many once, taken, rest => Rounds once.Takes taken rest

theorem mem_andThen {takings : List (Text × Text)} {next : Text → List (Text × Text)}
    {taken rest : Text} :
    (taken, rest) ∈ andThen takings next ↔ ∃ left middle right, taken = left ++ right ∧
      (left, middle) ∈ takings ∧ (right, rest) ∈ next middle := by
  simp only [andThen, List.mem_flatMap, List.mem_map, Prod.exists, Prod.mk.injEq]
  constructor
  · intro member
    obtain ⟨left, middle, first, right, _, second, rfl, rfl⟩ := member
    exact ⟨left, middle, right, rfl, first, second⟩
  · intro split
    obtain ⟨left, middle, right, rfl, first, second⟩ := split
    exact ⟨left, middle, first, right, rest, second, rfl, rfl⟩

section Rounds

variable {once : Text → List (Text × Text)} {takes : Text → Text → Prop}

theorem rounds_of_mem
    (agrees : ∀ {t taken rest}, (taken, rest) ∈ once t ↔ t = taken ++ rest ∧ takes taken rest)
    {n : Nat} {t taken rest : Text} (member : (taken, rest) ∈ rounds once n t) :
    t = taken ++ rest ∧ Rounds takes taken rest := by
  have stopped : ∀ {t taken : Text}, (taken, rest) ∈ [(([] : Text), t)] →
      t = taken ++ rest ∧ Rounds takes taken rest := by
    intro t taken last
    cases List.mem_singleton.mp last
    exact ⟨rfl, .nil⟩
  induction n generalizing t taken with
  | zero => exact stopped member
  | succ n ih =>
    rcases List.mem_append.mp member with another | last
    · obtain ⟨left, middle, right, rfl, first, later⟩ := mem_andThen.mp another
      obtain ⟨rfl, takesLeft⟩ := agrees.mp first
      obtain ⟨rfl, takesRight⟩ := ih later
      exact ⟨(List.append_assoc left right rest).symm, .cons takesLeft takesRight⟩
    · exact stopped last

theorem mem_of_rounds
    (agrees : ∀ {t taken rest}, (taken, rest) ∈ once t ↔ t = taken ++ rest ∧ takes taken rest)
    {taken rest : Text} (taking : Rounds takes taken rest) {n : Nat} (enough : taken.length ≤ n) :
    (taken, rest) ∈ rounds once n (taken ++ rest) := by
  induction taking generalizing n with
  | nil => cases n <;> simp [rounds]
  | @cons taken more rest first _ ih =>
    rw [List.length_append] at enough
    cases taken with
    | nil => exact ih (by simpa using enough)
    | cons c taken =>
      cases n with
      | zero => simp at enough
      | succ n =>
        have later := ih (n := n) (by simp only [List.length_cons] at enough; omega)
        have here := agrees.mpr ⟨List.append_assoc (c :: taken) more rest, first⟩
        exact List.mem_append_left _ (mem_andThen.mpr ⟨_, _, more, rfl, here, later⟩)

end Rounds

/-- A search comes upon a taking just if the pattern may take it. -/
theorem mem_takings {pattern : Pattern} {t taken rest : Text} :
    (taken, rest) ∈ pattern.takings t ↔ t = taken ++ rest ∧ pattern.Takes taken rest := by
  induction pattern generalizing t taken rest with
  | empty =>
    simp only [takings, Takes, List.mem_singleton, Prod.mk.injEq]
    constructor
    · intro same
      exact ⟨by rw [same.1, same.2]; rfl, same.1⟩
    · intro split
      obtain ⟨rfl, rfl⟩ := split
      exact ⟨rfl, rfl⟩
  | finish =>
    cases t with
    | nil => simp [takings, Takes]
    | cons c t =>
      simp only [takings, Takes, List.isEmpty_cons, Bool.false_eq_true, if_false, List.not_mem_nil,
        false_iff]
      intro split
      obtain ⟨same, rfl, rfl⟩ := split
      cases same
  | one accepts =>
    cases t with
    | nil =>
      simp only [takings, Takes, List.not_mem_nil, false_iff]
      intro split
      obtain ⟨same, c, rfl, _⟩ := split
      cases same
    | cons c t =>
      simp only [takings, Takes, List.mem_ite_nil_right, List.mem_singleton, Prod.mk.injEq]
      constructor
      · intro member
        obtain ⟨accepted, rfl, rfl⟩ := member
        exact ⟨rfl, c, rfl, accepted⟩
      · intro split
        obtain ⟨same, d, rfl, accepted⟩ := split
        cases same
        exact ⟨accepted, rfl, rfl⟩
  | seq first second firstAgrees secondAgrees =>
    rw [takings, mem_andThen]
    constructor
    · intro member
      obtain ⟨left, middle, right, rfl, here, there⟩ := member
      obtain ⟨rfl, takesLeft⟩ := firstAgrees.mp here
      obtain ⟨rfl, takesRight⟩ := secondAgrees.mp there
      exact ⟨(List.append_assoc left right rest).symm, left, right, rfl, takesLeft, takesRight⟩
    · intro split
      obtain ⟨rfl, left, right, rfl, takesLeft, takesRight⟩ := split
      have here := firstAgrees.mpr ⟨List.append_assoc left right rest, takesLeft⟩
      exact ⟨left, right ++ rest, right, rfl, here, secondAgrees.mpr ⟨rfl, takesRight⟩⟩
  | either first second firstAgrees secondAgrees =>
    rw [takings, List.mem_append, firstAgrees, secondAgrees, Takes, and_or_left]
  | many once agrees =>
    constructor
    · exact rounds_of_mem agrees
    · intro split
      obtain ⟨rfl, taking⟩ := split
      exact mem_of_rounds agrees taking (by simp)

/-- A pattern that takes one character of a class, repeated, takes characters of the class. -/
theorem takes_many {once : Pattern} {accepts : CodePoint → Bool}
    (single : ∀ {taken rest}, once.Takes taken rest ↔ ∃ c, taken = [c] ∧ accepts c = true)
    {taken rest : Text} : (many once).Takes taken rest ↔ ∀ c ∈ taken, accepts c = true := by
  constructor
  · intro taking
    induction taking with
    | nil => exact nofun
    | cons first _ ih =>
      obtain ⟨c, rfl, accepted⟩ := single.mp first
      exact List.forall_mem_cons.mpr ⟨accepted, ih⟩
  · intro accepted
    induction taken with
    | nil => exact .nil
    | cons c taken ih =>
      obtain ⟨here, later⟩ := List.forall_mem_cons.mp accepted
      have first : once.Takes [c] (taken ++ rest) := single.mpr ⟨c, rfl, here⟩
      exact Rounds.cons first (ih later)

theorem takes_literal {spelling taken rest : Text} :
    (literal spelling).Takes taken rest ↔ taken = spelling := by
  induction spelling generalizing taken with
  | nil => rfl
  | cons c spelling ih =>
    constructor
    · intro taking
      obtain ⟨left, right, rfl, ⟨d, rfl, same⟩, later⟩ := taking
      rw [ih.mp later, of_decide_eq_true same]
      rfl
    · intro same
      subst same
      exact ⟨[c], spelling, rfl, ⟨c, rfl, decide_eq_true rfl⟩, ih.mpr rfl⟩

theorem takes_atLeastOne_one {accepts : CodePoint → Bool} {taken rest : Text} :
    (atLeastOne (one accepts)).Takes taken rest ↔ taken ≠ [] ∧ ∀ c ∈ taken, accepts c = true := by
  constructor
  · intro taking
    obtain ⟨left, right, rfl, ⟨c, rfl, accepted⟩, later⟩ := taking
    refine ⟨List.cons_ne_nil c right, List.forall_mem_cons.mpr ⟨accepted, ?_⟩⟩
    exact (takes_many Iff.rfl).mp later
  · intro spelled
    obtain ⟨nonempty, accepted⟩ := spelled
    obtain ⟨c, taken, rfl⟩ := List.exists_cons_of_ne_nil nonempty
    obtain ⟨here, later⟩ := List.forall_mem_cons.mp accepted
    exact ⟨[c], taken, rfl, ⟨c, rfl, here⟩, (takes_many Iff.rfl).mpr later⟩

/-- A search follows the first taking, wherever it can go on behind it. -/
theorem head?_andThen {takings : List (Text × Text)} {next : Text → List (Text × Text)}
    {first second : Text × Text} (here : takings.head? = some first)
    (there : (next first.2).head? = some second) :
    (andThen takings next).head? = some (first.1 ++ second.1, second.2) := by
  cases takings with
  | nil => cases here
  | cons taking takings =>
    cases here
    rw [andThen, List.flatMap_cons, List.head?_append, List.head?_map, there]
    rfl

theorem head?_rounds_cons {once : Text → List (Text × Text)} {n : Nat} {t : Text}
    {first later : Text × Text} (here : (once t).head? = some first)
    (there : (rounds once n first.2).head? = some later) :
    (rounds once (n + 1) t).head? = some (first.1 ++ later.1, later.2) := by
  rw [rounds, List.head?_append, head?_andThen here there]
  rfl

theorem head?_rounds_nil {once : Text → List (Text × Text)} {n : Nat} {t : Text}
    (nothing : once t = []) : (rounds once n t).head? = some ([], t) := by
  cases n with
  | zero => rfl
  | succ n => rw [rounds, nothing]; rfl

theorem head?_rounds_one {accepts : CodePoint → Bool} {n : Nat} {t : Text} (enough : t.length ≤ n) :
    (rounds (one accepts).takings n t).head? = some (t.takeWhile accepts, t.dropWhile accepts) := by
  induction t generalizing n with
  | nil => exact head?_rounds_nil rfl
  | cons c t ih =>
    by_cases accepted : accepts c = true
    · obtain ⟨n, rfl⟩ : ∃ m, n = m + 1 := ⟨n - 1, by simp only [List.length_cons] at enough; omega⟩
      have later := ih (n := n) (Nat.le_of_succ_le_succ enough)
      have here : ((one accepts).takings (c :: t)).head? = some ([c], t) := by
        rw [takings, if_pos accepted]
        rfl
      rw [head?_rounds_cons here later, List.takeWhile_cons_of_pos accepted,
        List.dropWhile_cons_of_pos accepted]
      rfl
    · have nothing : (one accepts).takings (c :: t) = [] := if_neg accepted
      rw [head?_rounds_nil nothing, List.takeWhile_cons_of_neg accepted,
        List.dropWhile_cons_of_neg accepted]

theorem first?_many_one (accepts : CodePoint → Bool) (t : Text) :
    (many (one accepts)).first? t = some (t.takeWhile accepts) := by
  rw [first?, takings, head?_rounds_one (Nat.le_refl _)]
  rfl

end SchemeSyntax.Pattern
