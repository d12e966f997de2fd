import SchemeSyntax.Proofs.Text.Numeral
import SchemeSyntax.Symbol.Counter

namespace SchemeSyntax

theorem Symbol.name_generated_ne {left right : Int} (different : left ≠ right) :
    (generated left).name ≠ (generated right).name := by
  intro same
  have digits : Numeral.ofInt left = Numeral.ofInt right := List.append_cancel_left same
  exact different (Numeral.ofInt_injective digits)

namespace CounterStep

variable (counter : Option Text)

def names : CounterStep → Bool
  | create name _ => some name = counter
  | take named => named = counter
  | peek named => named = counter
  | fresh named => named = counter
  | define _ => false
  | core _ => false

def creates : CounterStep → Bool
  | create name _ => some name = counter
  | _ => false

def consumes : CounterStep → Bool
  | take named => named = counter
  | fresh named => named = counter
  | _ => false

variable {counter}

theorem creates_of_not_names {step : CounterStep} (unnamed : step.names counter = false) :
    step.creates counter = false := by
  cases step with
  | create name start => exact unnamed
  | take named => rfl
  | peek named => rfl
  | fresh named => rfl
  | define name => rfl
  | core core => rfl

theorem consumes_of_not_names {step : CounterStep} (unnamed : step.names counter = false) :
    step.consumes counter = false := by
  cases step with
  | create name start => rfl
  | take named => exact unnamed
  | peek named => rfl
  | fresh named => exact unnamed
  | define name => rfl
  | core core => rfl

/-- The steps since a counter was made, with what it started from. The default counter is there
    before the first step. -/
inductive Since : Option Text → Int → List CounterStep → List CounterStep → Prop
  | default (steps : List CounterStep) : Since none 0 steps steps
  | created (before : List CounterStep) {name : Text} {start : Int} {life : List CounterStep}
      (kept : ∀ step ∈ life, step.creates (some name) = false) :
      Since (some name) start (before ++ create name start :: life) life

end CounterStep

namespace Counters

variable {counter : Option Text}

theorem peek_take (counters : Counters) (named counter : Option Text) :
    (counters.take named).2.peek counter =
      counters.peek counter + if named = counter then 1 else 0 := by
  by_cases same : named = counter
  · subst same
    rw [if_pos rfl]
    exact peek_put_self _ _ _
  · rw [if_neg same, Int.add_zero]
    exact peek_put_of_ne _ _ (Ne.symm same)

/-- Unless a step makes the counter anew, it moves it on by one or not at all. -/
theorem peek_step (counters : Counters) {step : CounterStep} (kept : step.creates counter = false) :
    (counters.step step).2.peek counter =
      counters.peek counter + if step.consumes counter then 1 else 0 := by
  cases step with
  | create name start =>
    have other : counter ≠ some name := fun same => of_decide_eq_false kept same.symm
    exact (peek_put_of_ne _ _ other).trans (Int.add_zero _).symm
  | take named =>
    simp only [CounterStep.consumes, decide_eq_true_eq]
    exact peek_take counters named counter
  | peek named => exact (Int.add_zero _).symm
  | fresh named =>
    simp only [CounterStep.consumes, decide_eq_true_eq]
    exact peek_take counters named counter
  | define name => exact (Int.add_zero _).symm
  | core core => exact (Int.add_zero _).symm

theorem peek_step_of_not_names (counters : Counters) {step : CounterStep}
    (unnamed : step.names counter = false) :
    (counters.step step).2.peek counter = counters.peek counter := by
  have moved := counters.peek_step (CounterStep.creates_of_not_names unnamed)
  rw [CounterStep.consumes_of_not_names unnamed] at moved
  exact moved.trans (Int.add_zero _)

theorem run_append (counters : Counters) (before after : List CounterStep) :
    (counters.run (before ++ after)).2 = ((counters.run before).2.run after).2 := by
  induction before generalizing counters with
  | nil => rfl
  | cons step before ih => exact ih _

theorem answer_run (counters : Counters) (steps : List CounterStep) (i : Nat) :
    (counters.run steps).1[i]? =
      steps[i]?.map fun step => ((counters.run (steps.take i)).2.step step).1 := by
  induction steps generalizing counters i with
  | nil => rfl
  | cons step steps ih =>
    cases i with
    | zero => rfl
    | succ i => exact ih _ i

theorem peek_run (counters : Counters) {life : List CounterStep}
    (kept : ∀ step ∈ life, step.creates counter = false) :
    (counters.run life).2.peek counter =
      counters.peek counter + life.countP (CounterStep.consumes counter) := by
  induction life generalizing counters with
  | nil => exact (Int.add_zero _).symm
  | cons step life ih =>
    obtain ⟨here, later⟩ := List.forall_mem_cons.mp kept
    have moved := ih (counters.step step).2 later
    rw [counters.peek_step here] at moved
    rw [run, List.countP_cons, moved]
    split <;> omega

theorem peek_of_since {steps life : List CounterStep} {start : Int}
    (since : CounterStep.Since counter start steps life) :
    (empty.run steps).2.peek counter = start + life.countP (CounterStep.consumes counter) := by
  cases since with
  | default =>
    have unmade : ∀ step ∈ steps, step.creates none = false := by
      intro step _
      cases step <;> rfl
    exact peek_run empty unmade
  | created before kept =>
    rw [run_append, run, peek_run _ kept, step, peek_put_self]

theorem answer_of_step {steps : List CounterStep} {i : Nat} {step : CounterStep}
    (found : steps[i]? = some step) :
    (empty.run steps).1[i]? = some ((empty.run (steps.take i)).2.step step).1 := by
  rw [answer_run, found]
  rfl

/-- A counter that is not made anew has moved on by the time of a later call. -/
theorem peek_lt_of_fresh {steps : List CounterStep} {i j : Nat} (before : i < j)
    (first : steps[i]? = some (.fresh counter))
    (kept : ∀ step ∈ (steps.take j).drop (i + 1), step.creates counter = false) :
    (empty.run (steps.take i)).2.peek counter < (empty.run (steps.take j)).2.peek counter := by
  have split : steps.take j = steps.take i ++ .fresh counter :: (steps.take j).drop (i + 1) := by
    have here : (steps.take j)[i]? = some (.fresh counter) := by
      rw [List.getElem?_take_of_lt before, first]
    obtain ⟨inside, same⟩ := List.getElem?_eq_some_iff.mp here
    have parts := List.take_append_drop i (steps.take j)
    rw [List.take_take, Nat.min_eq_left (Nat.le_of_lt before), List.drop_eq_getElem_cons inside,
      same] at parts
    exact parts.symm
  have moved := (empty.run (steps.take i)).2.peek_take counter counter
  rw [if_pos rfl] at moved
  rw [split, run_append, run, peek_run _ kept]
  show _ < ((empty.run (steps.take i)).2.take counter).2.peek counter + _
  rw [moved]
  omega

/-- In every run, the value consumed from a counter is the one that it started from, moved on by one
    for each value consumed since, by whichever way. Peeking gives that value and consumes nothing,
    and a step leaves alone every counter that it does not name. So the symbols that are generated
    from one counter differ, and their names too. They differ from all other symbols, even where the
    names are the same. -/
theorem run_counts (steps : List CounterStep) :
    (∀ (i : Nat) counter start life, CounterStep.Since counter start (steps.take i) life →
      let value := start + life.countP (CounterStep.consumes counter)
      (steps[i]? = some (.take counter) → (empty.run steps).1[i]? = some (.value value)) ∧
      (steps[i]? = some (.fresh counter) → (empty.run steps).1[i]? = some (.symbol (.generated value))) ∧
      (steps[i]? = some (.peek counter) → (empty.run steps).1[i]? = some (.value value))) ∧
    (∀ (counters : Counters) counter, (counters.step (.peek counter)).2 = counters) ∧
    (∀ (counters : Counters) step other, step.names other = false →
      (counters.step step).2.peek other = counters.peek other) ∧
    (∀ (i j : Nat) counter, i < j → steps[i]? = some (.fresh counter) → steps[j]? = some (.fresh counter) →
      (∀ step ∈ (steps.take j).drop (i + 1), step.creates counter = false) →
        ∃ left right, (empty.run steps).1[i]? = some (.symbol left) ∧
          (empty.run steps).1[j]? = some (.symbol right) ∧ left ≠ right ∧ left.name ≠ right.name) ∧
    ∀ (i j : Nat) (counter : Option Text), steps[i]? = some (.fresh counter) →
      (∃ name, steps[j]? = some (.define name)) ∨ (∃ core, steps[j]? = some (.core core)) →
        ∃ generated other, (empty.run steps).1[i]? = some (.symbol generated) ∧
          (empty.run steps).1[j]? = some (.symbol other) ∧ generated ≠ other := by
  refine ⟨?_, fun _ _ => rfl, fun counters step other => counters.peek_step_of_not_names, ?_, ?_⟩
  · intro i counter start life since
    rw [← peek_of_since since]
    exact ⟨answer_of_step, answer_of_step, answer_of_step⟩
  · intro i j counter before first second kept
    -- Both symbols carry the value that the counter had, and it was consumed by the first call.
    have moved := Int.ne_of_lt (peek_lt_of_fresh before first kept)
    refine ⟨_, _, answer_of_step first, answer_of_step second, ?_, Symbol.name_generated_ne moved⟩
    intro same
    exact moved (Symbol.generated.inj same)
  · rintro i j counter first (⟨name, second⟩ | ⟨core, second⟩)
    · exact ⟨_, _, answer_of_step first, answer_of_step second, Symbol.noConfusion⟩
    · exact ⟨_, _, answer_of_step first, answer_of_step second, Symbol.noConfusion⟩

theorem run_counts_named :
    let steps : List CounterStep := [.create "c" (-1), .fresh (some "c"), .take none,
      .peek (some "c"), .fresh (some "c"), .create "c" 7, .take (some "c"), .define "$temp$id-1"]
    let answers := (empty.run steps).1
    answers[3]? = some (.value 0) ∧ answers[6]? = some (.value 7) ∧
    (∃ left right, answers[1]? = some (.symbol left) ∧ answers[4]? = some (.symbol right) ∧
      left ≠ right ∧ left.name ≠ right.name) ∧
    ∃ generated other, answers[1]? = some (.symbol generated) ∧ answers[7]? = some (.symbol other) ∧
      generated ≠ other ∧ generated.name = other.name := by
  intro steps answers
  obtain ⟨counts, _, _, differ, apart⟩ := run_counts steps
  refine ⟨?_, ?_, ?_, ?_⟩
  · have since : CounterStep.Since (some "c") (-1) (steps.take 3) [.fresh (some "c"), .take none] :=
      .created [] (by decide)
    exact (counts 3 _ _ _ since).2.2 rfl
  · have since : CounterStep.Since (some "c") 7 (steps.take 6) [] := .created (steps.take 5) (by decide)
    exact (counts 6 _ _ _ since).1 rfl
  · exact differ 1 4 (some "c") (by decide) rfl rfl (by decide)
  · obtain ⟨generated, other, first, second, different⟩ :=
      apart 1 7 (some "c") rfl (.inl ⟨"$temp$id-1", rfl⟩)
    refine ⟨generated, other, first, second, different, ?_⟩
    cases first
    cases second
    decide +kernel

end Counters

end SchemeSyntax
