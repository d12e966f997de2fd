import Mathlib.Data.List.DropRight
import SchemeSyntax.Node.Cast
import SchemeSyntax.Node.Construction
import SchemeSyntax.Proofs.Form.Grammar
import SchemeSyntax.Proofs.Node.Sequence
import SchemeSyntax.Proofs.Node.Shape

namespace SchemeSyntax.Builder

theorem buildWithTail_of_refused {builder : Builder} (empty : builder.toList = []) (others : List Node)
    (tail : Leaf) : builder.buildWithTail (.list others (some tail)) = .error ⟨others, tail⟩ := by
  rw [buildWithTail, if_pos (builder.isEmpty_iff.mpr empty)]

/-- A list can be cut at any place and put together from what stands in front of the cut and the list
    behind it, and so it can from its elements and its ending. Only an improper list is refused where
    nothing stands in front of it. -/
theorem buildWithTail_cut (nodes : List Node) (tail : Option Leaf) :
    (∀ front back, nodes = front ++ back →
      (front ≠ [] ∨ (Node.list nodes tail).isProperList = true →
        (empty.pushAll front).buildWithTail (.list back tail) = .ok (.list nodes tail)) ∧
      (front = [] ∧ (Node.list nodes tail).isImproperList = true →
        ∃ fault, (empty.pushAll front).buildWithTail (.list back tail) = .error fault ∧
          fault.node = .list back tail)) ∧
    (empty.pushAll (Node.list nodes tail).elements).buildWithTail (Node.list nodes tail).ending =
      .ok (.list nodes tail) := by
  refine ⟨?_, ?_⟩
  · rintro front back rfl
    have pushed : (empty.pushAll front).toList = front := toList_pushAll empty front
    refine ⟨?_, ?_⟩
    · intro joins
      have proper : (empty.pushAll front).toList = [] → tail = none := by
        intro nothing
        rcases joins with some | proper
        · exact absurd (pushed.symm.trans nothing) some
        · cases tail with
          | none => rfl
          | some l => cases proper
      rw [buildWithTail_list proper, pushed]
    · rintro ⟨rfl, improper⟩
      cases tail with
      | none => cases improper
      | some l => exact ⟨_, buildWithTail_of_refused rfl back l, rfl⟩
  · have pushed : (empty.pushAll nodes).toList = nodes := toList_pushAll empty nodes
    cases tail with
    | none =>
      show (empty.pushAll nodes).buildWithTail .empty = _
      rw [Node.empty, buildWithTail_list fun _ => rfl, pushed, List.append_nil]
    | some l =>
      show (empty.pushAll nodes).buildWithTail (.leaf l) = _
      rw [buildWithTail, pushed]

theorem buildWithTail_cut_improper :
    let one : Node := .leaf (.number 1)
    let two : Node := .leaf (.number 2)
    (empty.pushAll [one]).buildWithTail (.list [two] (some (.number 3))) =
      .ok (.list [one, two] (some (.number 3))) ∧
    ∃ fault, empty.buildWithTail (.list [one, two] (some (.number 3))) = .error fault ∧
      fault.node = .list [one, two] (some (.number 3)) := by
  intro one two
  obtain ⟨cuts, _⟩ := buildWithTail_cut [one, two] (some (.number 3))
  exact ⟨(cuts [one] [two] rfl).1 (.inl (List.cons_ne_nil _ _)), (cuts [] [one, two] rfl).2 ⟨rfl, rfl⟩⟩

namespace Step

def resets : Step → Bool
  | reset => true
  | _ => false

def pushed? : Step → Option Node
  | push (.node node) => some node
  | _ => none

/-- The nodes that were pushed since the builder was made. -/
def held (steps : List Step) : List Node :=
  (steps.rtakeWhile fun step => !step.resets).filterMap pushed?

/-- The answer to a step, from the nodes that the builder holds. -/
inductive Gives (held : List Node) : Step → Answer → Prop
  | reset : Gives held .reset (.size 0)
  | pushed (node : Node) : Gives held (.push (.node node)) (.size (held.length + 1))
  | refused (value : Plain) : Gives held (.push (.plain value)) (.refused (.element (.plain value)))
  | built : Gives held .build (.node (.list held none))
  | dotted (tail : Leaf) : Gives held (.buildWithTail (.leaf tail)) (.node (.list held (some tail)))
  | spliced {others : List Node} {ending : Option Leaf} (proper : held = [] → ending = none) :
      Gives held (.buildWithTail (.list others ending)) (.node (.list (held ++ others) ending))
  | tailRefused {others : List Node} {tail : Leaf} {fault : TailFault} (empty : held = [])
      (same : fault.node = .list others (some tail)) :
      Gives held (.buildWithTail (.list others (some tail))) (.tailRefused fault)
  | composed {items : List Item} {tail : Item} {outcome : Except ContractFault Node}
      (composes : Composes items tail outcome) : Gives held (.list items tail) (.ofContract outcome)

theorem held_concat (steps : List Step) (step : Step) :
    held (steps ++ [step]) = if step.resets then [] else held steps ++ step.pushed?.toList := by
  rw [held, List.rtakeWhile_concat]
  cases step.resets with
  | true => rfl
  | false => cases found : step.pushed? <;> simp [held, found]

end Step

theorem size_eq (builder : Builder) : builder.size = builder.toList.length := Array.length_toList.symm

/-- Only a reset and the push of a node change what the builder holds. -/
theorem toList_step (builder : Builder) (step : Step) : (builder.step step).2.toList =
    if step.resets then [] else builder.toList ++ step.pushed?.toList := by
  cases step with
  | reset => rfl
  | push item =>
    cases item with
    | node node => exact builder.toList_push node
    | plain value => exact (List.append_nil _).symm
  | build => exact (List.append_nil _).symm
  | buildWithTail node => exact (List.append_nil _).symm
  | list items tail => exact (List.append_nil _).symm

theorem run_concat (builder : Builder) (steps : List Step) (step : Step) :
    (builder.run (steps ++ [step])).2 = ((builder.run steps).2.step step).2 := by
  induction steps generalizing builder with
  | nil => rfl
  | cons first steps ih => exact ih _

theorem toList_run (steps : List Step) : (empty.run steps).2.toList = Step.held steps := by
  induction steps using List.reverseRecOn with
  | nil => rfl
  | append_singleton steps step ih => rw [run_concat, toList_step, Step.held_concat, ih]

theorem answer_run (builder : Builder) (steps : List Step) (i : Nat) : (builder.run steps).1[i]? =
    steps[i]?.map fun step => ((builder.run (steps.take i)).2.step step).1 := by
  induction steps generalizing builder i with
  | nil => rfl
  | cons step steps ih =>
    cases i with
    | zero => rfl
    | succ i => exact ih _ i

theorem step_gives (builder : Builder) (step : Step) : step.Gives builder.toList (builder.step step).1 := by
  cases step with
  | reset => exact .reset
  | push item =>
    cases item with
    | node node =>
      have grown : (builder.push node).size = builder.toList.length + 1 := by
        rw [size_eq, toList_push, List.length_append]
        rfl
      show Step.Gives _ _ (.size (builder.push node).size)
      rw [grown]
      exact .pushed node
    | plain value => exact .refused value
  | build => exact .built
  | buildWithTail node =>
    cases node with
    | leaf tail => exact .dotted tail
    | list others ending =>
      rw [Builder.step]
      cases ending with
      | none => exact .spliced fun _ => rfl
      | some tail =>
        by_cases nothing : builder.toList = []
        · rw [buildWithTail_of_refused nothing]
          exact .tailRefused nothing rfl
        · have proper : builder.toList = [] → some tail = none := fun nothing' => absurd nothing' nothing
          rw [buildWithTail_list proper]
          exact .spliced proper
  | list items tail => exact .composed (composes_ofItems items tail)

/-- A step that answers with a node or a refusal leaves the builder as it was. -/
theorem step_keeps (builder : Builder) {step : Step}
    (answers : ∀ size, (builder.step step).1 ≠ .size size) : (builder.step step).2 = builder := by
  cases step with
  | reset => exact absurd rfl (answers 0)
  | push item =>
    cases item with
    | node node => exact absurd rfl (answers _)
    | plain value => rfl
  | build => rfl
  | buildWithTail node => rfl
  | list items tail => rfl

/-- In every run, the builder holds the nodes that were pushed since it was made, in their order. Each
    step answers what these call for, and nothing but a push of a node or a new builder changes them. A
    node that is produced is well-formed all the way down. Whatever is written to memory later, it is seen
    there as it was when it was built. The empty list, a list of one node and a proper list are composed
    with nothing for their tail. -/
theorem run_builds (steps : List Step) :
    (empty.run steps).2.toList = Step.held steps ∧
    (∀ (i : Nat) step, steps[i]? = some step →
      ∃ answer, (empty.run steps).1[i]? = some answer ∧ step.Gives (Step.held (steps.take i)) answer) ∧
    (∀ node, Answer.node node ∈ (empty.run steps).1 → node.shape.WellFormed) ∧
    (∀ (builder : Builder) step, (∀ size, (builder.step step).1 ≠ .size size) →
      (builder.step step).2 = builder) ∧
    ∀ later, let ran := Sequences.start.run (steps ++ later)
      (ran.1.take steps.length).map (Sequences.Reply.seen ran.2) = (empty.run steps).1 := by
  refine ⟨toList_run steps, ?_, fun node _ => node.wellFormed_shape, fun builder _ => builder.step_keeps,
    fun later => Sequences.sound_start.run_seen steps later⟩
  intro i step found
  refine ⟨((empty.run (steps.take i)).2.step step).1, ?_, ?_⟩
  · rw [answer_run, found]
    rfl
  · rw [← toList_run]
    exact step_gives _ step

theorem run_builds_refused :
    let one : Node := .leaf (.number 1)
    let improper : Node := .list [one] (some (.number 2))
    let steps : List Step := [.push (.plain (.text "x")), .push (.node one), .build, .push (.node one),
      .buildWithTail improper, .reset, .buildWithTail improper,
      .list [.node one, .node improper] (.node (.leaf (.number 3)))]
    let answers := (empty.run steps).1
    answers[0]? = some (.refused (.element (.plain (.text "x")))) ∧
    answers[2]? = some (.node (.list [one] none)) ∧
    answers[4]? = some (.node (.list [one, one, one] (some (.number 2)))) ∧
    (∃ fault, answers[6]? = some (.tailRefused fault) ∧ fault.node = improper) ∧
    answers[7]? = some (.node (.list [one, improper] (some (.number 3)))) ∧
    let ran := Sequences.start.run steps
    ran.1.map (Sequences.Reply.seen ran.2) = answers := by
  intro one improper steps answers
  obtain ⟨_, gives, _, _, seen⟩ := run_builds steps
  refine ⟨?_, ?_, ?_, ?_, ?_, ?_⟩
  · obtain ⟨answer, found, given⟩ := gives 0 _ rfl
    cases given
    exact found
  · obtain ⟨answer, found, given⟩ := gives 2 _ rfl
    cases given
    exact found
  · obtain ⟨answer, found, given⟩ : ∃ answer, answers[4]? = some answer ∧
        Step.Gives [one, one] (.buildWithTail (.list [one] (some (.number 2)))) answer := gives 4 _ rfl
    cases given with
    | spliced proper => exact found
    | tailRefused empty same => cases empty
  · obtain ⟨answer, found, given⟩ : ∃ answer, answers[6]? = some answer ∧
        Step.Gives [] (.buildWithTail (.list [one] (some (.number 2)))) answer := gives 6 _ rfl
    cases given with
    | spliced proper => cases proper rfl
    | tailRefused empty same => exact ⟨_, found, same⟩
  · obtain ⟨answer, found, given⟩ := gives 7 _ rfl
    cases given with
    | composed composes =>
      let expected : Node := .list [one, improper] (some (.number 3))
      obtain ⟨node, rfl, same⟩ := composes.exists_of_wellFormed expected.wellFormed_shape
      have unique : node = expected := Node.shape_injective same
      rw [unique] at found
      exact found
  · exact seen []

end SchemeSyntax.Builder
