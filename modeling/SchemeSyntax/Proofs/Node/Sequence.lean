import SchemeSyntax.Node.Sequence

namespace SchemeSyntax.Sequences

variable {memory : Sequences} {place : Nat}

def Sound (memory : Sequences) : Prop := memory.own < memory.nodes.size

/-- Nothing is written to the place any more. -/
structure Lasts (memory : Sequences) (place : Nat) : Prop where
  inside : place < memory.nodes.size
  apart : place ≠ memory.own

/-- What the handles of the reply refer to is written to no more. -/
def Reply.Lasts (memory : Sequences) (reply : Reply) : Prop :=
  ∀ place tail, reply = .node (.list place tail) → memory.Lasts place

/-- What a step does to the memory: the builder is left with what it should hold, the reply is seen to be
    the answer, and nothing is written to a place that lasts. -/
structure Stepped (memory : Sequences) (answer : Builder.Answer) (builder : Builder) (reply : Reply)
    (after : Sequences) : Prop where
  sound : after.Sound
  builder : after.builder = builder
  seen : reply.seen after = answer
  lasts : reply.Lasts after
  kept : ∀ place, memory.Lasts place → after.Lasts place ∧ after.get place = memory.get place

theorem get_push (nodes : Array Node) (inside : place < memory.nodes.size) (own : Nat) :
    get ⟨memory.nodes.push nodes, own⟩ place = memory.get place := by
  rw [get, Array.getElem?_push, if_neg (Nat.ne_of_lt inside), get]

theorem get_push_size (memory : Sequences) (nodes : Array Node) (own : Nat) :
    get ⟨memory.nodes.push nodes, own⟩ memory.nodes.size = nodes := by
  rw [get, Array.getElem?_push_size, Option.getD_some]

theorem Sound.keep (sound : memory.Sound) {reply : Reply} {answer : Builder.Answer}
    (lasts : reply.Lasts memory) (seen : reply.seen memory = answer) :
    Stepped memory answer memory.builder reply memory :=
  ⟨sound, rfl, seen, lasts, fun _ lasts => ⟨lasts, rfl⟩⟩

/-- A list that is handed out has its elements in a new place, which is not the builder's. -/
theorem Sound.hand (sound : memory.Sound) (node : Node) : Stepped memory (.node node) memory.builder
    (memory.hand node).1 (memory.hand node).2 := by
  cases node with
  | leaf l => exact sound.keep (fun _ _ same => by cases same) rfl
  | list nodes tail =>
    have grown : memory.nodes.size < (memory.nodes.push nodes.toArray).size := by simp
    refine ⟨Nat.lt_trans sound grown, ?_, ?_, ?_, ?_⟩
    · exact congrArg Builder.mk (get_push nodes.toArray sound memory.own)
    · have copied := get_push_size memory nodes.toArray memory.own
      exact congrArg (fun elements => Builder.Answer.node (.list elements.toList tail)) copied
    · intro place ending same
      cases same
      exact ⟨grown, Nat.ne_of_gt sound⟩
    · intro place lasts
      exact ⟨⟨Nat.lt_trans lasts.inside grown, lasts.apart⟩, get_push _ lasts.inside _⟩

theorem stepped_reset (memory : Sequences) : Stepped memory (.size 0) .empty (memory.step .reset).1
    (memory.step .reset).2 := by
  have grown : memory.nodes.size < (memory.nodes.push #[]).size := by simp
  refine ⟨grown, ?_, rfl, nofun, ?_⟩
  · exact congrArg Builder.mk (get_push_size memory #[] _)
  · intro place lasts
    exact ⟨⟨Nat.lt_trans lasts.inside grown, Nat.ne_of_lt lasts.inside⟩, get_push _ lasts.inside _⟩

/-- A push writes to the place of the builder alone. -/
theorem Sound.write (sound : memory.Sound) (builder : Builder) (count : Nat) :
    Stepped memory (.size count) builder (.size count)
      { memory with nodes := memory.nodes.setIfInBounds memory.own builder.nodes } := by
  have same : (memory.nodes.setIfInBounds memory.own builder.nodes).size = memory.nodes.size :=
    Array.size_setIfInBounds
  refine ⟨?_, ?_, rfl, nofun, ?_⟩
  · exact Nat.lt_of_lt_of_eq sound same.symm
  · show Builder.mk ((memory.nodes.setIfInBounds memory.own builder.nodes)[memory.own]?.getD #[]) = _
    rw [Array.getElem?_setIfInBounds_self_of_lt sound, Option.getD_some]
  · intro place lasts
    refine ⟨⟨Nat.lt_of_lt_of_eq lasts.inside same.symm, lasts.apart⟩, ?_⟩
    rw [get, Array.getElem?_setIfInBounds_ne lasts.apart.symm, get]

theorem Sound.step (sound : memory.Sound) (step : Builder.Step) :
    Stepped memory (memory.builder.step step).1 (memory.builder.step step).2 (memory.step step).1
      (memory.step step).2 := by
  cases step with
  | reset => exact stepped_reset memory
  | push item =>
    rw [Sequences.step, Builder.step]
    cases memory.builder.pushItem item with
    | ok after => exact sound.write after after.size
    | error fault => exact sound.keep (fun _ _ same => by cases same) rfl
  | build => exact sound.hand _
  | buildWithTail node =>
    rw [Sequences.step, Builder.step]
    cases memory.builder.buildWithTail node with
    | ok built => exact sound.hand built
    | error fault => exact sound.keep (fun _ _ same => by cases same) rfl
  | list items tail =>
    rw [Sequences.step, Builder.step]
    cases Node.ofItems items tail with
    | ok built => exact sound.hand built
    | error fault => exact sound.keep (fun _ _ same => by cases same) rfl

theorem Sound.run_kept (sound : memory.Sound) (steps : List Builder.Step) (lasts : memory.Lasts place) :
    (memory.run steps).2.get place = memory.get place := by
  induction steps generalizing memory with
  | nil => rfl
  | cons step steps ih =>
    have stepped := sound.step step
    obtain ⟨lasting, same⟩ := stepped.kept place lasts
    exact (ih stepped.sound lasting).trans same

theorem Reply.seen_of_kept {after : Sequences} {reply : Reply} (lasts : reply.Lasts memory)
    (kept : ∀ place, memory.Lasts place → after.get place = memory.get place) :
    reply.seen after = reply.seen memory := by
  cases reply with
  | node handle =>
    cases handle with
    | leaf l => rfl
    | list place tail =>
      have same := kept place (lasts place tail rfl)
      rw [seen, seen, Handle.seen, Handle.seen, same]
  | size count => rfl
  | refused fault => rfl
  | tailRefused fault => rfl

/-- The replies to steps, looked at behind any later steps, are what the builder answers to the steps: a
    list that was built stays as it was. -/
theorem Sound.run_seen (sound : memory.Sound) (steps later : List Builder.Step) :
    ((memory.run (steps ++ later)).1.take steps.length).map
        (Reply.seen (memory.run (steps ++ later)).2) = (memory.builder.run steps).1 := by
  induction steps generalizing memory with
  | nil => rfl
  | cons step steps ih =>
    have stepped := sound.step step
    have first : (memory.step step).1.seen ((memory.step step).2.run (steps ++ later)).2 =
        (memory.builder.step step).1 := by
      rw [Reply.seen_of_kept stepped.lasts fun place => stepped.sound.run_kept (steps ++ later), stepped.seen]
    have others := ih stepped.sound
    rw [stepped.builder] at others
    simp only [List.cons_append, run, Builder.run, List.length_cons, List.take_succ_cons, List.map_cons,
      first, others]

theorem sound_start : start.Sound := Nat.zero_lt_one

end SchemeSyntax.Sequences
