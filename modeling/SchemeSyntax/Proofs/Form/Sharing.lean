import SchemeSyntax.Form.Session
import SchemeSyntax.Proofs.Form.Reading

namespace SchemeSyntax.TokenStream

/-- The tokens that stand in front of what is left. -/
def taken (before after : TokenStream) : List Token :=
  before.tokens.take (before.tokens.length - after.tokens.length)

theorem taken_of_split {before after : TokenStream} {part : List Token}
    (split : before.tokens = part ++ after.tokens) : before.taken after = part := by
  rw [taken, split, List.length_append, Nat.add_sub_cancel, List.take_left]

/-- The nodes that an answer hands out. -/
def Answer.handed : Answer → List Node
  | node found => [found]
  | nodes found => found
  | token _ => []
  | stop => []
  | failed _ => []

def Answer.fault? : Answer → Option SourceFault
  | failed fault => some fault
  | _ => none

theorem eq_failed {answer : Answer} {fault : SourceFault} (failing : answer.fault? = some fault) :
    answer = .failed fault := by
  cases answer <;> cases failing
  rfl

variable {ι : Type}

/-- A step that reads forms and hands them out as they are. -/
def Step.ReadsForms : Step ι → Prop
  | next _ => True
  | rest => True
  | token => False
  | program => False

/-- What a step answers at the end of the stream. -/
def Step.endAnswer : Step ι → Answer
  | next _ => .stop
  | token => .stop
  | rest => .nodes []
  | program => .node (.list [Leaf.ofCore .beginProgram] none)

/-- What a step does, by the tokens that it takes: nothing; or it takes a form, a single token or all
    forms to the end; or some forms and then a reading that fails. -/
inductive Effect (before : TokenStream) : Step ι → List Token → Answer → TokenStream → Prop
  | stop {step : Step ι} : Effect before step [] .stop before
  | node {reader : ι} {part rest : List Token} {node : Node} (split : before.tokens = part ++ rest)
      (form : Form (part.map Token.terminal) node) :
      Effect before (.next reader) part (.node node) ⟨rest, before.fault⟩
  | token {token : Token} {rest : List Token} (split : before.tokens = token :: rest) :
      Effect before .token [token] (.token token) ⟨rest, before.fault⟩
  | nodes {nodes : List Node} (forms : Forms (before.tokens.map Token.terminal) nodes) :
      Effect before .rest before.tokens (.nodes nodes) ended
  | program {nodes : List Node} (forms : Forms (before.tokens.map Token.terminal) nodes) :
      Effect before .program before.tokens
        (.node (.list (Leaf.ofCore .beginProgram :: nodes) none)) ended
  | failed {step : Step ι} {earlier part rest : List Token} {nodes : List Node}
      {fault : SourceFault} {after : TokenStream} (split : before.tokens = earlier ++ rest)
      (forms : Forms (earlier.map Token.terminal) nodes)
      (single : ∀ reader, step = .next reader → earlier = [])
      (outcome : Outcome ⟨rest, before.fault⟩ part (.failed fault) after) :
      Effect before step (earlier ++ part) (.failed fault) after

theorem Effect.split {before after : TokenStream} {step : Step ι} {part : List Token}
    {answer : Answer} (effect : Effect before step part answer after) :
    before.tokens = part ++ after.tokens := by
  cases effect with
  | stop => rfl
  | node split _ => exact split
  | token split => exact split
  | nodes _ => exact (List.append_nil _).symm
  | program _ => exact (List.append_nil _).symm
  | failed split _ _ outcome =>
    rw [split, List.append_assoc]
    exact congrArg (_ ++ ·) outcome.split

theorem Effect.token_taken {before after : TokenStream} {part : List Token} {token : Token}
    (effect : Effect (ι := ι) before .token part (.token token) after) : part = [token] := by
  cases effect with
  | token _ => rfl

theorem Effect.form {before after : TokenStream} {reader : ι} {part : List Token} {node : Node}
    (effect : Effect before (.next reader) part (.node node) after) :
    Form (part.map Token.terminal) node := by
  cases effect with
  | node _ form => exact form

theorem Effect.forms {before after : TokenStream} {step : Step ι} {part : List Token}
    {answer : Answer} (effect : Effect before step part answer after) (reading : step.ReadsForms)
    (sound : answer.fault? = none) : Forms (part.map Token.terminal) answer.handed := by
  cases effect with
  | stop => exact .nil
  | node _ form => exact .single form
  | nodes forms => exact forms
  | token _ => cases reading
  | program _ => cases reading
  | failed _ _ _ _ => cases sound

theorem Effect.eq_ended {before after : TokenStream} {step : Step ι} {part : List Token}
    {fault : ScanFault} (effect : Effect before step part (.failed (.scan fault)) after) :
    after = ended := by
  cases effect with
  | failed _ _ _ outcome =>
    cases outcome with
    | broken _ => rfl

/-- No step makes a scanning fault of its own. -/
theorem Effect.fault_before {before after : TokenStream} {step : Step ι} {part : List Token}
    {answer : Answer} (effect : Effect before step part answer after) {fault : ScanFault}
    (stored : after.fault = some fault) : before.fault = some fault := by
  cases effect with
  | stop => exact stored
  | node _ _ => exact stored
  | token _ => exact stored
  | nodes _ => cases stored
  | program _ => cases stored
  | failed _ _ _ outcome =>
    cases outcome with
    | wrong _ _ => exact stored
    | short _ _ _ => cases stored
    | broken _ => cases stored

theorem Effect.blamed {before after : TokenStream} {step : Step ι} {part : List Token}
    {fault : SourceFault} (effect : Effect before step part (.failed fault) after) :
    (∃ met, fault = .scan met ∧ before.fault = some met) ∨
      ∃ wrong, fault = .read wrong ∧ wrong.token ∈ before.tokens := by
  have split := effect.split
  cases effect with
  | failed _ _ _ outcome =>
    cases fault with
    | scan met =>
      cases outcome with
      | broken stored => exact .inl ⟨met, rfl, stored⟩
    | read wrong =>
      refine .inr ⟨wrong, rfl, ?_⟩
      rw [split]
      exact List.mem_append_left _ (List.mem_append_right _ outcome.blamed)

/-- A refused step has read some forms and then the tokens that make none; it stands behind these. -/
theorem Effect.refused {before after : TokenStream} {step : Step ι} {part : List Token}
    {fault : ReadFault} (effect : Effect before step part (.failed (.read fault)) after) :
    ∃ earlier refused nodes, part = earlier ++ refused ∧ Forms (earlier.map Token.terminal) nodes ∧
      (∀ reader, step = .next reader → earlier = []) ∧ fault.token ∈ refused ∧
        Outcome ⟨refused ++ after.tokens, before.fault⟩ refused (.failed (.read fault)) after := by
  cases effect with
  | @failed _ earlier refused rest nodes _ _ _ forms single outcome =>
    have behind : rest = refused ++ after.tokens := outcome.split
    refine ⟨earlier, refused, nodes, rfl, forms, single, outcome.blamed, ?_⟩
    rwa [← behind]

theorem readForm_ended : ended.readForm = (.finished, ended) := rfl

theorem readForms_ended : ended.readForms = (.ok [], ended) := readForms_of_finished readForm_ended

namespace Session

variable [DecidableEq ι]

/-- The tokens that one step takes from the stream. -/
def taken (session : Session ι) (step : Step ι) : List Token :=
  session.stream.taken (session.step step).2.stream

/-- The tokens that a run takes, in the order of its steps. -/
def takenBy (session : Session ι) : List (Step ι) → List Token
  | [] => []
  | step :: steps => session.taken step ++ (session.step step).2.takenBy steps

/-- A step takes these tokens from the front of the stream. With a form it takes all the tokens of it
    and no other; when it is refused, it goes no further than the tokens that it is refused for. -/
structure Takes (session : Session ι) (step : Step ι) (part : List Token) : Prop where
  split : session.stream.tokens = part ++ (session.step step).2.stream.tokens
  form : ∀ reader node, step = .next reader → (session.step step).1 = .node node →
    Form (part.map Token.terminal) node
  token : ∀ token, step = .token → (session.step step).1 = .token token → part = [token]
  refused : ∀ fault, (session.step step).1 = .failed (.read fault) → ∃ earlier refused nodes,
    part = earlier ++ refused ∧ Forms (earlier.map Token.terminal) nodes ∧
      (∀ reader, step = .next reader → earlier = []) ∧ fault.token ∈ refused ∧
        Outcome ⟨refused ++ (session.step step).2.stream.tokens, session.stream.fault⟩ refused
          (.failed (.read fault)) (session.step step).2.stream

theorem exists_next_effect (session : Session ι) (reader : ι) :
    ∃ part, Effect session.stream (.next reader) part (session.next reader).1
      (session.next reader).2.stream := by
  unfold next
  split
  · exact ⟨[], .stop⟩
  obtain ⟨part, outcome⟩ := readForm_outcome session.stream
  split
  · next node after found =>
    rw [found] at outcome
    cases outcome with
    | form split form => exact ⟨part, .node split form⟩
  · next after found =>
    rw [found] at outcome
    cases outcome with
    | finished nothing =>
      rw [nothing]
      exact ⟨[], .stop⟩
  · next fault after found =>
    rw [found] at outcome
    exact ⟨[] ++ part, .failed rfl .nil (fun _ _ => rfl) outcome⟩

theorem exists_step_effect (session : Session ι) (step : Step ι) :
    ∃ part, Effect session.stream step part (session.step step).1 (session.step step).2.stream := by
  obtain ⟨stream, finished⟩ := session
  cases step with
  | next reader => exact exists_next_effect _ reader
  | token =>
    obtain ⟨tokens, fault⟩ := stream
    cases tokens with
    | cons token rest => exact ⟨[token], .token rfl⟩
    | nil =>
      cases fault with
      | none => exact ⟨[], .stop⟩
      | some fault => exact ⟨[] ++ [], .failed rfl .nil nofun (.broken rfl)⟩
  | rest =>
    rcases readForms_outcome stream with ⟨nodes, found, _, forms⟩ |
      ⟨earlier, rest, part, nodes, fault, after, found, split, forms, outcome⟩
    · simp only [Session.step, found]
      exact ⟨_, .nodes forms⟩
    · simp only [Session.step, found]
      exact ⟨_, .failed split forms nofun outcome⟩
  | program =>
    rcases readForms_outcome stream with ⟨nodes, found, _, forms⟩ |
      ⟨earlier, rest, part, nodes, fault, after, found, split, forms, outcome⟩
    · simp only [Session.step, readProgram_eq, found]
      exact ⟨_, .program forms⟩
    · simp only [Session.step, readProgram_eq, found]
      exact ⟨_, .failed split forms nofun outcome⟩

theorem step_effect (session : Session ι) (step : Step ι) :
    Effect session.stream step (session.taken step) (session.step step).1
      (session.step step).2.stream := by
  obtain ⟨part, effect⟩ := exists_step_effect session step
  have same : session.taken step = part := taken_of_split effect.split
  rwa [same]

theorem step_takes (session : Session ι) (step : Step ι) : session.Takes step (session.taken step) := by
  have effect := step_effect session step
  refine ⟨effect.split, ?_, ?_, ?_⟩
  · rintro reader node rfl answered
    rw [answered] at effect
    exact effect.form
  · rintro token rfl answered
    rw [answered] at effect
    exact effect.token_taken
  · intro fault answered
    rw [answered] at effect
    exact effect.refused

theorem tokens_run (session : Session ι) (steps : List (Step ι)) :
    session.takenBy steps ++ (session.run steps).2.stream.tokens = session.stream.tokens := by
  induction steps generalizing session with
  | nil => rfl
  | cons step steps ih =>
    rw [takenBy, run, List.append_assoc, ih, ← (step_effect session step).split]

theorem step_of_ended {session : Session ι} (reached : session.stream = ended) (step : Step ι) :
    (session.step step).1 = step.endAnswer ∧ (session.step step).2.stream = ended := by
  obtain ⟨stream, finished⟩ := session
  subst reached
  cases step with
  | next reader =>
    by_cases stopped : reader ∈ finished
    · rw [Session.step, next, if_pos stopped]
      exact ⟨rfl, rfl⟩
    · rw [Session.step, next, if_neg stopped, readForm_ended]
      exact ⟨rfl, rfl⟩
  | token => exact ⟨rfl, rfl⟩
  | rest =>
    rw [Session.step, readForms_ended]
    exact ⟨rfl, rfl⟩
  | program =>
    rw [Session.step, readProgram_eq, readForms_ended]
    exact ⟨rfl, rfl⟩

theorem run_of_ended {session : Session ι} (reached : session.stream = ended) (steps : List (Step ι)) :
    (session.run steps).1 = steps.map Step.endAnswer ∧ (session.run steps).2.stream = ended := by
  induction steps generalizing session with
  | nil => exact ⟨rfl, reached⟩
  | cons step steps ih =>
    obtain ⟨answered, stays⟩ := step_of_ended reached step
    obtain ⟨later, last⟩ := ih stays
    refine ⟨?_, last⟩
    rw [run, List.map_cons, answered, later]

/-- A scanning fault ends the stream when it is met. -/
theorem ended_of_scanFault {session : Session ι} {steps : List (Step ι)} {fault : ScanFault}
    (met : .scan fault ∈ (session.run steps).1.filterMap Answer.fault?) :
    (session.run steps).2.stream = ended := by
  induction steps generalizing session with
  | nil => cases met
  | cons step steps ih =>
    obtain ⟨answer, member, failing⟩ := List.mem_filterMap.mp met
    rcases List.mem_cons.mp member with rfl | later
    · have answered : (session.step step).1 = .failed (.scan fault) := eq_failed failing
      have effect := step_effect session step
      rw [answered] at effect
      exact (run_of_ended effect.eq_ended steps).2
    · exact ih (List.mem_filterMap.mpr ⟨answer, later, failing⟩)

/-- A run blames nothing but a token of the stream or the fault behind them. -/
theorem blamed_run {session : Session ι} {steps : List (Step ι)} {fault : SourceFault}
    (failed : fault ∈ (session.run steps).1.filterMap Answer.fault?) :
    (∃ met, fault = .scan met ∧ session.stream.fault = some met) ∨
      ∃ wrong, fault = .read wrong ∧ wrong.token ∈ session.stream.tokens := by
  induction steps generalizing session with
  | nil => cases failed
  | cons step steps ih =>
    have effect := step_effect session step
    obtain ⟨answer, member, failing⟩ := List.mem_filterMap.mp failed
    rcases List.mem_cons.mp member with rfl | later
    · have answered : (session.step step).1 = .failed fault := eq_failed failing
      rw [answered] at effect
      exact effect.blamed
    · rcases ih (List.mem_filterMap.mpr ⟨answer, later, failing⟩) with
        ⟨met, same, stored⟩ | ⟨wrong, same, inside⟩
      · exact .inl ⟨met, same, effect.fault_before stored⟩
      · refine .inr ⟨wrong, same, ?_⟩
        rw [effect.split]
        exact List.mem_append_right _ inside

/-- The nodes that are handed out are the forms that the taken tokens make. -/
theorem forms_run {session : Session ι} {steps : List (Step ι)}
    (reading : ∀ step ∈ steps, step.ReadsForms)
    (sound : (session.run steps).1.filterMap Answer.fault? = []) :
    Forms ((session.takenBy steps).map Token.terminal)
      ((session.run steps).1.flatMap Answer.handed) := by
  induction steps generalizing session with
  | nil => exact .nil
  | cons step steps ih =>
    have answered : (session.step step).1.fault? = none := by
      cases failing : (session.step step).1.fault? with
      | none => rfl
      | some fault =>
        rw [run, List.filterMap_cons_some failing] at sound
        cases sound
    rw [run, List.filterMap_cons_none answered] at sound
    have later := ih (fun step member => reading step (List.mem_cons_of_mem _ member)) sound
    have first := (step_effect session step).forms (reading step List.mem_cons_self) answered
    rw [takenBy, List.map_append]
    exact first.append later

theorem run_single {nodes : List Node} {part : List Token}
    (forms : Forms (part.map Token.terminal) nodes) (rest : List Token) (fault : Option ScanFault) :
    ((⟨⟨part ++ rest, fault⟩, []⟩ : Session Unit).run
      (List.replicate nodes.length (.next ()))).1 = nodes.map .node := by
  generalize same : part.map Token.terminal = terminals at forms
  induction nodes generalizing part terminals with
  | nil => rfl
  | cons node nodes ih =>
    cases forms with
    | cons form forms =>
      obtain ⟨taken, behind, rfl, first, later⟩ := List.map_eq_append_iff.mp same
      have found := readForm_of_form form first (behind ++ rest) fault
      have stepped : (⟨⟨taken ++ behind ++ rest, fault⟩, []⟩ : Session Unit).step (.next ()) =
          (.node node, ⟨⟨behind ++ rest, fault⟩, []⟩) := by
        rw [List.append_assoc, Session.step, next, if_neg List.not_mem_nil, found]
      rw [List.length_cons, List.replicate_succ, run, stepped, ih _ later forms]
      rfl

/-- All users of a stream share its tokens: each is taken once and in order. A scanning fault is met
    once and ends the stream. As long as forms are read and nothing fails, they come as a single reader
    would get them. -/
theorem run_shares (text fileName : Text) (steps : List (Step ι)) :
    let start : Session ι := .ofText text fileName
    let ran := start.run steps
    start.takenBy steps ++ ran.2.stream.tokens = (Source.ofText text fileName).drain.1 ∧
    (∀ step, ran.2.Takes step (ran.2.taken step)) ∧
    (∀ fault, .scan fault ∈ ran.1.filterMap Answer.fault? →
      ∀ later, (ran.2.run later).1 = later.map Step.endAnswer) ∧
    ((∀ step ∈ steps, step.ReadsForms) → ran.1.filterMap Answer.fault? = [] →
      let handed := ran.1.flatMap Answer.handed
      ((ofText text fileName : Session Unit).run (List.replicate handed.length (.next ()))).1 =
        handed.map .node) := by
  intro start ran
  have shared : start.takenBy steps ++ ran.2.stream.tokens = (Source.ofText text fileName).drain.1 :=
    tokens_run start steps
  refine ⟨shared, step_takes ran.2, ?_, ?_⟩
  · intro fault met later
    exact (run_of_ended (ended_of_scanFault met) later).1
  · intro reading sound handed
    have single := run_single (forms_run reading sound) ran.2.stream.tokens
      (ofText text fileName : Session Unit).stream.fault
    rw [shared] at single
    exact single

theorem run_shares_interrupted :
    (∃ fault, ((((ofText "a (b . c d) e \"" "file" : Session Nat).run [.next 0]).2.step
        (.next 1)).1 = .failed (.read fault)) ∧
      fault.token ∈ ((ofText "a (b . c d) e \"" "file" : Session Nat).run [.next 0]).2.taken
        (.next 1)) ∧
    (((ofText "a (b . c d) e \"" "file" : Session Nat).run
      [.next 0, .next 1, .token, .next 2, .next 2]).2.run [.next 3, .token, .rest, .program]).1 =
        [.stop, .stop, .nodes [], .node (.list [Leaf.ofCore .beginProgram] none)] ∧
    ((ofText "a (b . c d) e \"" "file" : Session Unit).run [.next ()]).1 =
      [.node (.leaf (.symbol (.defined "a")))] := by
  obtain ⟨_, takes, _, alone⟩ := run_shares "a (b . c d) e \"" "file" [Step.next (0 : Nat)]
  refine ⟨?_, ?_, ?_⟩
  · let fault : ReadFault :=
      ⟨.wrongPair, ⟨.symbol, "d", some ⟨"file", "a (b . c d) e \"", 1, 10, 11, 9⟩⟩⟩
    have answered := eq_failed (by decide +kernel :
      (((ofText "a (b . c d) e \"" "file" : Session Nat).run [.next 0]).2.step
        (.next 1)).1.fault? = some (.read fault))
    obtain ⟨earlier, refused, _, taken, _, _, blamed, _⟩ := (takes (.next 1)).refused fault answered
    refine ⟨fault, answered, ?_⟩
    rw [taken]
    exact List.mem_append_right earlier blamed
  · obtain ⟨_, _, ends, _⟩ := run_shares "a (b . c d) e \"" "file"
      [.next (0 : Nat), .next 1, .token, .next 2, .next 2]
    exact ends ⟨.unterminatedString, "\"", some ⟨"file", "a (b . c d) e \"", 1, 15, 16, 14⟩⟩
      (by decide +kernel) [.next 3, .token, .rest, .program]
  · have handed : ((ofText "a (b . c d) e \"" "file" : Session Nat).run
        [.next 0]).1.flatMap Answer.handed = [.leaf (.symbol (.defined "a"))] := by decide +kernel
    have reading : ∀ step ∈ [Step.next (0 : Nat)], step.ReadsForms := by
      intro step member
      cases List.mem_singleton.mp member
      trivial
    have single := alone reading (by decide +kernel)
    rw [handed] at single
    exact single

end Session

end SchemeSyntax.TokenStream
