import SchemeSyntax.Proofs.Token.Continuation
import SchemeSyntax.Proofs.Token.Position

namespace SchemeSyntax

def Scan.handed : Scan → List Token
  | token found => [found]
  | layout => []
  | finished => []
  | failed _ => []

namespace Source

/-- The tokens that an answer hands out. -/
def Answer.handed : Answer → List Token
  | scanned scan => scan.handed
  | token found => [found]
  | tokens found => found
  | stop => []
  | failed _ => []
  | state _ => []

def Answer.fault? : Answer → Option ScanFault
  | scanned (.failed fault) => some fault
  | failed fault => some fault
  | _ => none

/-- The answer says that no token is left. -/
def Answer.ends : Answer → Bool
  | scanned .finished => true
  | stop => true
  | tokens _ => true
  | _ => false

/-- What a scan does to a source: it moves on over a token or over layout and stays where it is
    otherwise, but a fault is stored. -/
inductive ScanEffect (before : Source) : Scan → Source → Prop
  | token {found : Token} {after : Source} (further : before.cursor.offset < after.cursor.offset) :
      ScanEffect before (.token found) after
  | layout {after : Source} (further : before.cursor.offset < after.cursor.offset) :
      ScanEffect before .layout after
  | finished : ScanEffect before .finished before
  | failed {fault : ScanFault} : ScanEffect before (.failed fault) { before with fault := some fault }

theorem scan_effect (source : Source) : ScanEffect source source.scan.1 source.scan.2 := by
  cases stored : source.fault with
  | some fault =>
    have kept : source = { source with fault := some fault } := by rw [← stored]
    rw [scan_of_fault stored]
    exact kept ▸ .failed
  | none =>
    cases first : Lexeme.first? source.cursor.rest with
    | none =>
      rw [scan_of_end stored first]
      exact .finished
    | some lexeme =>
      obtain ⟨later, ahead⟩ := Lexeme.spelling_prefix first
      have nonempty := List.length_pos_iff.mpr (Lexeme.spelling_ne_nil first)
      have moved := offset_skip_left ahead.symm
      have further : source.cursor.offset < (source.skip lexeme.spelling.length).cursor.offset := by
        omega
      rw [scan_of_first? stored first]
      cases lexeme with
      | token kind text => exact .token further
      | layout w => exact .layout further
      | fault cause text => exact .failed

/-- What a scan meets where no token is left. -/
def ending (source : Source) : Scan :=
  match source.fault with
  | some fault => .failed fault
  | none => .finished

/-- No scan changes anything any more. -/
def Settled (source : Source) : Prop := source.scan = (source.ending, source)

theorem settled_of_fault {source : Source} {fault : ScanFault} (stored : source.fault = some fault) :
    source.Settled := by
  rw [Settled, scan_of_fault stored, ending, stored]

theorem settled_of_end {source : Source} (ended : source.cursor.rest = []) : source.Settled := by
  cases stored : source.fault with
  | some fault => exact settled_of_fault stored
  | none =>
    have nothing : Lexeme.first? source.cursor.rest = none := by
      rw [ended]
      rfl
    rw [Settled, scan_of_end stored nothing, ending, stored]

theorem settled_of_finished {source after : Source} (scanned : source.scan = (.finished, after)) :
    after.Settled := by
  have effect := scan_effect source
  rw [scanned] at effect
  cases effect
  cases stored : after.fault with
  | some fault => exact settled_of_fault stored
  | none => rw [Settled, scanned, ending, stored]

theorem settled_of_failed {source after : Source} {fault : ScanFault}
    (scanned : source.scan = (.failed fault, after)) : after.Settled := by
  have effect := scan_effect source
  rw [scanned] at effect
  cases effect
  exact settled_of_fault rfl

theorem Settled.drain {source : Source} (settled : source.Settled) : source.drain = ([], source) := by
  rw [drain_eq, settled, ending]
  cases source.fault <;> rfl

theorem next_eq (source : Source) : source.next =
    match source.scan with
    | (.token token, after) => (some token, after)
    | (.layout, after) => after.next
    | (.finished, after) => (none, after)
    | (.failed _, after) => (none, after) := by
  rw [next]
  split
  all_goals
    rename_i scanned
    rw [scanned]

theorem Settled.next {source : Source} (settled : source.Settled) : source.next = (none, source) := by
  rw [next_eq, settled, ending]
  cases source.fault <;> rfl

theorem settled_drain (source : Source) : source.drain.2.Settled := by
  fun_induction drain source with
  | case1 source token after scanned later ih => exact ih
  | case2 source after scanned ih => exact ih
  | case3 source after scanned => exact settled_of_finished scanned
  | case4 source fault after scanned => exact settled_of_failed scanned

/-- A scan takes what it hands out from the front of the tokens that are left. -/
theorem drain_scan (source : Source) :
    source.drain = (source.scan.1.handed ++ source.scan.2.drain.1, source.scan.2.drain.2) := by
  cases scanned : source.scan with
  | mk scan after =>
    cases scan with
    | token found => exact drain_of_token scanned
    | layout => exact drain_of_layout scanned
    | finished =>
      have settled := settled_of_finished scanned
      rw [drain_of_finished scanned, settled.drain]
      rfl
    | failed fault =>
      have settled := settled_of_failed scanned
      rw [drain_of_failed scanned, settled.drain]
      rfl

/-- The next token is the first of those that are left, and only if none is left there is no next. -/
theorem drain_next (source : Source) :
    source.drain = (source.next.1.toList ++ source.next.2.drain.1, source.next.2.drain.2) ∧
      (source.next.1 = none → source.next.2.Settled) := by
  fun_induction next source with
  | case1 source token after scanned =>
    refine ⟨drain_of_token scanned, ?_⟩
    intro nothing
    cases nothing
  | case2 source after scanned ih =>
    rw [drain_of_layout scanned]
    exact ih
  | case3 source after scanned =>
    have settled := settled_of_finished scanned
    rw [drain_of_finished scanned, settled.drain]
    exact ⟨rfl, fun _ => settled⟩
  | case4 source fault after scanned =>
    have settled := settled_of_failed scanned
    rw [drain_of_failed scanned, settled.drain]
    exact ⟨rfl, fun _ => settled⟩

namespace Session

variable {ι : Type} [DecidableEq ι]

/-- What an iterator answers where no token is left. -/
def endAnswer (source : Source) : Answer :=
  match source.fault with
  | none => .stop
  | some fault => .failed fault

theorem handed_endAnswer (source : Source) : (endAnswer source).handed = [] := by
  unfold endAnswer
  split <;> rfl

theorem fault?_endAnswer (source : Source) : (endAnswer source).fault? = source.fault := by
  unfold endAnswer
  split <;> next stored => exact stored.symm

/-- An iterator that is finished only stops. Any other hands out the next token, or it is finished
    with the end of the text or the fault there. -/
theorem next_cases (session : Session ι) (iterator : ι) :
    iterator ∈ session.finished ∧ session.next iterator = (.stop, session) ∨
    iterator ∉ session.finished ∧
      ((∃ token after, session.source.next = (some token, after) ∧
        session.next iterator = (.token token, { session with source := after })) ∨
      ∃ after, session.source.next = (none, after) ∧
        session.next iterator = (endAnswer after, ⟨after, iterator :: session.finished⟩)) := by
  by_cases stopped : iterator ∈ session.finished
  · exact .inl ⟨stopped, if_pos stopped⟩
  refine .inr ⟨stopped, ?_⟩
  cases found : session.source.next with
  | mk token? after =>
    cases token? with
    | some token =>
      refine .inl ⟨token, after, rfl, ?_⟩
      rw [next, if_neg stopped, found]
    | none =>
      refine .inr ⟨after, rfl, ?_⟩
      rw [next, if_neg stopped, found]
      rfl

theorem drain_next (session : Session ι) (iterator : ι) : session.source.drain =
    ((session.next iterator).1.handed ++ (session.next iterator).2.source.drain.1,
      (session.next iterator).2.source.drain.2) := by
  have drained := (Source.drain_next session.source).1
  rcases next_cases session iterator with
    ⟨_, stop⟩ | ⟨_, ⟨token, after, found, answer⟩ | ⟨after, found, answer⟩⟩
  · rw [stop]
    rfl
  · rw [found] at drained
    rw [answer]
    exact drained
  · rw [found] at drained
    rw [answer, handed_endAnswer]
    exact drained

/-- No step loses a token, but for one that was to list the rest and fails. -/
theorem drain_step (session : Session ι) (step : Step ι)
    (kept : ∀ fault, step = .rest → (session.step step).1 ≠ .failed fault) : session.source.drain =
      ((session.step step).1.handed ++ (session.step step).2.source.drain.1,
        (session.step step).2.source.drain.2) := by
  cases step with
  | scan => exact drain_scan session.source
  | next iterator => exact drain_next session iterator
  | state => rfl
  | rest =>
    have settled := (settled_drain session.source).drain
    cases stored : session.source.drain.2.fault with
    | some fault => exact absurd (by simp only [step, stored]) (kept fault rfl)
    | none => simp only [step, stored, Answer.handed, settled, List.append_nil]

theorem drain_run {session : Session ι} {steps : List (Step ι)}
    (kept : ∀ fault, (.rest, .failed fault) ∉ steps.zip (session.run steps).1) :
    session.source.drain =
      ((session.run steps).1.flatMap Answer.handed ++ (session.run steps).2.source.drain.1,
        (session.run steps).2.source.drain.2) := by
  induction steps generalizing session with
  | nil => rfl
  | cons step steps ih =>
    have first : ∀ fault, step = .rest → (session.step step).1 ≠ .failed fault := by
      rintro fault rfl failed
      refine kept fault ?_
      rw [run, List.zip_cons_cons, failed]
      exact List.mem_cons_self
    have others : ∀ fault,
        (.rest, .failed fault) ∉ steps.zip ((session.step step).2.run steps).1 :=
      fun fault member => kept fault (List.mem_cons_of_mem _ member)
    rw [drain_step session step first, run, List.flatMap_cons, ih others, List.append_assoc]

theorem drain_step_prefix (session : Session ι) (step : Step ι) :
    (session.step step).1.handed ++ (session.step step).2.source.drain.1 <+: session.source.drain.1 ∧
      (session.step step).2.source.drain.2 = session.source.drain.2 := by
  by_cases lost : ∃ fault, step = .rest ∧ (session.step step).1 = .failed fault
  · obtain ⟨fault, rfl, failed⟩ := lost
    have settled := (settled_drain session.source).drain
    have after : (session.step .rest).2.source = session.source.drain.2 := rfl
    rw [failed, after, settled]
    exact ⟨List.nil_prefix, rfl⟩
  · have drained := drain_step session step fun fault rest failed => lost ⟨fault, rest, failed⟩
    rw [drained]
    exact ⟨List.prefix_rfl, rfl⟩

theorem drain_run_prefix (session : Session ι) (steps : List (Step ι)) :
    (session.run steps).1.flatMap Answer.handed ++ (session.run steps).2.source.drain.1 <+:
        session.source.drain.1 ∧
      (session.run steps).2.source.drain.2 = session.source.drain.2 := by
  induction steps generalizing session with
  | nil => exact ⟨List.prefix_rfl, rfl⟩
  | cons step steps ih =>
    obtain ⟨first, same⟩ := drain_step_prefix session step
    obtain ⟨later, last⟩ := ih (session.step step).2
    refine ⟨?_, last.trans same⟩
    rw [run, List.flatMap_cons, List.append_assoc]
    exact ((List.prefix_append_right_inj _).mpr later).trans first

theorem source_step_of_settled {session : Session ι} (settled : session.source.Settled)
    (step : Step ι) : (session.step step).2.source = session.source := by
  cases step with
  | scan => exact congrArg Prod.snd settled
  | rest => exact congrArg Prod.snd settled.drain
  | state => rfl
  | next iterator =>
    rw [Session.step, next, settled.next]
    split <;> rfl

theorem source_run_of_settled {session : Session ι} (settled : session.source.Settled)
    (steps : List (Step ι)) : (session.run steps).2.source = session.source := by
  induction steps generalizing session with
  | nil => rfl
  | cons step steps ih =>
    have same := source_step_of_settled settled step
    have kept : (session.step step).2.source.Settled := by rwa [same]
    exact (ih kept).trans same

/-- A step that fails leaves its fault behind. -/
theorem fault_step {session : Session ι} {step : Step ι} {fault : ScanFault}
    (met : (session.step step).1.fault? = some fault) :
    (session.step step).2.source.fault = some fault := by
  cases step with
  | state => cases met
  | scan =>
    have effect := scan_effect session.source
    rw [Session.step] at met ⊢
    generalize session.source.scan = scanned at effect met
    obtain ⟨scan, after⟩ := scanned
    cases effect <;> cases met
    rfl
  | rest =>
    simp only [Session.step] at met ⊢
    cases stored : session.source.drain.2.fault <;> rw [stored] at met <;> cases met
    rfl
  | next iterator =>
    rw [Session.step] at met ⊢
    rcases next_cases session iterator with
      ⟨_, stop⟩ | ⟨_, ⟨token, after, _, answer⟩ | ⟨after, _, answer⟩⟩
    · rw [stop] at met
      cases met
    · rw [answer] at met
      cases met
    · rw [answer, fault?_endAnswer] at met
      rw [answer]
      exact met

theorem fault_run {session : Session ι} {steps : List (Step ι)} {fault : ScanFault}
    (met : fault ∈ (session.run steps).1.filterMap Answer.fault?) :
    (session.run steps).2.source.fault = some fault := by
  induction steps generalizing session with
  | nil => cases met
  | cons step steps ih =>
    obtain ⟨answer, member, failed⟩ := List.mem_filterMap.mp met
    rcases List.mem_cons.mp member with rfl | later
    · have stored := fault_step failed
      have same := source_run_of_settled (settled_of_fault stored) steps
      exact (congrArg Source.fault same).trans stored
    · exact ih (List.mem_filterMap.mpr ⟨answer, later, failed⟩)

/-- Where a fault is met, the session stands where a plain scan ends. -/
theorem source_run_of_fault {session : Session ι} {steps : List (Step ι)} {fault : ScanFault}
    (met : fault ∈ (session.run steps).1.filterMap Answer.fault?) :
    (session.run steps).2.source = session.source.drain.2 := by
  obtain ⟨_, last⟩ := drain_run_prefix session steps
  rwa [(settled_of_fault (fault_run met)).drain] at last

theorem mem_finished_step (session : Session ι) (step : Step ι) (iterator : ι) :
    iterator ∈ (session.step step).2.finished ↔
      iterator ∈ session.finished ∨ step = .next iterator ∧ (session.step step).1.handed = [] := by
  cases step with
  | scan => simp [Session.step]
  | rest => simp [Session.step]
  | state => simp [Session.step]
  | next other =>
    rw [Session.step]
    rcases next_cases session other with
      ⟨stopped, stop⟩ | ⟨_, ⟨token, after, _, answer⟩ | ⟨after, _, answer⟩⟩
    · have own : other = iterator → iterator ∈ session.finished := fun same => same ▸ stopped
      simpa [stop, Answer.handed] using own
    · simp [answer, Answer.handed]
    · simp [answer, handed_endAnswer, or_comm, eq_comm]

/-- An iterator is finished once it has answered without a token. -/
theorem mem_finished_run (session : Session ι) (steps : List (Step ι)) (iterator : ι) :
    iterator ∈ (session.run steps).2.finished ↔ iterator ∈ session.finished ∨
      ∃ answer, (.next iterator, answer) ∈ steps.zip (session.run steps).1 ∧ answer.handed = [] := by
  induction steps generalizing session with
  | nil => simp [run]
  | cons step steps ih =>
    rw [run, ih, mem_finished_step, List.zip_cons_cons, or_assoc]
    apply or_congr_right
    constructor
    · rintro (⟨rfl, nothing⟩ | ⟨answer, member, nothing⟩)
      · exact ⟨_, List.mem_cons_self, nothing⟩
      · exact ⟨answer, List.mem_cons_of_mem _ member, nothing⟩
    · rintro ⟨answer, member, nothing⟩
      rcases List.mem_cons.mp member with same | member
      · cases same
        exact .inl ⟨rfl, nothing⟩
      · exact .inr ⟨answer, member, nothing⟩

/-- An answer that no token is left is right, and no iterator is finished before that. -/
theorem settled_step {session : Session ι}
    (idle : ∀ iterator ∈ session.finished, session.source.Settled) (step : Step ι) :
    ((session.step step).1.ends = true → (session.step step).2.source.Settled) ∧
      ∀ iterator ∈ (session.step step).2.finished, (session.step step).2.source.Settled := by
  have kept : ∀ iterator ∈ session.finished, (session.step step).2.source.Settled := by
    intro iterator member
    have settled := idle iterator member
    rwa [source_step_of_settled settled]
  cases step with
  | state =>
    refine ⟨?_, kept⟩
    intro ended
    cases ended
  | rest => exact ⟨fun _ => settled_drain session.source, kept⟩
  | scan =>
    refine ⟨?_, kept⟩
    cases scanned : session.source.scan with
    | mk scan after =>
      simp only [Session.step, scanned]
      intro ended
      cases scan with
      | finished => exact settled_of_finished scanned
      | token found => cases ended
      | layout => cases ended
      | failed fault => cases ended
  | next iterator =>
    rw [Session.step] at kept ⊢
    rcases next_cases session iterator with
      ⟨stopped, stop⟩ | ⟨_, ⟨token, after, _, answer⟩ | ⟨after, found, answer⟩⟩
    · rw [stop] at kept ⊢
      exact ⟨fun _ => kept iterator stopped, kept⟩
    · rw [answer] at kept ⊢
      refine ⟨?_, kept⟩
      intro ended
      cases ended
    · have settled := (Source.drain_next session.source).2
      rw [found] at settled
      rw [answer]
      exact ⟨fun _ => settled rfl, fun _ _ => settled rfl⟩

theorem settled_run {session : Session ι}
    (idle : ∀ iterator ∈ session.finished, session.source.Settled) {steps : List (Step ι)}
    {answer : Answer} (member : answer ∈ (session.run steps).1) (ends : answer.ends = true) :
    (session.run steps).2.source.Settled := by
  induction steps generalizing session with
  | nil => cases member
  | cons step steps ih =>
    obtain ⟨ended, idle⟩ := settled_step idle step
    rcases List.mem_cons.mp member with rfl | later
    · have settled := ended ends
      rwa [run, source_run_of_settled settled]
    · exact ih idle later

/-- Whatever step comes next, it gets this answer and moves nothing. -/
structure Stays (session : Session ι) (scan : Scan) (rest next : Answer) : Prop where
  scan : session.step .scan = (.scanned scan, session)
  rest : session.step .rest = (rest, session)
  next : ∀ iterator ∉ session.finished, (session.step (.next iterator)).1 = next ∧
    (session.step (.next iterator)).2.source = session.source

theorem stays_of_settled {session : Session ι} (settled : session.source.Settled) :
    (∀ fault, session.source.fault = some fault →
      session.Stays (.failed fault) (.failed fault) (.failed fault)) ∧
    (session.source.fault = none → session.Stays .finished (.tokens []) .stop) := by
  have later : ∀ iterator ∉ session.finished,
      session.step (.next iterator) = (endAnswer session.source, ⟨session.source, iterator :: session.finished⟩) := by
    intro iterator going
    rw [Session.step, Session.next, if_neg going, settled.next]
    rfl
  constructor
  · intro fault stored
    refine ⟨?_, ?_, fun iterator going => ?_⟩
    · rw [Session.step, settled, ending, stored]
    · simp only [Session.step, settled.drain, stored]
    · rw [later iterator going, endAnswer, stored]
      exact ⟨rfl, rfl⟩
  · intro sound
    refine ⟨?_, ?_, fun iterator going => ?_⟩
    · rw [Session.step, settled, ending, sound]
    · simp only [Session.step, settled.drain, sound]
    · rw [later iterator going, endAnswer, sound]
      exact ⟨rfl, rfl⟩

end Session

/-- The source stands in front of the piece of the text that the fault is about, behind all tokens
    before it and the layout around them. -/
structure StopsAt (source : Source) (text fileName : Text) (fault : ScanFault) : Prop where
  stored : source.fault = some fault
  place : fault.fragment.location.map Location.offset = some (source.cursor.offset : Int)
  behind : ∃ (writing : Writing) (later : Text), text = writing.text ++ later ∧
    writing.LawfulBefore later ∧ Lexeme.first? later = some (.fault fault.cause fault.fragment.text) ∧
      writing.tokens (ofText text fileName) = (ofText text fileName).drain.1 ∧
        source.cursor = (Cursor.start text).advance writing.text.length

theorem stopsAt_drain {text fileName : Text} {fault : ScanFault}
    (stored : (ofText text fileName).drain.2.fault = some fault) :
    (ofText text fileName).drain.2.StopsAt text fileName fault := by
  obtain ⟨writing, later, piece, cause, written, lawful, found, same⟩ :=
    exists_writing_of_fault (tokenize_eq_error_iff.mpr stored)
  have drained : (ofText text fileName).drain = _ := drain_writing_fault rfl written lawful found
  subst same
  refine ⟨stored, ?_, writing, later, written, lawful, found, ?_, ?_⟩
  · rw [drained]
    rfl
  · rw [drained]
  · rw [drained]
    rfl

namespace Session

variable {ι : Type} [DecidableEq ι]

/-- However scans and iterators take turns, they share one plain scan of the text: what they hand out
    comes from its tokens in order, and none is left out but those of a listing that fails. A fault is
    met where the plain scan meets it, and then by every later step. At the end every later step
    meets the end. An iterator that has failed or stopped only stops. -/
theorem run_interleaved (text fileName : Text) (steps : List (Step ι)) :
    let start := Source.ofText text fileName
    let ran := (ofText text fileName : Session ι).run steps
    let handed := ran.1.flatMap Answer.handed
    handed <+: start.drain.1 ∧
    ((∀ fault, (.rest, .failed fault) ∉ steps.zip ran.1) →
      handed ++ ran.2.source.drain.1 = start.drain.1) ∧
    (∀ source : Source, ScanEffect source source.scan.1 source.scan.2) ∧
    (∀ fault ∈ ran.1.filterMap Answer.fault?,
      ran.2.source.StopsAt text fileName fault ∧
        ran.2.Stays (.failed fault) (.failed fault) (.failed fault)) ∧
    (ran.2.source.fault = none →
      ran.2.source.cursor.rest = [] ∨ (∃ answer ∈ ran.1, answer.ends = true) →
        ran.2.Stays .finished (.tokens []) .stop) ∧
    ∀ iterator, (iterator ∈ ran.2.finished ↔
      ∃ answer, (.next iterator, answer) ∈ steps.zip ran.1 ∧ answer.handed = []) ∧
      (iterator ∈ ran.2.finished → ran.2.step (.next iterator) = (.stop, ran.2)) := by
  intro start ran handed
  obtain ⟨shared, last⟩ := drain_run_prefix (ofText text fileName : Session ι) steps
  refine ⟨?_, ?_, scan_effect, ?_, ?_, fun iterator => ⟨?_, fun stopped => if_pos stopped⟩⟩
  · exact (List.prefix_append _ _).trans shared
  · intro kept
    exact (congrArg Prod.fst (drain_run kept)).symm
  · intro fault met
    have stored : ran.2.source.fault = some fault := fault_run met
    have settled := settled_of_fault stored
    -- The state can only be the one in which the plain scan ends.
    have same : ran.2.source = start.drain.2 := by
      rw [settled.drain] at last
      exact last
    refine ⟨?_, (stays_of_settled settled).1 fault stored⟩
    rw [same] at stored ⊢
    exact stopsAt_drain stored
  · intro sound ended
    have settled : ran.2.source.Settled := by
      rcases ended with atEnd | ⟨answer, member, ends⟩
      · exact settled_of_end atEnd
      · exact settled_run nofun member ends
    exact (stays_of_settled settled).2 sound
  · have member := mem_finished_run (ofText text fileName : Session ι) steps iterator
    exact member.trans (or_iff_right List.not_mem_nil)

theorem run_interleaved_unknown :
    (let ran := (ofText "( a #x b" "file" : Session Nat).run [.next 0, .scan, .next 1, .next 0]
    let fault : ScanFault := ⟨.unknown, "#x", some ⟨"file", "( a #x b", 1, 5, 7, 4⟩⟩
    ran.1.flatMap Answer.handed =
        [⟨.opening, "(", some ⟨"file", "( a #x b", 1, 1, 2, 0⟩⟩,
          ⟨.symbol, "a", some ⟨"file", "( a #x b", 1, 3, 4, 2⟩⟩] ∧
      ran.1.flatMap Answer.handed ++ ran.2.source.drain.1 =
        (Source.ofText "( a #x b" "file").drain.1 ∧
      ran.2.source.StopsAt "( a #x b" "file" fault ∧
        ran.2.Stays (.failed fault) (.failed fault) (.failed fault) ∧
          ran.2.step (.next 0) = (.stop, ran.2)) ∧
    (let ran := (ofText " a" "file" : Session Nat).run [.scan, .rest]
    ran.2.Stays .finished (.tokens []) .stop) := by
  constructor
  · obtain ⟨_, whole, _, met, _, stopped⟩ :=
      run_interleaved "( a #x b" "file" [Step.next (0 : Nat), .scan, .next 1, .next 0]
    obtain ⟨stands, stays⟩ := met ⟨.unknown, "#x", some ⟨"file", "( a #x b", 1, 5, 7, 4⟩⟩
      (by decide +kernel)
    refine ⟨by decide +kernel, whole ?_, stands, stays, (stopped 0).2 (by decide +kernel)⟩
    intro fault member
    rcases List.of_mem_zip member with ⟨listed, _⟩
    simp at listed
  · obtain ⟨_, _, _, _, ended, _⟩ := run_interleaved " a" "file" [(.scan : Step Nat), .rest]
    exact ended (by decide +kernel) (.inl (by decide +kernel))

end Session

end Source

end SchemeSyntax
