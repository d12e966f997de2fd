import SchemeSyntax.Proofs.Form.Progress

namespace SchemeSyntax

/-- The tokens that an unfinished construct keeps, to blame one of them later. -/
def Opening.marks : Opening → List Token
  | .quote mark => [mark]
  | .list paren _ => [paren]
  | .tail paren dot _ => [paren, dot]

def Partial.marks : Partial → List Token
  | form openings => openings.flatMap Opening.marks
  | closing paren dot _ _ openings => paren :: dot :: openings.flatMap Opening.marks

def Progress.marks : Progress → List Token
  | more form => form.marks
  | done _ => []
  | wrong fault => [fault.token]

namespace Partial

theorem marks_deliver (openings : List Opening) (node : Node) :
    (deliver openings node).marks ⊆ openings.flatMap Opening.marks := by
  induction openings generalizing node with
  | nil => exact List.nil_subset _
  | cons opening outer ih =>
    cases opening with
    | quote mark => exact List.Subset.trans (ih (.quoted node)) (List.subset_cons_self _ _)
    | list paren elements => exact List.Subset.refl _
    | tail paren dot elements => exact List.Subset.refl _

theorem marks_close (openings : List Opening) (token : Token) :
    (close openings token).marks ⊆ token :: openings.flatMap Opening.marks := by
  unfold close
  split
  · next paren elements outer =>
    have kept := List.Subset.trans (marks_deliver outer elements.build)
      (List.subset_cons_self paren _)
    exact List.Subset.trans kept (List.subset_cons_self _ _)
  · exact List.cons_subset_cons _ (List.nil_subset _)
  · exact List.cons_subset_cons _ (List.nil_subset _)

theorem marks_dot (openings : List Opening) (token : Token) :
    (dot openings token).marks ⊆ token :: openings.flatMap Opening.marks := by
  unfold dot
  split
  · intro mark member
    simpa [Progress.marks, marks, Opening.marks, or_left_comm] using member
  · exact List.cons_subset_cons _ (List.nil_subset _)
  · exact List.cons_subset_cons _ (List.nil_subset _)

theorem marks_string (openings : List Opening) (token : Token) :
    (string openings token).marks ⊆ token :: openings.flatMap Opening.marks := by
  unfold string
  split
  · exact List.Subset.trans (marks_deliver openings _) (List.subset_cons_self _ _)
  · next fault refused =>
    have blamed : fault.token = token := by
      unfold Token.decodeString at refused
      cases decoded : StringBody.decode token.text <;> rw [decoded] at refused <;> cases refused
      rfl
    rw [Progress.marks, blamed]
    exact List.cons_subset_cons _ (List.nil_subset _)

/-- Nobody is blamed but the token that was fed and the tokens that were kept. -/
theorem marks_feed (form : Partial) (token : Token) :
    (form.feed token).marks ⊆ token :: form.marks := by
  cases form with
  | form openings =>
    have leaf : ∀ node, (deliver openings node).marks ⊆ token :: openings.flatMap Opening.marks :=
      fun node => List.Subset.trans (marks_deliver openings node) (List.subset_cons_self _ _)
    obtain ⟨kind, text, location⟩ := token
    cases kind with
    | opening => exact List.Subset.refl _
    | quote => exact List.Subset.refl _
    | number => exact leaf _
    | symbol => exact leaf _
    | boolean => exact leaf _
    | string => exact marks_string openings _
    | closing => exact marks_close openings _
    | dot => exact marks_dot openings _
  | closing paren dot elements tail outer =>
    simp only [feed]
    split
    · split
      · next node built =>
        intro mark member
        have kept := marks_deliver outer node member
        exact List.mem_cons_of_mem _ (List.mem_cons_of_mem _ (List.mem_cons_of_mem _ kept))
      · intro mark member
        cases List.mem_singleton.mp member
        simp [marks]
    · exact List.cons_subset_cons _ (List.nil_subset _)

theorem mem_marks_of_shortfall? {form : Partial} {fault : ReadFault}
    (short : form.shortfall? = some fault) : fault.token ∈ form.marks := by
  unfold shortfall? at short
  split at short <;> cases short <;> exact List.mem_cons_self

theorem marks_run {tokens : List Token} {progress : Progress}
    (ran : start.run tokens = (progress, [])) : progress.marks ⊆ tokens := by
  refine run_induct (motive := fun taken progress => progress.marks ⊆ taken)
    (List.Subset.refl []) ?_ ran
  intro taken form token kept mark member
  rcases List.mem_cons.mp (marks_feed form token member) with rfl | earlier
  · exact List.mem_append_right taken List.mem_cons_self
  · exact List.mem_append_left [token] (kept earlier)

end Partial

namespace TokenStream

/-- How one reading ends, by the tokens that it takes: with a form that they make; at the end of the
    stream; with a token that fits nowhere; for want of one more token; or at a scanning fault. -/
inductive Outcome (stream : TokenStream) : List Token → Reading → TokenStream → Prop
  | form {taken rest : List Token} {node : Node} (split : stream.tokens = taken ++ rest)
      (form : Form (taken.map Token.terminal) node) :
      Outcome stream taken (.form node) ⟨rest, stream.fault⟩
  | finished (nothing : stream = ended) : Outcome stream [] .finished ended
  | wrong {taken rest : List Token} {fault : ReadFault} (split : stream.tokens = taken ++ rest)
      (ran : Partial.start.run taken = (.wrong fault, [])) :
      Outcome stream taken (.failed (.read fault)) ⟨rest, stream.fault⟩
  | short {form : Partial} {fault : ReadFault} (sound : stream.fault = none)
      (ran : Partial.start.run stream.tokens = (.more form, []))
      (short : form.shortfall? = some fault) :
      Outcome stream stream.tokens (.failed (.read fault)) ended
  | broken {fault : ScanFault} (met : stream.fault = some fault) :
      Outcome stream stream.tokens (.failed (.scan fault)) ended

theorem readForm_outcome (stream : TokenStream) :
    ∃ taken, Outcome stream taken stream.readForm.1 stream.readForm.2 := by
  cases ran : Partial.start.run stream.tokens with
  | mk progress rest =>
    obtain ⟨taken, split, again, ended⟩ := Partial.run_split ran
    have read := Partial.reads_run again
    cases progress with
    | done node =>
      have found : stream.readForm = (.form node, ⟨rest, stream.fault⟩) := by
        simp only [readForm, ran]
      rw [found]
      exact ⟨taken, .form split read⟩
    | wrong fault =>
      have found : stream.readForm = (.failed (.read fault), ⟨rest, stream.fault⟩) := by
        simp only [readForm, ran]
      rw [found]
      exact ⟨taken, .wrong split again⟩
    | more form =>
      cases ended form rfl
      cases scan : stream.fault with
      | some fault =>
        have found : stream.readForm = (.failed (.scan fault), TokenStream.ended) := by
          simp only [readForm, ran, scan]
        rw [found]
        exact ⟨_, .broken scan⟩
      | none =>
        cases short : form.shortfall? with
        | some fault =>
          have found : stream.readForm = (.failed (.read fault), TokenStream.ended) := by
            simp only [readForm, ran, scan, short]
          rw [found]
          exact ⟨_, .short scan ran short⟩
        | none =>
          have found : stream.readForm = (.finished, TokenStream.ended) := by
            simp only [readForm, ran, scan, short]
          cases Partial.eq_start_of_shortfall? short
          cases List.map_eq_nil_iff.mp (Partial.eq_nil_of_reads_start read)
          rw [found]
          refine ⟨_, .finished ?_⟩
          obtain ⟨tokens, fault⟩ := stream
          cases split
          cases scan
          rfl

theorem Outcome.split {stream after : TokenStream} {taken : List Token} {reading : Reading}
    (outcome : Outcome stream taken reading after) : stream.tokens = taken ++ after.tokens := by
  cases outcome with
  | form split _ => exact split
  | finished nothing => rw [nothing, List.nil_append]
  | wrong split _ => exact split
  | short _ _ _ => exact (List.append_nil _).symm
  | broken _ => exact (List.append_nil _).symm

theorem Outcome.blamed {stream after : TokenStream} {taken : List Token} {fault : ReadFault}
    (outcome : Outcome stream taken (.failed (.read fault)) after) : fault.token ∈ taken := by
  cases outcome with
  | wrong _ ran => exact Partial.marks_run ran List.mem_cons_self
  | short _ ran short => exact Partial.marks_run ran (Partial.mem_marks_of_shortfall? short)

theorem readForms_eq (stream : TokenStream) : stream.readForms =
    match stream.readForm with
    | (.form node, after) => (after.readForms.1.map (node :: ·), after.readForms.2)
    | (.finished, after) => (.ok [], after)
    | (.failed fault, after) => (.error fault, after) := by
  rw [readForms]
  split
  all_goals
    rename_i found
    rw [found]

theorem readForms_of_form {stream after : TokenStream} {node : Node}
    (found : stream.readForm = (.form node, after)) :
    stream.readForms = (after.readForms.1.map (node :: ·), after.readForms.2) := by
  rw [readForms_eq, found]

theorem readForms_of_finished {stream after : TokenStream}
    (found : stream.readForm = (.finished, after)) : stream.readForms = (.ok [], after) := by
  rw [readForms_eq, found]

theorem readForms_of_failed {stream after : TokenStream} {fault : SourceFault}
    (found : stream.readForm = (.failed fault, after)) :
    stream.readForms = (.error fault, after) := by
  rw [readForms_eq, found]

/-- How reading to the end goes: the tokens are forms, or some of them are and then a reading fails. -/
theorem readForms_outcome (stream : TokenStream) :
    (∃ nodes, stream.readForms = (.ok nodes, ended) ∧ stream.fault = none ∧
      Forms (stream.tokens.map Token.terminal) nodes) ∨
    ∃ earlier rest part nodes fault after, stream.readForms = (.error fault, after) ∧
      stream.tokens = earlier ++ rest ∧ Forms (earlier.map Token.terminal) nodes ∧
        Outcome ⟨rest, stream.fault⟩ part (.failed fault) after := by
  generalize size : stream.tokens.length = n
  induction n using Nat.strongRecOn generalizing stream with
  | ind n ih =>
    obtain ⟨taken, outcome⟩ := readForm_outcome stream
    cases found : stream.readForm with
    | mk reading after =>
      rw [found] at outcome
      cases reading with
      | finished =>
        have whole := readForms_of_finished found
        cases outcome with
        | finished nothing =>
          subst nothing
          exact .inl ⟨[], whole, rfl, .nil⟩
      | failed fault =>
        have whole := readForms_of_failed found
        exact .inr ⟨[], stream.tokens, taken, [], fault, after, whole, rfl, .nil, outcome⟩
      | form node =>
        have whole := readForms_of_form found
        have shorter := length_readForm found
        rw [size] at shorter
        cases outcome with
        | @form _ rest _ split form =>
          rcases ih _ shorter ⟨rest, stream.fault⟩ rfl with ⟨nodes, later, sound, forms⟩ |
            ⟨earlier, behind, part, nodes, fault, after, later, rfl, forms, outcome⟩
          · rw [later] at whole
            refine .inl ⟨node :: nodes, whole, sound, ?_⟩
            rw [split, List.map_append]
            exact .cons form forms
          · rw [later] at whole
            refine .inr ⟨taken ++ earlier, behind, part, node :: nodes, fault, after, whole, ?_, ?_, outcome⟩
            · rw [split, List.append_assoc]
            · rw [List.map_append]
              exact .cons form forms

theorem mem_of_readForms {stream : TokenStream} {fault : SourceFault}
    (failed : stream.readForms.1 = .error fault) :
    (∃ met, fault = .scan met ∧ stream.fault = some met) ∨
      ∃ wrong, fault = .read wrong ∧ wrong.token ∈ stream.tokens := by
  rcases readForms_outcome stream with ⟨nodes, accepted, _⟩ |
    ⟨earlier, rest, part, nodes, other, after, refused, split, _, outcome⟩
  · rw [accepted] at failed
    cases failed
  · rw [refused] at failed
    cases failed
    cases fault with
    | scan met =>
      cases outcome with
      | broken same => exact .inl ⟨met, rfl, same⟩
    | read wrong =>
      have inPart := List.mem_append_left after.tokens outcome.blamed
      rw [← outcome.split] at inPart
      rw [split]
      exact .inr ⟨wrong, rfl, List.mem_append_right earlier inPart⟩

end TokenStream

end SchemeSyntax
