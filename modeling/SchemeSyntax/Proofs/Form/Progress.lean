import SchemeSyntax.Proofs.Form.Grammar

namespace SchemeSyntax

/-- The terminals that open constructs were read from, the outermost first. -/
inductive Opening.Read : List Opening → List Terminal → Prop
  | nil : Read [] []
  | quote {mark : Token} {outer : List Opening} {before : List Terminal}
      (kind : mark.kind = .quote) (earlier : Read outer before) :
      Read (.quote mark :: outer) (before ++ [mark.terminal])
  | list {paren : Token} {elements : Builder} {outer : List Opening} {before inside : List Terminal}
      (kind : paren.kind = .opening) (earlier : Read outer before)
      (forms : Forms inside elements.toList) :
      Read (.list paren elements :: outer) (before ++ paren.terminal :: inside)
  | tail {paren dot : Token} {elements : Builder} {outer : List Opening}
      {before inside : List Terminal} (kind : paren.kind = .opening) (dotKind : dot.kind = .dot)
      (earlier : Read outer before) (forms : Forms inside elements.toList) :
      Read (.tail paren dot elements :: outer)
        (before ++ paren.terminal :: (inside ++ [dot.terminal]))

def Partial.Reads : Partial → List Terminal → Prop
  | form openings, terminals => Opening.Read openings terminals
  | closing paren dot elements tail outer, terminals =>
    ∃ before inside behind, terminals = before ++ paren.terminal :: (inside ++ dot.terminal :: behind) ∧
      paren.kind = .opening ∧ dot.kind = .dot ∧ Opening.Read outer before ∧
        Forms inside elements.toList ∧ Form behind tail

def Progress.Reads : Progress → List Terminal → Prop
  | .more form, terminals => form.Reads terminals
  | .done node, terminals => Form terminals node
  | .wrong _, _ => True

namespace Partial

theorem reads_deliver {openings : List Opening} {before terminals : List Terminal} {node : Node}
    (earlier : Opening.Read openings before) (form : Form terminals node) :
    (deliver openings node).Reads (before ++ terminals) := by
  induction earlier generalizing terminals node with
  | nil => exact form
  | @quote mark outer before kind earlier ih =>
    obtain ⟨_, text, location⟩ := mark
    cases kind
    rw [List.append_assoc]
    exact ih (.quoted form)
  | @list paren elements outer before inside kind earlier forms =>
    have pushed : Forms (inside ++ terminals) (elements.push node).toList := by
      rw [Builder.toList_push]
      exact forms.append (.single form)
    rw [List.append_assoc]
    exact .list kind earlier pushed
  | @tail paren dot elements outer before inside kind dotKind earlier forms =>
    exact ⟨before, inside, terminals, by simp, kind, dotKind, earlier, forms, form⟩

theorem reads_closing {paren dot token : Token} {elements : Builder} {tail whole : Node}
    {inside behind : List Terminal} (kind : paren.kind = .opening) (dotKind : dot.kind = .dot)
    (closingKind : token.kind = .closing) (forms : Forms inside elements.toList)
    (form : Form behind tail) (built : elements.buildWithTail tail = .ok whole) :
    Form (paren.terminal :: (inside ++ dot.terminal :: (behind ++ [token.terminal]))) whole := by
  obtain ⟨_, left, _⟩ := paren
  obtain ⟨_, point, _⟩ := dot
  obtain ⟨_, right, _⟩ := token
  cases kind
  cases dotKind
  cases closingKind
  cases tail with
  | leaf leaf =>
    cases built
    exact .dotted forms form
  | list others ending =>
    cases ending with
    | none =>
      cases built
      exact .spliced forms form fun _ => rfl
    | some leaf =>
      simp only [Builder.buildWithTail] at built
      split at built
      · cases built
      · next nonempty =>
        cases built
        rw [Builder.isEmpty_iff] at nonempty
        exact .spliced forms form fun empty => absurd empty nonempty

theorem reads_feed {form : Partial} {before : List Terminal} (reads : form.Reads before)
    (token : Token) : (form.feed token).Reads (before ++ [token.terminal]) := by
  cases form with
  | form openings =>
    have leaf : ∀ leaf : Leaf, Form [token.terminal] (.leaf leaf) →
        (deliver openings (.leaf leaf)).Reads (before ++ [token.terminal]) :=
      fun _ form => reads_deliver reads form
    obtain ⟨kind, text, location⟩ := token
    cases kind with
    | opening => exact .list rfl reads .nil
    | quote => exact .quote rfl reads
    | number => exact leaf _ (.number (Numeral.decimal_iff.mpr rfl))
    | symbol => exact leaf _ (.symbol text)
    | boolean => exact leaf _ (.boolean text)
    | string =>
      simp only [feed, string, Token.decodeString]
      cases decoded : StringBody.decode text with
      | ok value => exact leaf _ (.string decoded)
      | error fault => trivial
    | closing =>
      cases reads with
      | nil => trivial
      | quote _ _ => trivial
      | tail _ _ _ _ => trivial
      | @list paren elements outer before inside kind earlier forms =>
        obtain ⟨_, left, _⟩ := paren
        cases kind
        rw [List.append_assoc]
        exact reads_deliver earlier (.list forms)
    | dot =>
      cases reads with
      | nil => trivial
      | quote _ _ => trivial
      | tail _ _ _ _ => trivial
      | list kind earlier forms =>
        rw [List.append_assoc]
        exact .tail kind rfl earlier forms
  | closing paren dot elements tail outer =>
    obtain ⟨before, inside, behind, rfl, kind, dotKind, earlier, forms, form⟩ := reads
    simp only [feed]
    split
    · next closingKind =>
      split
      · next whole built =>
        have list := reads_closing kind dotKind closingKind forms form built
        simpa using reads_deliver earlier list
      · trivial
    · trivial

/-- A run depends on the tokens that it takes, and not on those that it leaves. It takes all unless
    it ends. -/
theorem run_split {form : Partial} {tokens rest : List Token} {progress : Progress}
    (ran : form.run tokens = (progress, rest)) :
    ∃ taken, tokens = taken ++ rest ∧ form.run taken = (progress, []) ∧
      ∀ after, progress = .more after → rest = [] := by
  induction tokens generalizing form with
  | nil =>
    cases ran
    exact ⟨[], rfl, rfl, fun _ _ => rfl⟩
  | cons token tokens ih =>
    rw [run_cons] at ran
    cases step : form.feed token with
    | more after =>
      rw [step] at ran
      obtain ⟨taken, rfl, again, ended⟩ := ih ran
      refine ⟨token :: taken, rfl, ?_, ended⟩
      rw [run_cons, step]
      exact again
    | done node =>
      rw [step] at ran
      obtain ⟨rfl, rfl⟩ := Prod.mk.inj ran
      refine ⟨[token], rfl, ?_, fun _ impossible => Progress.noConfusion impossible⟩
      rw [run_cons, step]
      rfl
    | wrong fault =>
      rw [step] at ran
      obtain ⟨rfl, rfl⟩ := Prod.mk.inj ran
      refine ⟨[token], rfl, ?_, fun _ impossible => Progress.noConfusion impossible⟩
      rw [run_cons, step]
      rfl

/-- What holds before any token, and is kept by every token that a partial form is fed, holds of what
    a run makes of the tokens that it takes. -/
theorem run_induct {motive : List Token → Progress → Prop} (first : motive [] (.more start))
    (step : ∀ taken form token, motive taken (.more form) →
      motive (taken ++ [token]) (form.feed token))
    {tokens : List Token} {progress : Progress} (ran : start.run tokens = (progress, [])) :
    motive tokens progress := by
  suffices later : ∀ taken (form : Partial), motive taken (.more form) →
      form.run tokens = (progress, []) → motive (taken ++ tokens) progress from
    later [] start first ran
  clear first ran
  induction tokens with
  | nil =>
    intro taken form holds ran
    cases ran
    rwa [List.append_nil]
  | cons token tokens ih =>
    intro taken form holds ran
    have fed := step taken form token holds
    rw [run_cons] at ran
    rw [List.append_cons]
    cases made : form.feed token with
    | more after =>
      rw [made] at ran fed
      exact ih _ after fed ran
    | done node =>
      rw [made] at ran fed
      obtain ⟨rfl, rfl⟩ := Prod.mk.inj ran
      rwa [List.append_nil]
    | wrong fault =>
      rw [made] at ran fed
      obtain ⟨rfl, rfl⟩ := Prod.mk.inj ran
      rwa [List.append_nil]

theorem reads_start : start.Reads [] := .nil

theorem reads_run {tokens : List Token} {progress : Progress}
    (ran : start.run tokens = (progress, [])) : progress.Reads (tokens.map Token.terminal) := by
  refine run_induct (motive := fun taken progress => progress.Reads (taken.map Token.terminal))
    reads_start ?_ ran
  intro taken form token reads
  rw [List.map_append]
  exact reads_feed reads token

theorem eq_nil_of_reads_start {terminals : List Terminal} (reads : start.Reads terminals) :
    terminals = [] := by
  cases reads
  rfl

theorem eq_start_of_shortfall? {form : Partial} (complete : form.shortfall? = none) : form = start := by
  unfold shortfall? at complete
  split at complete <;> first | rfl | cases complete

end Partial

end SchemeSyntax
