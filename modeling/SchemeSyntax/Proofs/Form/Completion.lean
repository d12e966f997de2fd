import Mathlib.Data.List.Chain
import SchemeSyntax.Proofs.Form.Lines
import SchemeSyntax.Proofs.Form.Precedence

namespace SchemeSyntax

namespace Terminal

def opener : Terminal := ⟨.opening, [CodePoint.leftParen]⟩

def closer : Terminal := ⟨.closing, [CodePoint.rightParen]⟩

/-- No list begins with a dot. -/
def Apart (left right : Terminal) : Prop := left.kind = .opening → right.kind ≠ .dot

end Terminal

namespace Opening

/-- Elements stand in front of the dot, so whatever follows can be the tail. -/
def Filled : Opening → Prop
  | quote _ => True
  | list _ _ => True
  | tail _ _ elements => elements.toList ≠ []

/-- A quote mark needs no parenthesis to be finished. -/
def depth : List Opening → Nat
  | [] => 0
  | quote _ :: outer => depth outer
  | list _ _ :: outer => depth outer + 1
  | tail _ _ _ :: outer => depth outer + 1

end Opening

theorem Forms.toList_ne_nil {left right : Terminal} {before inside after : List Terminal}
    {nodes : List Node} (opens : left.kind = .opening) (dot : right.kind = .dot)
    (forms : Forms inside nodes)
    (apart : (before ++ left :: (inside ++ right :: after)).IsChain Terminal.Apart) : nodes ≠ [] := by
  rintro rfl
  cases forms
  have pair := (List.isChain_cons_cons.mp apart.right_of_append).1
  exact pair opens dot

theorem Opening.Read.filled {openings : List Opening} {terminals : List Terminal}
    (read : Opening.Read openings terminals) (apart : terminals.IsChain Terminal.Apart) :
    ∀ opening ∈ openings, opening.Filled := by
  induction read with
  | nil => exact fun _ member => absurd member List.not_mem_nil
  | quote _ _ ih => exact List.forall_mem_cons.mpr ⟨trivial, ih apart.left_of_append⟩
  | list _ _ _ ih => exact List.forall_mem_cons.mpr ⟨trivial, ih apart.left_of_append⟩
  | @tail paren dot elements outer before inside kind dotKind _ forms ih =>
    have filled : elements.toList ≠ [] := Forms.toList_ne_nil kind dotKind forms apart
    exact List.forall_mem_cons.mpr ⟨filled, ih apart.left_of_append⟩

namespace Partial

def Filled : Partial → Prop
  | form openings => ∀ opening ∈ openings, opening.Filled
  | closing _ _ elements _ openings => elements.toList ≠ [] ∧ ∀ opening ∈ openings, opening.Filled

theorem Reads.filled {form : Partial} {terminals : List Terminal} (reads : form.Reads terminals)
    (apart : terminals.IsChain Terminal.Apart) : form.Filled := by
  cases form with
  | form openings => exact Opening.Read.filled reads apart
  | closing paren dot elements tail outer =>
    obtain ⟨before, inside, behind, rfl, kind, dotKind, earlier, forms, _⟩ := reads
    exact ⟨Forms.toList_ne_nil kind dotKind forms apart, earlier.filled apart.left_of_append⟩

/-- What finishes a partial form: the empty list, where a form is due, and what closes the rest. -/
def missing : Partial → List Terminal
  | form openings => .opener :: .closer :: List.replicate (Opening.depth openings) .closer
  | closing _ _ _ _ outer => .closer :: List.replicate (Opening.depth outer) .closer

theorem run_closing {elements : Builder} (filled : elements.toList ≠ []) (paren dot : Token)
    (tail : Node) (openings : List Opening) (place : Option Location) (rest : List Token) :
    ∃ whole, (closing paren dot elements tail openings).run (⟨.closing, Terminal.closer.text, place⟩ :: rest) =
      (deliver openings whole).run rest := by
  have proper : elements.toList = [] → tail.isImproperList = false := fun empty => absurd empty filled
  obtain ⟨whole, built⟩ := Builder.exists_buildWithTail proper
  refine ⟨whole, ?_⟩
  rw [run_cons, feed, if_pos rfl, built]

/-- A form that is delivered to constructs is finished by a parenthesis for each of them. -/
theorem run_deliver {openings : List Opening} (filled : ∀ opening ∈ openings, opening.Filled)
    (node : Node) {tokens : List Token} (closers : tokens.map Token.terminal =
      List.replicate (Opening.depth openings) .closer) :
    ∃ whole, (deliver openings node).run tokens = (.done whole, []) := by
  induction openings generalizing node tokens with
  | nil =>
    cases List.map_eq_nil_iff.mp closers
    exact ⟨node, rfl⟩
  | cons opening outer ih =>
    obtain ⟨here, others⟩ := List.forall_mem_cons.mp filled
    cases opening with
    -- A quote mark is finished with its form and uses up no parenthesis.
    | quote mark => exact ih others (.quoted node) closers
    | list paren elements =>
      obtain ⟨place, rest, rfl, later⟩ := eq_cons_of_terminals closers
      rw [deliver, Progress.run, run_cons]
      exact ih others _ later
    | tail paren dot elements =>
      obtain ⟨place, rest, rfl, later⟩ := eq_cons_of_terminals closers
      obtain ⟨whole, ran⟩ := run_closing here paren dot node outer place rest
      obtain ⟨finished, done⟩ := ih others whole later
      refine ⟨finished, ?_⟩
      rw [deliver, Progress.run]
      exact ran.trans done

theorem run_missing {form : Partial} (filled : form.Filled) {tokens : List Token}
    (same : tokens.map Token.terminal = form.missing) :
    ∃ whole, form.run tokens = (.done whole, []) := by
  cases form with
  | form openings =>
    obtain ⟨left, later, rfl, inner⟩ := eq_cons_of_terminals same
    obtain ⟨right, rest, rfl, closers⟩ := eq_cons_of_terminals inner
    rw [run_cons]
    show ∃ whole, (Partial.form (.list _ .empty :: openings)).run _ = _
    rw [run_cons]
    exact run_deliver filled _ closers
  | closing paren dot elements tail outer =>
    obtain ⟨nonempty, others⟩ := filled
    obtain ⟨place, rest, rfl, closers⟩ := eq_cons_of_terminals same
    obtain ⟨whole, ran⟩ := run_closing nonempty paren dot tail outer place rest
    obtain ⟨finished, done⟩ := run_deliver others whole closers
    exact ⟨finished, ran.trans done⟩

/-- Tokens that make a part of a form begin a whole one, if no list among them begins with a dot. -/
theorem exists_form_of_more {tokens : List Token} {form : Partial}
    (ran : start.run tokens = (.more form, []))
    (apart : (tokens.map Token.terminal).IsChain Terminal.Apart) :
    ∃ node, Form (tokens.map Token.terminal ++ form.missing) node := by
  obtain ⟨later, same⟩ := exists_tokens form.missing
  have filled : form.Filled := Reads.filled (reads_run ran) apart
  obtain ⟨node, finished⟩ := run_missing filled same
  have whole : start.run (tokens ++ later) = (.done node, []) := by
    rw [run_append, ran]
    exact finished
  have form := reads_run whole
  rw [List.map_append, same] at form
  exact ⟨node, form⟩

theorem mem_missing {form : Partial} :
    ∀ terminal ∈ form.missing, terminal = .opener ∨ terminal = .closer := by
  intro terminal member
  have closers : ∀ depth, terminal ∈ Terminal.closer :: List.replicate depth .closer →
      terminal = .closer := by
    intro depth member
    rcases List.mem_cons.mp member with same | inner
    · exact same
    · exact List.eq_of_mem_replicate inner
  cases form with
  | form openings =>
    rcases List.mem_cons.mp member with same | inner
    · exact .inl same
    · exact .inr (closers _ inner)
  | closing paren dot elements tail outer => exact .inr (closers _ member)

end Partial

theorem Text.lex_missing (form : Partial) :
    lex (form.missing.flatMap Terminal.spelling) = ⟨form.missing, none⟩ := by
  refine lex_spellings fun terminal member => ?_
  rcases Partial.mem_missing terminal member with rfl | rfl
  · exact ⟨rfl, rfl⟩
  · exact ⟨rfl, rfl⟩

theorem exists_read_of_more {text fileName : Text} {earlier part : List Token} {nodes : List Node}
    {form : Partial} (scanned : tokenize text fileName = .ok (earlier ++ part))
    (forms : Forms (earlier.map Token.terminal) nodes)
    (ran : Partial.start.run part = (.more form, []))
    (apart : (part.map Token.terminal).IsChain Terminal.Apart) :
    ∃ rest nodes, read (text ++ CodePoint.newline :: rest) fileName = .ok nodes := by
  obtain ⟨node, whole⟩ := Partial.exists_form_of_more ran apart
  have above : text.lex = ⟨(earlier ++ part).map Token.terminal, none⟩ :=
    (tokenize_iff_lex text fileName _).mp ⟨_, scanned, rfl⟩
  have found := Text.lex_line above (form.missing.flatMap Terminal.spelling)
  rw [Text.lex_missing, List.map_append, List.append_assoc] at found
  exact ⟨_, _, read_of_lex found (forms.append (.single whole))⟩

/-- A text that is scanned and not read is wrong or incomplete. A wrong one is refused with the same
    fault, whatever is written below it. An incomplete one can be completed below, unless a list in
    it begins with a dot. -/
theorem read_completion {text fileName : Text} {tokens : List Token} {fault : ReadFault}
    (scanned : tokenize text fileName = .ok tokens)
    (refused : read text fileName = .error (.read fault)) :
    (fault.message ≠ "Unterminated list." → fault.message ≠ "Nothing to quote." →
      ∀ rest : Text, read (text ++ CodePoint.newline :: rest) fileName = .error (.read fault)) ∧
    (fault.message = "Unterminated list." ∨ fault.message = "Nothing to quote." →
      tokens.IsChain (fun left right => left.kind = .opening → right.kind ≠ .dot) →
        ∃ (rest : Text) (nodes : List Node),
          read (text ++ CodePoint.newline :: rest) fileName = .ok nodes) := by
  rw [read, stream_of_tokenize scanned] at refused
  rcases TokenStream.readForms_refused refused with ⟨definite, always⟩ |
    ⟨short, earlier, part, nodes, form, rfl, forms, ran⟩
  · constructor
    · intro _ _ rest
      rw [read, TokenStream.ofText_line scanned rest]
      exact always _ _
    · intro message
      cases definite.symm.trans (ReadCause.isShortage_iff.mpr message)
  · constructor
    · intro noList noQuote
      rcases ReadCause.isShortage_iff.mp short with message | message
      · exact absurd message noList
      · exact absurd message noQuote
    · intro _ apart
      have behind : (part.map Token.terminal).IsChain Terminal.Apart :=
        (List.isChain_map Token.terminal).mpr apart.right_of_append
      exact exists_read_of_more scanned forms ran behind

theorem read_completion_dotted :
    (∃ wrong, read "(a . ) (b" "file" = .error (.read wrong) ∧ wrong.message = "Wrong pair format." ∧
      read ("(a . ) (b" ++ CodePoint.newline :: Text.ofString "c)") "file" = .error (.read wrong)) ∧
    ∃ wrong, read "b (a . (c '" "file" = .error (.read wrong) ∧ wrong.message = "Nothing to quote." ∧
      ∃ (rest : Text) (nodes : List Node),
        read ("b (a . (c '" ++ CodePoint.newline :: rest) "file" = .ok nodes := by
  have refused : ∀ {text : Text} {cause : ReadCause},
      (match read text "file" with
        | .error (.read wrong) => some wrong.cause
        | _ => none) = some cause →
      ∃ wrong, read text "file" = .error (.read wrong) ∧ wrong.cause = cause := by
    intro text cause found
    split at found
    · next wrong failed => exact ⟨wrong, failed, Option.some.inj found⟩
    · cases found
  constructor
  · obtain ⟨wrong, failed, pair⟩ : ∃ wrong, read "(a . ) (b" "file" = .error (.read wrong) ∧
        wrong.cause = .wrongPair := refused (by decide +kernel)
    have message : wrong.message = "Wrong pair format." := by rw [ReadFault.message, pair]; rfl
    obtain ⟨tokens, scanned, _⟩ := (tokenize_iff_lex "(a . ) (b" "file" [⟨.opening, "("⟩,
      ⟨.symbol, "a"⟩, ⟨.dot, "."⟩, ⟨.closing, ")"⟩, ⟨.opening, "("⟩, ⟨.symbol, "b"⟩]).mpr
        (by decide +kernel)
    refine ⟨wrong, failed, message, (read_completion scanned failed).1 ?_ ?_ "c)"⟩
    · rw [message]; decide
    · rw [message]; decide
  · obtain ⟨wrong, failed, quote⟩ : ∃ wrong, read "b (a . (c '" "file" = .error (.read wrong) ∧
        wrong.cause = .nothingToQuote := refused (by decide +kernel)
    have message : wrong.message = "Nothing to quote." := by rw [ReadFault.message, quote]; rfl
    obtain ⟨tokens, scanned, same⟩ := (tokenize_iff_lex "b (a . (c '" "file" [⟨.symbol, "b"⟩,
      ⟨.opening, "("⟩, ⟨.symbol, "a"⟩, ⟨.dot, "."⟩, ⟨.opening, "("⟩, ⟨.symbol, "c"⟩, ⟨.quote, "'"⟩]).mpr
        (by decide +kernel)
    have apart : (tokens.map Token.terminal).IsChain Terminal.Apart := by
      rw [same]
      simp [Terminal.Apart]
    exact ⟨wrong, failed, message, (read_completion scanned failed).2 (.inr message)
      ((List.isChain_map Token.terminal).mp apart)⟩

end SchemeSyntax
