import SchemeSyntax.Proofs.Form.Precedence

namespace SchemeSyntax

namespace Token

def openings (tokens : List Token) : Nat := tokens.countP fun token => token.kind = .opening

def closings (tokens : List Token) : Nat := tokens.countP fun token => token.kind = .closing

/-- The tokens close nothing that is open in front of them: wherever they are cut, the part up to
    there closes no more than it opens. -/
def KeepsOpen (tokens : List Token) : Prop :=
  ∀ part, part <+: tokens → closings part ≤ openings part

/-- How many closing parentheses match no opening one among the tokens. -/
def surplus : List Token → Nat
  | [] => 0
  | token :: behind =>
    if token.kind = .opening then surplus behind - 1
    else if token.kind = .closing then surplus behind + 1
    else surplus behind

theorem openings_cons (token : Token) (tokens : List Token) :
    openings (token :: tokens) = openings tokens + if token.kind = .opening then 1 else 0 := by
  simp [openings, List.countP_cons]

theorem closings_cons (token : Token) (tokens : List Token) :
    closings (token :: tokens) = closings tokens + if token.kind = .closing then 1 else 0 := by
  simp [closings, List.countP_cons]

theorem surplus_le_iff (tokens : List Token) (n : Nat) :
    surplus tokens ≤ n ↔ ∀ part, part <+: tokens → closings part ≤ openings part + n := by
  induction tokens generalizing n with
  | nil => simp [surplus, closings]
  | cons token behind ih =>
    have parts : (∀ part, part <+: token :: behind → closings part ≤ openings part + n) ↔
        ∀ part, part <+: behind → closings (token :: part) ≤ openings (token :: part) + n := by
      constructor
      · intro every part ahead
        exact every _ (List.cons_prefix_cons.mpr ⟨rfl, ahead⟩)
      · intro every part ahead
        rcases List.prefix_cons_iff.mp ahead with rfl | ⟨later, rfl, within⟩
        · exact Nat.zero_le _
        · exact every later within
    rw [parts]
    simp only [openings_cons, closings_cons]
    cases kind : token.kind with
    | opening =>
      have fewer : surplus (token :: behind) = surplus behind - 1 := if_pos kind
      rw [fewer, Nat.sub_le_iff_le_add, ih (n + 1)]
      simp [Nat.add_assoc, Nat.add_comm 1]
    | closing =>
      have more : surplus (token :: behind) = surplus behind + 1 := by simp [surplus, kind]
      rw [more]
      cases n with
      | zero =>
        constructor
        · intro impossible
          exact absurd impossible (Nat.not_succ_le_zero _)
        · intro every
          exact absurd (every [] List.nil_prefix) (Nat.not_succ_le_zero 0)
      | succ n =>
        rw [Nat.add_le_add_iff_right, ih n]
        simp [← Nat.add_assoc]
    | _ => simpa [surplus, kind] using ih n

theorem keepsOpen_iff (tokens : List Token) : KeepsOpen tokens ↔ surplus tokens = 0 := by
  rw [← Nat.le_zero, surplus_le_iff]
  rfl

instance : DecidablePred KeepsOpen := fun tokens => decidable_of_iff _ (keepsOpen_iff tokens).symm

/-- The opening parentheses that no closing one matches, from left to right. -/
def unmatched : List Token → List Token
  | [] => []
  | token :: behind =>
    if token.kind = .opening ∧ KeepsOpen behind then token :: unmatched behind else unmatched behind

/-- The quote mark that the tokens end with. -/
def lastMark? (tokens : List Token) : Option Token :=
  tokens.getLast?.filter fun token => token.kind = .quote

theorem unmatched_append {tokens : List Token} (none : unmatched tokens = []) (later : List Token) :
    unmatched (tokens ++ later) = unmatched later := by
  induction tokens with
  | nil => rfl
  | cons token behind ih =>
    rw [unmatched] at none
    split at none
    · cases none
    · next closed =>
      have stays : ¬ (token.kind = .opening ∧ KeepsOpen (behind ++ later)) := by
        rintro ⟨opens, keeps⟩
        refine closed ⟨opens, fun part ahead => keeps part ?_⟩
        exact ahead.trans (List.prefix_append _ _)
      rw [List.cons_append, unmatched, if_neg stays, ih none]

theorem unmatched_cons (token : Token) (behind : List Token) : unmatched (token :: behind) =
    if token.kind = .opening ∧ surplus behind = 0 then token :: unmatched behind
    else unmatched behind := by
  simp only [unmatched, keepsOpen_iff]

theorem surplus_concat {token : Token} (stays : token.kind ≠ .closing) (tokens : List Token) :
    surplus (tokens ++ [token]) = surplus tokens := by
  induction tokens with
  | nil => simp [surplus, stays]
  | cons first behind ih => simp only [List.cons_append, surplus, ih]

theorem unmatched_concat {token : Token} (stays : token.kind ≠ .closing) (tokens : List Token) :
    unmatched (tokens ++ [token]) = unmatched tokens ++ unmatched [token] := by
  induction tokens with
  | nil => rfl
  | cons first behind ih =>
    rw [List.cons_append, unmatched_cons, unmatched_cons first, surplus_concat stays, ih]
    split <;> rfl

/-- A closing parenthesis matches the last one that is open. -/
theorem unmatched_concat_closing {token : Token} (closes : token.kind = .closing)
    (tokens : List Token) : unmatched (tokens ++ [token]) = (unmatched tokens).dropLast ∧
      surplus (tokens ++ [token]) =
        if unmatched tokens = [] then surplus tokens + 1 else surplus tokens := by
  induction tokens with
  | nil => simp [unmatched, surplus, closes]
  | cons first behind ih =>
    obtain ⟨left, spare⟩ := ih
    rw [List.cons_append, unmatched_cons, unmatched_cons first, left, surplus, spare, surplus]
    cases kind : first.kind with
    | opening =>
      -- The new token closes the first one only where nothing else is open and nothing closes it before.
      by_cases nothing : unmatched behind = []
      · by_cases unclosed : surplus behind = 0
        · simp [nothing, unclosed]
        · have positive : 0 < surplus behind := Nat.pos_of_ne_zero unclosed
          simp [nothing, unclosed, Nat.sub_add_cancel positive]
      · by_cases unclosed : surplus behind = 0
        · simp [nothing, unclosed, List.dropLast_cons_of_ne_nil nothing]
        · simp [nothing, unclosed]
    | closing =>
      by_cases nothing : unmatched behind = []
      · simp [nothing]
      · simp [nothing]
    | _ => simp

theorem lastMark?_eq_none_iff (tokens : List Token) :
    lastMark? tokens = none ↔ ∀ last, tokens.getLast? = some last → last.kind ≠ .quote := by
  simp only [lastMark?, Option.filter_eq_none_iff, decide_eq_true_eq]

theorem lastMark?_concat (tokens : List Token) (token : Token) :
    lastMark? (tokens ++ [token]) = lastMark? [token] := by
  simp [lastMark?]

theorem lastMark?_append {tokens : List Token} (none : lastMark? tokens = none)
    (later : List Token) : lastMark? (tokens ++ later) = lastMark? later := by
  rw [lastMark?, List.getLast?_append]
  cases last : later.getLast? with
  | none =>
    rw [Option.none_or, ← lastMark?, none, lastMark?, last]
    rfl
  | some token => rw [Option.some_or, lastMark?, last]

end Token

def Opening.paren? : Opening → Option Token
  | quote _ => none
  | list paren _ => some paren
  | tail paren _ _ => some paren

namespace Partial

/-- The parentheses that are open, from left to right. -/
def parens : Partial → List Token
  | form openings => (openings.filterMap Opening.paren?).reverse
  | closing paren _ _ _ openings => (openings.filterMap Opening.paren?).reverse ++ [paren]

/-- The quote mark whose form is due. -/
def mark? : Partial → Option Token
  | form (.quote mark :: _) => some mark
  | _ => none

/-- What is missing is a form behind a quote mark, or what ends the innermost list. -/
theorem shortfall?_eq (form : Partial) : form.shortfall? =
    match form.mark? with
    | some mark => some ⟨.nothingToQuote, mark⟩
    | none => form.parens.getLast?.map (ReadFault.mk .unterminatedList) := by
  cases form with
  | form openings =>
    cases openings with
    | nil => rfl
    | cons opening outer => cases opening <;> simp [shortfall?, mark?, parens, Opening.paren?]
  | closing paren dot elements tail outer => simp [shortfall?, mark?, parens]

end Partial

/-- What is open agrees with the tokens: the parentheses that they leave unmatched, and the quote mark
    that they end with. -/
def Progress.Agrees : Progress → List Token → Prop
  | .more form, tokens => Token.unmatched tokens = form.parens ∧ Token.lastMark? tokens = form.mark?
  | .done _, tokens => Token.unmatched tokens = [] ∧ Token.lastMark? tokens = none
  | .wrong _, _ => True

namespace Partial

theorem agrees_deliver {openings : List Opening} {tokens : List Token}
    (unmatched : Token.unmatched tokens = (openings.filterMap Opening.paren?).reverse)
    (noMark : Token.lastMark? tokens = none) (node : Node) :
    (deliver openings node).Agrees tokens := by
  induction openings generalizing node with
  | nil => exact ⟨unmatched, noMark⟩
  | cons opening outer ih =>
    cases opening with
    | quote mark => exact ih unmatched (.quoted node)
    | list paren elements => exact ⟨unmatched, noMark⟩
    | tail paren dot elements =>
      refine ⟨?_, noMark⟩
      rw [unmatched]
      simp [Opening.paren?, parens]

section

variable {tokens : List Token} {openings : List Opening}

theorem agrees_leaf (unmatched : Token.unmatched tokens = (form openings).parens) {token : Token}
    (stays : token.kind ≠ .closing) (plain : Token.unmatched [token] = [])
    (noMark : Token.lastMark? [token] = none) (node : Node) :
    (deliver openings node).Agrees (tokens ++ [token]) := by
  refine agrees_deliver ?_ ((Token.lastMark?_concat tokens token).trans noMark) node
  rw [Token.unmatched_concat stays, plain, List.append_nil, unmatched, parens]

theorem agrees_close (unmatched : Token.unmatched tokens = (form openings).parens) {token : Token}
    (closes : token.kind = .closing) (noMark : Token.lastMark? [token] = none) :
    (close openings token).Agrees (tokens ++ [token]) := by
  unfold close
  split
  · next paren elements outer =>
    refine agrees_deliver ?_ ((Token.lastMark?_concat tokens token).trans noMark) _
    rw [(Token.unmatched_concat_closing closes tokens).1, unmatched]
    simp [parens, Opening.paren?]
  · trivial
  · trivial

end

theorem agrees_feed {form : Partial} {tokens : List Token}
    (agrees : (Progress.more form).Agrees tokens) (token : Token) :
    (form.feed token).Agrees (tokens ++ [token]) := by
  obtain ⟨unmatched, _⟩ := agrees
  have last := Token.lastMark?_concat tokens token
  have stays : token.kind ≠ .closing →
      Token.unmatched (tokens ++ [token]) = form.parens ++ Token.unmatched [token] := by
    intro noClosing
    rw [Token.unmatched_concat noClosing, unmatched]
  cases form with
  | form openings =>
    have leaf : token.kind ≠ .closing → Token.unmatched [token] = [] →
        Token.lastMark? [token] = none → ∀ node, (deliver openings node).Agrees (tokens ++ [token]) :=
      agrees_leaf unmatched
    obtain ⟨kind, text, location⟩ := token
    cases kind with
    | opening =>
      have inner : (form (.list ⟨.opening, text, location⟩ .empty :: openings)).parens =
          (form openings).parens ++ [⟨.opening, text, location⟩] := by simp [parens, Opening.paren?]
      exact ⟨(stays nofun).trans inner.symm, last⟩
    | quote =>
      have plain := (stays nofun).trans (List.append_nil _)
      exact ⟨plain, last⟩
    | number => exact leaf nofun rfl rfl _
    | symbol => exact leaf nofun rfl rfl _
    | boolean => exact leaf nofun rfl rfl _
    | string =>
      simp only [feed, string]
      split
      · exact leaf nofun rfl rfl _
      · trivial
    | closing => exact agrees_close unmatched rfl rfl
    | dot =>
      have plain := (stays nofun).trans (List.append_nil _)
      simp only [feed, dot]
      split
      · exact ⟨plain, last⟩
      · trivial
      · trivial
  | closing paren dot elements tail outer =>
    simp only [feed]
    split
    · next closes =>
      have left := (Token.unmatched_concat_closing closes tokens).1
      rw [unmatched, parens, List.dropLast_concat] at left
      have noMark : Token.lastMark? [token] = none := by simp [Token.lastMark?, closes]
      split
      · exact agrees_deliver left (last.trans noMark) _
      · trivial
    · trivial

theorem agrees_run {tokens : List Token} {progress : Progress}
    (ran : start.run tokens = (progress, [])) : progress.Agrees tokens :=
  run_induct (motive := fun taken progress => progress.Agrees taken) ⟨rfl, rfl⟩
    (fun _ _ token agrees => agrees_feed agrees token) ran

end Partial

theorem Form.agrees {tokens : List Token} {node : Node} (form : Form (tokens.map Token.terminal) node) :
    Token.unmatched tokens = [] ∧ Token.lastMark? tokens = none := by
  have ran := form.run rfl [] []
  rw [List.append_nil] at ran
  exact Partial.agrees_run ran

/-- Tokens that make whole forms leave no parenthesis open and no quote mark without a form. -/
theorem Forms.agrees {tokens : List Token} {nodes : List Node}
    (forms : Forms (tokens.map Token.terminal) nodes) :
    Token.unmatched tokens = [] ∧ Token.lastMark? tokens = none := by
  generalize same : tokens.map Token.terminal = terminals at forms
  induction nodes generalizing tokens terminals with
  | nil =>
    cases forms
    cases List.map_eq_nil_iff.mp same
    exact ⟨rfl, rfl⟩
  | cons node nodes ih =>
    cases forms with
    | cons form forms =>
      obtain ⟨first, later, rfl, rfl, others⟩ := List.map_eq_append_iff.mp same
      obtain ⟨closed, noMark⟩ := form.agrees
      rw [Token.unmatched_append closed, Token.lastMark?_append noMark]
      exact ih _ others forms

/-- Where tokens are refused only because they have run out, the innermost construct that is open is
    blamed: the quote mark at their end, or else the last parenthesis that they leave unmatched. -/
theorem TokenStream.readForms_shortage {tokens : List Token}
    (short : ∀ fault, (⟨tokens, none⟩ : TokenStream).readForms.1 = .error (.read fault) →
      fault.cause.isShortage = true) :
    match Token.lastMark? tokens, (Token.unmatched tokens).getLast? with
    | some mark, _ =>
      (⟨tokens, none⟩ : TokenStream).readForms.1 = .error (.read ⟨.nothingToQuote, mark⟩)
    | none, some paren =>
      (⟨tokens, none⟩ : TokenStream).readForms.1 = .error (.read ⟨.unterminatedList, paren⟩)
    | none, none => ∃ nodes, (⟨tokens, none⟩ : TokenStream).readForms.1 = .ok nodes := by
  rcases readForms_outcome ⟨tokens, none⟩ with ⟨nodes, accepted, _, forms⟩ |
    ⟨earlier, rest, part, nodes, failure, after, failed, rfl, forms, outcome⟩
  · obtain ⟨closed, noMark⟩ := forms.agrees
    rw [closed, noMark, accepted]
    exact ⟨nodes, rfl⟩
  · -- The whole forms in front leave nothing open, so only the tokens of the last form count.
    obtain ⟨closed, noMark⟩ := forms.agrees
    rw [Token.unmatched_append closed, Token.lastMark?_append noMark, failed]
    cases failure with
    | scan fault =>
      cases outcome with
      | broken met => cases met
    | read fault =>
      cases outcome with
      | wrong _ ran =>
        have definite : fault.cause.isShortage = false := Partial.definite_run ran
        rw [short fault (congrArg Prod.fst failed)] at definite
        cases definite
      | short _ ran blamed =>
        obtain ⟨unmatched, mark⟩ := Partial.agrees_run ran
        rw [Partial.shortfall?_eq, ← unmatched, ← mark] at blamed
        cases found : Token.lastMark? rest with
        | some mark =>
          rw [found] at blamed
          cases blamed
          rfl
        | none =>
          rw [found] at blamed
          obtain ⟨paren, innermost, rfl⟩ := Option.map_eq_some_iff.mp blamed
          rw [innermost]

/-- Where a text is refused only because it has run out, the innermost construct that is open is
    blamed: the quote mark that the text ends with, or else the last parenthesis that is unmatched,
    whatever else stands between it and the end. With none of either the text is read. -/
theorem read_shortage {text fileName : Text} {tokens : List Token}
    (scanned : tokenize text fileName = .ok tokens)
    (short : ∀ fault, read text fileName = .error (.read fault) →
      fault.message = "Unterminated list." ∨ fault.message = "Nothing to quote.") :
    (∀ mark, tokens.getLast? = some mark → mark.kind = .quote →
      ∃ fault, read text fileName = .error (.read fault) ∧
        fault.message = "Nothing to quote." ∧ fault.token = mark) ∧
    ((∀ last, tokens.getLast? = some last → last.kind ≠ .quote) →
      (∀ paren, (Token.unmatched tokens).getLast? = some paren →
        ∃ fault, read text fileName = .error (.read fault) ∧
          fault.message = "Unterminated list." ∧ fault.token = paren) ∧
      (Token.unmatched tokens = [] → ∃ nodes, read text fileName = .ok nodes)) := by
  rw [read, stream_of_tokenize scanned] at short ⊢
  have outcome := TokenStream.readForms_shortage fun fault refused =>
    ReadCause.isShortage_iff.mpr (short fault refused)
  constructor
  · intro mark last quote
    have found : Token.lastMark? tokens = some mark := by simp [Token.lastMark?, last, quote]
    rw [found] at outcome
    exact ⟨_, outcome, rfl, rfl⟩
  · intro plain
    rw [(Token.lastMark?_eq_none_iff tokens).mpr plain] at outcome
    constructor
    · intro paren innermost
      rw [innermost] at outcome
      exact ⟨_, outcome, rfl, rfl⟩
    · intro closed
      rw [closed] at outcome
      exact outcome

theorem read_shortage_dotted :
    (∃ fault, read "(a (b) . (c . d)" "file" = .error (.read fault) ∧
      fault.message = "Unterminated list." ∧
        fault.token = ⟨.opening, "(", some ⟨"file", "(a (b) . (c . d)", 1, 1, 2, 0⟩⟩) ∧
    (∃ fault, read "(a . '" "file" = .error (.read fault) ∧ fault.message = "Nothing to quote." ∧
      fault.token = ⟨.quote, "'", some ⟨"file", "(a . '", 1, 6, 7, 5⟩⟩) ∧
    ∃ nodes, read "'(a . b)" "file" = .ok nodes := by
  have short : ∀ {text : Text},
      (match read text "file" with
        | .error (.read fault) => fault.cause.isShortage
        | _ => true) = true →
      ∀ fault, read text "file" = .error (.read fault) →
        fault.message = "Unterminated list." ∨ fault.message = "Nothing to quote." := by
    intro text only fault failed
    rw [failed] at only
    exact ReadCause.isShortage_iff.mp only
  have scanned : ∀ {text : Text}, (Source.ofText text "file").drain.2.fault = none →
      tokenize text "file" = .ok (Source.ofText text "file").drain.1 :=
    fun sound => tokenize_eq_ok_iff.mpr ⟨sound, rfl⟩
  refine ⟨?_, ?_, ?_⟩
  · have found : tokenize "(a (b) . (c . d)" "file" = .ok _ := scanned (by decide +kernel)
    have plain := (Token.lastMark?_eq_none_iff (Source.ofText "(a (b) . (c . d)" "file").drain.1).mp
      (by decide +kernel)
    exact ((read_shortage found (short (by decide +kernel))).2 plain).1 _ (by decide +kernel)
  · have found : tokenize "(a . '" "file" = .ok _ := scanned (by decide +kernel)
    exact (read_shortage found (short (by decide +kernel))).1 _ (by decide +kernel) rfl
  · have found : tokenize "'(a . b)" "file" = .ok _ := scanned (by decide +kernel)
    have plain := (Token.lastMark?_eq_none_iff (Source.ofText "'(a . b)" "file").drain.1).mp
      (by decide +kernel)
    exact ((read_shortage found (short (by decide +kernel))).2 plain).2 (by decide +kernel)

end SchemeSyntax
