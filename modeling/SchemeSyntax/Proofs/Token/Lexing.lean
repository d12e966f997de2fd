import SchemeSyntax.Proofs.Token.Spelling
import SchemeSyntax.Token.Source

namespace SchemeSyntax

namespace StringEnd

theorem foldr_cons_closed (body more : Text) :
    body.foldr cons (.closed more) = .closed (body ++ more) := by
  induction body with
  | nil => rfl
  | cons c body ih =>
    rw [List.foldr_cons, ih]
    rfl

theorem foldr_cons_unterminated (body : Text) : body.foldr cons .unterminated = .unterminated := by
  induction body with
  | nil => rfl
  | cons c body ih =>
    rw [List.foldr_cons, ih]
    rfl

end StringEnd

namespace Text

/-- Nothing more of a word stands at the front of the text. -/
def Delimited (t : Text) : Prop := ∀ c ∈ t.head?, c.isDelimiter = true

def LineEnds (t : Text) : Prop := ∀ c ∈ t.head?, c = CodePoint.newline

/-- White space and comments in front of `later`. A comment goes on up to the next newline or the
    end of the text. -/
inductive LayoutBefore (later : Text) : Text → Prop
  | nil : LayoutBefore later []
  | space {c : CodePoint} {rest : Text} (space : c.isSpace = true) (tail : LayoutBefore later rest) :
      LayoutBefore later (c :: rest)
  | comment {body rest : Text} (sameLine : CodePoint.newline ∉ body)
      (ended : LineEnds (rest ++ later)) (tail : LayoutBefore later rest) :
      LayoutBefore later (CodePoint.semicolon :: (body ++ rest))

theorem LayoutBefore.append {later left right : Text} (first : LayoutBefore (right ++ later) left)
    (second : LayoutBefore later right) : LayoutBefore later (left ++ right) := by
  induction first with
  | nil => exact second
  | space space _ ih => exact .space space ih
  | @comment body rest sameLine ended _ ih =>
    rw [← List.append_assoc] at ended
    have joined := LayoutBefore.comment sameLine ended ih
    rwa [← List.append_assoc] at joined

theorem LayoutBefore.delimited {later w : Text} (isLayout : LayoutBefore later w) (begins : w ≠ [])
    (rest : Text) : (w ++ rest).Delimited := by
  intro c first
  cases isLayout with
  | nil => exact absurd rfl begins
  | space space _ =>
    cases first
    simp [CodePoint.isDelimiter, space]
  | comment _ _ _ =>
    cases first
    decide

theorem layout_comment_append {body : Text} (sameLine : CodePoint.newline ∉ body) (rest : Text) :
    layout true (body ++ rest) = body ++ layout true rest := by
  induction body with
  | nil => rfl
  | cons c body ih =>
    obtain ⟨notHere, notLater⟩ := not_or.mp (mt List.mem_cons.mpr sameLine)
    have other : decide (c ≠ CodePoint.newline) = true := decide_eq_true (Ne.symm notHere)
    simp only [List.cons_append, layout, if_true, other, ih notLater]

theorem layout_comment {body rest : Text} (sameLine : CodePoint.newline ∉ body)
    (ended : LineEnds rest) : layout true (body ++ rest) = body ++ layout false rest := by
  rw [layout_comment_append sameLine]
  cases rest with
  | nil => rfl
  | cons c rest =>
    cases ended c rfl
    rfl

theorem layout_append {later w : Text} (isLayout : LayoutBefore later w) :
    layout false (w ++ later) = w ++ layout false later := by
  induction isLayout with
  | nil => rfl
  | space space _ ih => simp [layout, space, ih]
  | comment sameLine ended _ ih =>
    have noSpace : CodePoint.semicolon.isSpace = false := by decide
    simp only [List.cons_append, List.append_assoc, layout, Bool.false_eq_true, if_false, noSpace,
      if_true, layout_comment sameLine ended, ih]

/-- What layout takes is layout, and none is left in front of the rest. Within a comment this holds
    from the end of the comment on. -/
theorem layoutBefore_layout (t : Text) :
    (∃ later, t = layout false t ++ later ∧ layout false later = [] ∧
      LayoutBefore later (layout false t)) ∧
    ∃ body rest later, layout true t = body ++ rest ∧ t = body ++ rest ++ later ∧
      layout false later = [] ∧ CodePoint.newline ∉ body ∧ LineEnds (rest ++ later) ∧
        LayoutBefore later rest := by
  induction t with
  | nil => exact ⟨⟨[], rfl, rfl, .nil⟩, [], [], [], rfl, rfl, rfl, List.not_mem_nil, nofun, .nil⟩
  | cons c t ih =>
    obtain ⟨⟨outside, same, stops, isLayout⟩, body, rest, later, taken, split, ended, inside⟩ := ih
    constructor
    · by_cases space : c.isSpace = true
      · refine ⟨outside, ?_, stops, ?_⟩
        · simp [layout, space, ← same]
        · simpa [layout, space] using LayoutBefore.space space isLayout
      by_cases comment : c = CodePoint.semicolon
      · subst comment
        have noSpace : CodePoint.semicolon.isSpace = false := by decide
        refine ⟨later, ?_, ended, ?_⟩
        · rw [layout, if_neg Bool.false_ne_true, noSpace, if_neg Bool.false_ne_true, if_pos rfl, taken,
            List.cons_append, ← split]
        · simpa [layout, noSpace, taken] using LayoutBefore.comment inside.1 inside.2.1 inside.2.2
      · have nothing : layout false (c :: t) = [] := by simp [layout, space, comment]
        exact ⟨c :: t, by rw [nothing]; rfl, nothing, by rw [nothing]; exact .nil⟩
    · by_cases newline : c = CodePoint.newline
      · subst newline
        refine ⟨[], CodePoint.newline :: layout false t, outside, ?_, ?_, stops, List.not_mem_nil, ?_, ?_⟩
        · simp [layout]
        · simp [← same]
        · intro c first
          cases first
          rfl
        · exact .space (by decide) isLayout
      · refine ⟨c :: body, rest, later, ?_, ?_, ended, ?_, inside.2.1, inside.2.2⟩
        · simp [layout, newline, taken]
        · simp [split]
        · exact mt List.mem_cons.mp (not_or.mpr ⟨Ne.symm newline, inside.1⟩)

/-- A body leaves it to what follows how the string ends. -/
theorem stringEnd_append {body : Text} (isBody : body.IsBody) (rest : Text) :
    stringEnd false (body ++ rest) = body.foldr StringEnd.cons (stringEnd false rest) := by
  induction isBody with
  | nil => rfl
  | plain noQuote noBackslash noNewline _ ih =>
    simp [stringEnd, noQuote, noBackslash, noNewline, ih]
  | escaped noNewline _ ih =>
    have backslash : CodePoint.backslash ≠ CodePoint.newline ∧
        CodePoint.backslash ≠ CodePoint.doubleQuote := by decide
    simp [stringEnd, backslash, noNewline, ih]

theorem stringEnd_of_isBody {body : Text} (isBody : body.IsBody) (rest : Text) :
    stringEnd false (body ++ CodePoint.doubleQuote :: rest) = .closed body := by
  have closed : stringEnd false (CodePoint.doubleQuote :: rest) = .closed [] := rfl
  rw [stringEnd_append isBody, closed, StringEnd.foldr_cons_closed, List.append_nil]

/-- Behind a backslash the body has to go on with the character that is escaped. -/
theorem isBody_of_stringEnd {escaped : Bool} {t body : Text}
    (closed : stringEnd escaped t = .closed body) :
    if escaped then ∃ c rest, body = c :: rest ∧ c ≠ CodePoint.newline ∧ IsBody rest
    else IsBody body := by
  induction t generalizing escaped body with
  | nil => cases closed
  | cons c rest ih =>
    simp only [stringEnd] at closed
    split at closed
    · cases closed
    next noNewline =>
    split at closed
    · next behind =>
      cases later : stringEnd false rest <;> simp only [later, StringEnd.cons] at closed <;> cases closed
      have tail := ih later
      simp only [behind, if_true]
      exact ⟨c, _, rfl, noNewline, tail⟩
    next plain =>
    simp only [plain]
    split at closed
    · cases closed
      exact .nil
    · next noQuote =>
      cases later : stringEnd (c = CodePoint.backslash) rest <;>
        simp only [later, StringEnd.cons] at closed <;> cases closed
      have tail := ih later
      by_cases backslash : c = CodePoint.backslash
      · simp only [backslash, decide_true, if_true] at tail
        obtain ⟨d, later, rfl, legal, isBody⟩ := tail
        subst backslash
        exact .escaped legal isBody
      · simp only [backslash, decide_false] at tail
        exact .plain noQuote backslash noNewline tail

theorem word_append {w rest : Text} (inside : ∀ c ∈ w, c.isDelimiter = false)
    (stop : rest.Delimited) : word (w ++ rest) = w ∧ afterWord (w ++ rest) = rest := by
  have every : ∀ c ∈ w, (!c.isDelimiter) = true := by simpa using inside
  rw [word, afterWord, List.takeWhile_append_of_pos every, List.dropWhile_append_of_pos every]
  cases rest with
  | nil => simp
  | cons c rest => simp [stop c rfl]

theorem delimited_afterWord (t : Text) : (afterWord t).Delimited := by
  intro c first
  have stopped := List.head?_dropWhile_not (fun c : CodePoint => !c.isDelimiter) t
  unfold afterWord at first
  cases ended : t.dropWhile fun c => !c.isDelimiter with
  | nil => simp [ended] at first
  | cons d rest => simp_all

end Text

namespace Lexeme

theorem first?_of_inside {c : CodePoint} {rest : Text} (inside : c.isDelimiter = false)
    (noQuote : c ≠ CodePoint.apostrophe) :
    first? (c :: rest) =
      some (ofWord (Text.word (c :: rest)) (Text.afterWord (c :: rest)).isEmpty) := by
  simp only [CodePoint.isDelimiter, Bool.or_eq_false_iff, decide_eq_false_iff_not] at inside
  simp [first?, inside, noQuote]

theorem first?_spelling {terminal : Terminal} (spelled : terminal.WellSpelled) {rest : Text}
    (stop : terminal.kind.isWord = true → rest.Delimited) :
    first? (terminal.spelling ++ rest) = some (.token terminal.kind terminal.text) := by
  obtain ⟨kind, text⟩ := terminal
  have word : kind.isWord = true → kind.spell text = text →
      first? (kind.spell text ++ rest) = some (.token kind text) := by
    intro word plain
    have inside := TokenKind.Spells.inside spelled word
    have taken := Text.word_append inside (stop word)
    rw [plain]
    obtain ⟨c, later, rfl⟩ := List.exists_cons_of_ne_nil (TokenKind.Spells.ne_nil spelled word)
    have noQuote : c ≠ CodePoint.apostrophe := by
      intro same
      subst same
      rcases TokenKind.Spells.subsequent spelled word _ List.mem_cons_self with impossible | impossible
      · exact absurd impossible (by decide)
      · exact absurd impossible (by decide)
    rw [List.cons_append] at taken ⊢
    rw [first?_of_inside (inside c List.mem_cons_self) noQuote, taken.1,
      ofWord_of_spells spelled word]
  cases kind with
  | opening => cases spelled; rfl
  | closing => cases spelled; rfl
  | quote => cases spelled; rfl
  | string =>
    have closed := Text.stringEnd_of_isBody spelled rest
    have first : first? (CodePoint.doubleQuote :: (text ++ CodePoint.doubleQuote :: rest)) =
        some (ofString (text ++ CodePoint.doubleQuote :: rest)) := rfl
    simp only [Terminal.spelling, TokenKind.spell, List.cons_append, List.append_assoc,
      List.nil_append, first, ofString, closed]
  | number => exact word rfl rfl
  | symbol => exact word rfl rfl
  | boolean => exact word rfl rfl
  | dot => exact word rfl rfl

/-- What is found at the front of a text is written there. -/
theorem first?_cases {t : Text} {lexeme : Lexeme} (found : first? t = some lexeme) :
    (∃ kind text rest, lexeme = .token kind text ∧ t = kind.spell text ++ rest ∧
      kind.Spells text ∧ (kind.isWord = true → rest.Delimited)) ∨
    lexeme = .layout (Text.layout false t) ∨ ∃ cause text, lexeme = .fault cause text := by
  cases t with
  | nil => cases found
  | cons c rest =>
    have noWord : ∀ {kind : TokenKind} {later : Text}, kind.isWord = false → kind.isWord = true →
        later.Delimited := by
      intro kind later other word
      exact absurd (other.symm.trans word) Bool.false_ne_true
    simp only [first?] at found
    split at found
    · next paren =>
      cases found
      exact .inl ⟨.opening, [c], rest, rfl, rfl, congrArg ([·]) paren, noWord rfl⟩
    split at found
    · next paren =>
      cases found
      exact .inl ⟨.closing, [c], rest, rfl, rfl, congrArg ([·]) paren, noWord rfl⟩
    split at found
    · next apostrophe =>
      cases found
      exact .inl ⟨.quote, [c], rest, rfl, rfl, congrArg ([·]) apostrophe, noWord rfl⟩
    split at found
    · next quote =>
      subst quote
      unfold ofString at found
      split at found
      · next body closed =>
        cases found
        have isBody := Text.isBody_of_stringEnd closed
        obtain ⟨later, written⟩ := Text.prefix_of_stringEnd closed
        have spelled : CodePoint.doubleQuote :: rest = TokenKind.string.spell body ++ later := by
          rw [← written]
          rfl
        exact .inl ⟨.string, body, later, rfl, spelled, isBody, noWord rfl⟩
      · cases found
        exact .inr (.inr ⟨_, _, rfl⟩)
      · cases found
        exact .inr (.inr ⟨_, _, rfl⟩)
    split at found
    · cases found
      exact .inr (.inl rfl)
    · have word := Option.some.inj found
      cases lexeme with
      | token kind text =>
        obtain ⟨rfl, isWord, spelled⟩ := spells_of_ofWord word
        have plain : kind.spell (Text.word (c :: rest)) = Text.word (c :: rest) := by
          cases kind <;> first | rfl | cases isWord
        have written : c :: rest =
            kind.spell (Text.word (c :: rest)) ++ Text.afterWord (c :: rest) := by
          rw [plain]
          exact List.takeWhile_append_dropWhile.symm
        exact .inl ⟨kind, _, _, rfl, written, spelled, fun _ => Text.delimited_afterWord _⟩
      | layout w =>
        unfold ofWord at word
        repeat' split at word
        all_goals cases word
      | fault cause text => exact .inr (.inr ⟨cause, text, rfl⟩)

theorem spells_of_first? {t text : Text} {kind : TokenKind}
    (found : first? t = some (.token kind text)) :
    ∃ rest, t = kind.spell text ++ rest ∧ kind.Spells text ∧
      (kind.isWord = true → rest.Delimited) := by
  rcases first?_cases found with ⟨_, _, rest, same, written⟩ | same | ⟨_, _, same⟩
  · cases same
    exact ⟨rest, written⟩
  · cases same
  · cases same

theorem eq_layout_of_first? {t w : Text} (found : first? t = some (.layout w)) :
    w = Text.layout false t := by
  rcases first?_cases found with ⟨_, _, _, same, _⟩ | same | ⟨_, _, same⟩
  · cases same
  · cases same
    rfl
  · cases same

theorem first?_of_layout {t : Text} (begins : Text.layout false t ≠ []) :
    first? t = some (.layout (Text.layout false t)) := by
  cases t with
  | nil => exact absurd rfl begins
  | cons c rest =>
    have blank : c.isSpace = true ∨ c = CodePoint.semicolon := by
      by_cases space : c.isSpace = true
      · exact .inl space
      by_cases comment : c = CodePoint.semicolon
      · exact .inr comment
      · exact absurd (by simp [Text.layout, space, comment]) begins
    have other : c ≠ CodePoint.leftParen ∧ c ≠ CodePoint.rightParen ∧ c ≠ CodePoint.apostrophe ∧
        c ≠ CodePoint.doubleQuote := by
      rcases blank with space | rfl
      · refine ⟨?_, ?_, ?_, ?_⟩
        all_goals
          intro same
          subst same
          exact absurd space (by decide)
      · decide
    simp [first?, other, blank]

theorem eq_nil_of_first? {t : Text} (ended : first? t = none) : t = [] := by
  cases t with
  | nil => rfl
  | cons c rest =>
    simp only [first?] at ended
    repeat' split at ended
    all_goals cases ended

theorem length_drop_lt {t : Text} {lexeme : Lexeme} (found : first? t = some lexeme) :
    (t.drop lexeme.spelling.length).length < t.length := by
  have nonempty := List.length_pos_iff.mpr (spelling_ne_nil found)
  have ahead := spelling_prefix found
  have within := ahead.length_le
  rw [List.length_drop]
  omega

end Lexeme

/-- The terminals of a text up to its end or the first fault. -/
structure Lexing where
  terminals : List Terminal
  cause : Option ScanCause
  deriving DecidableEq, Repr

def Lexing.cons (terminal : Terminal) (lexing : Lexing) : Lexing :=
  ⟨terminal :: lexing.terminals, lexing.cause⟩

namespace Text

def lex (t : Text) : Lexing :=
  match _ : Lexeme.first? t with
  | none => ⟨[], none⟩
  | some (.token kind text) => (lex (t.drop (kind.spell text).length)).cons ⟨kind, text⟩
  | some (.layout w) => lex (t.drop w.length)
  | some (.fault cause _) => ⟨[], some cause⟩
termination_by t.length
decreasing_by
  · next found => exact Lexeme.length_drop_lt found
  · next found => exact Lexeme.length_drop_lt found

theorem lex_eq (t : Text) : lex t =
    match Lexeme.first? t with
    | none => ⟨[], none⟩
    | some (.token kind text) => (lex (t.drop (kind.spell text).length)).cons ⟨kind, text⟩
    | some (.layout w) => lex (t.drop w.length)
    | some (.fault cause _) => ⟨[], some cause⟩ := by
  rw [lex]
  split
  all_goals
    rename_i found
    rw [found]

theorem lex_end {t : Text} (ended : Lexeme.first? t = none) : lex t = ⟨[], none⟩ := by
  rw [lex_eq, ended]

theorem lex_nil : lex [] = ⟨[], none⟩ := lex_end rfl

theorem lex_token {t text : Text} {kind : TokenKind}
    (found : Lexeme.first? t = some (.token kind text)) :
    lex t = (lex (t.drop (kind.spell text).length)).cons ⟨kind, text⟩ := by
  rw [lex_eq, found]

theorem lex_blank {t w : Text} (found : Lexeme.first? t = some (.layout w)) :
    lex t = lex (t.drop w.length) := by
  rw [lex_eq, found]

theorem lex_fault {t text : Text} {cause : ScanCause}
    (found : Lexeme.first? t = some (.fault cause text)) : lex t = ⟨[], some cause⟩ := by
  rw [lex_eq, found]

theorem lex_spelling {terminal : Terminal} (spelled : terminal.WellSpelled) {rest : Text}
    (stop : terminal.kind.isWord = true → rest.Delimited) :
    lex (terminal.spelling ++ rest) = (lex rest).cons terminal := by
  rw [lex_token (Lexeme.first?_spelling spelled stop)]
  show (lex ((terminal.spelling ++ rest).drop terminal.spelling.length)).cons terminal = _
  rw [List.drop_left]

/-- Tokens that are no words need nothing between them. -/
theorem lex_spellings {terminals : List Terminal}
    (spelled : ∀ t ∈ terminals, t.WellSpelled ∧ t.kind.isWord = false) :
    lex (terminals.flatMap Terminal.spelling) = ⟨terminals, none⟩ := by
  induction terminals with
  | nil => exact lex_nil
  | cons terminal terminals ih =>
    obtain ⟨⟨here, noWord⟩, later⟩ := List.forall_mem_cons.mp spelled
    have stop : terminal.kind.isWord = true → Delimited (terminals.flatMap Terminal.spelling) :=
      fun word => Bool.noConfusion (noWord.symm.trans word)
    rw [List.flatMap_cons, lex_spelling here stop, ih later]
    rfl

theorem lex_layout {later w : Text} (isLayout : LayoutBefore later w) : lex (w ++ later) = lex later := by
  have whole : ∀ t : Text, lex t = lex (t.drop (layout false t).length) := by
    intro t
    by_cases nothing : layout false t = []
    · rw [nothing]
      rfl
    · exact lex_blank (Lexeme.first?_of_layout nothing)
  rw [whole, whole later, layout_append isLayout, List.length_append, ← List.drop_drop,
    List.drop_left]

end Text

end SchemeSyntax
