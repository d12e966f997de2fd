import SchemeSyntax.Diagnostic
import SchemeSyntax.Proofs.Token.Placing

namespace SchemeSyntax

namespace StringEnd

theorem cons_eq_broken {c : CodePoint} {ending : StringEnd} :
    ending.cons c = .broken ↔ ending = .broken := by
  cases ending <;> simp [cons]

theorem cons_eq_unterminated {c : CodePoint} {ending : StringEnd} :
    ending.cons c = .unterminated ↔ ending = .unterminated := by
  cases ending <;> simp [cons]

end StringEnd

namespace Text

def IsWord (t : Text) : Prop := ∃ kind : TokenKind, kind.isWord = true ∧ kind.Spells t

/-- More characters, or none, make a word of the lexical grammar out of this. -/
def BeginsWord (t : Text) : Prop :=
  ∃ (kind : TokenKind) (rest : Text), kind.isWord = true ∧ kind.Spells (t ++ rest)

theorem beginsWord_of_spells {kind : TokenKind} {t : Text} (word : kind.isWord = true)
    (spelled : kind.Spells t) : t.BeginsWord := by
  refine ⟨kind, [], word, ?_⟩
  rwa [List.append_nil]

theorem BeginsWord.of_append {t rest : Text} (begins : (t ++ rest).BeginsWord) : t.BeginsWord := by
  obtain ⟨kind, later, word, spelled⟩ := begins
  rw [List.append_assoc] at spelled
  exact ⟨kind, rest ++ later, word, spelled⟩

theorem word_append_afterWord (t : Text) : t.word ++ t.afterWord = t := List.takeWhile_append_dropWhile

theorem inside_word (t : Text) : ∀ c ∈ t.word, c.isDelimiter = false := by
  intro c member
  have inside := List.all_eq_true.mp List.all_takeWhile c member
  simpa using inside

theorem word_append_of_ended {t : Text} (ended : t.afterWord = []) (more : Text) :
    (t ++ more).word = t ++ more.word := by
  have whole := word_append_afterWord t
  rw [ended, List.append_nil] at whole
  have every : ∀ d ∈ t, (!d.isDelimiter) = true := by
    rw [← whole]
    simpa using inside_word t
  exact List.takeWhile_append_of_pos every

theorem word_append_of_stopped {t : Text} (stopped : t.afterWord ≠ []) (more : Text) :
    (t ++ more).word = t.word ∧ (t ++ more).afterWord = t.afterWord ++ more := by
  have delimited : Delimited (t.afterWord ++ more) :=
    (delimited_afterWord t).append fun ended => absurd ended stopped
  have split := word_append (inside_word t) delimited
  rwa [← List.append_assoc, word_append_afterWord] at split

/-- The first character of a string ends it, legally or not, or leaves its end to what follows. -/
theorem stringEnd_cons_cases (escaped : Bool) (c : CodePoint) :
    (∀ rest, stringEnd escaped (c :: rest) = .broken) ∨
    (∀ rest, stringEnd escaped (c :: rest) = .closed []) ∨
    c ≠ CodePoint.newline ∧
      ∃ behind, ∀ rest, stringEnd escaped (c :: rest) = (stringEnd behind rest).cons c := by
  by_cases newline : c = CodePoint.newline
  · exact .inl fun rest => if_pos newline
  cases escaped with
  | true =>
    refine .inr (.inr ⟨newline, false, fun rest => ?_⟩)
    rw [stringEnd, if_neg newline, if_pos rfl]
  | false =>
    by_cases quote : c = CodePoint.doubleQuote
    · refine .inr (.inl fun rest => ?_)
      rw [stringEnd, if_neg newline, if_neg Bool.false_ne_true, if_pos quote]
    · refine .inr (.inr ⟨newline, c = CodePoint.backslash, fun rest => ?_⟩)
      rw [stringEnd, if_neg newline, if_neg Bool.false_ne_true, if_neg quote]

theorem stringEnd_append_of_broken {escaped : Bool} {t : Text}
    (broken : stringEnd escaped t = .broken) (more : Text) : stringEnd escaped (t ++ more) = .broken := by
  induction t generalizing escaped with
  | nil => cases broken
  | cons c t ih =>
    rcases stringEnd_cons_cases escaped c with always | closed | ⟨_, behind, step⟩
    · exact always (t ++ more)
    · rw [closed] at broken
      cases broken
    · rw [step, StringEnd.cons_eq_broken] at broken
      rw [List.cons_append, step, ih broken]
      rfl

/-- A string that stays open at the end of the text is closed by more text. -/
theorem exists_closed_of_unterminated {escaped : Bool} {t : Text}
    (opened : stringEnd escaped t = .unterminated) :
    ∃ more body, stringEnd escaped (t ++ more) = .closed body ∧
      t ++ more = body ++ [CodePoint.doubleQuote] := by
  induction t generalizing escaped with
  | nil =>
    -- Behind a backslash the first quote is a part of the body.
    cases escaped with
    | false => exact ⟨[CodePoint.doubleQuote], [], rfl, rfl⟩
    | true =>
      exact ⟨[CodePoint.doubleQuote, CodePoint.doubleQuote], [CodePoint.doubleQuote], rfl, rfl⟩
  | cons c t ih =>
    rcases stringEnd_cons_cases escaped c with always | closed | ⟨_, behind, step⟩
    · rw [always] at opened
      cases opened
    · rw [closed] at opened
      cases opened
    · rw [step, StringEnd.cons_eq_unterminated] at opened
      obtain ⟨more, body, closed, written⟩ := ih opened
      refine ⟨more, c :: body, ?_, ?_⟩
      · rw [List.cons_append, step, closed]
        rfl
      · rw [List.cons_append, written, List.cons_append]

end Text

namespace TokenKind

theorem Spells.of_append_number {c : CodePoint} {t rest : Text}
    (spelled : number.Spells (c :: (t ++ rest))) : Text.IsWord (c :: t) := by
  obtain ⟨sign, digits, same, signed, _, digit⟩ := spelled
  -- Behind a sign the rest of the beginning is made of digits; a sign alone is a symbol.
  have behindSign : ∀ mark : CodePoint, [mark] = Text.ofString "+" ∨ [mark] = Text.ofString "-" →
      sign = [mark] → Text.IsWord (c :: t) := by
    intro mark signs only
    subst only
    obtain ⟨rfl, rfl⟩ := List.cons.inj same
    cases t with
    | nil =>
      refine ⟨.symbol, rfl, ?_⟩
      rcases signs with plus | minus
      · exact .inl plus
      · exact .inr (.inl minus)
    | cons d t =>
      refine ⟨.number, rfl, [c], d :: t, rfl, .inr signs, nofun, ?_⟩
      intro e member
      exact digit e (List.mem_append_left rest member)
  rcases signed with rfl | plus | minus
  · refine ⟨.number, rfl, [], c :: t, rfl, .inl rfl, nofun, ?_⟩
    intro e member
    rw [List.nil_append] at same
    rw [← same] at digit
    exact digit e (List.mem_append_left rest member)
  · exact behindSign _ (.inl rfl) plus
  · exact behindSign _ (.inr rfl) minus

theorem Spells.of_append_symbol {c : CodePoint} {t rest : Text}
    (spelled : symbol.Spells (c :: (t ++ rest))) :
    Text.IsWord (c :: t) ∨ c :: t = Text.ofString ".." := by
  rcases spelled with plus | minus | dots | ⟨initial, subsequents, same, first, others⟩
  · obtain ⟨rfl, nothing⟩ := List.cons.inj plus
    cases (List.append_eq_nil_iff.mp nothing).1
    exact .inl ⟨.symbol, rfl, .inl rfl⟩
  · obtain ⟨rfl, nothing⟩ := List.cons.inj minus
    cases (List.append_eq_nil_iff.mp nothing).1
    exact .inl ⟨.symbol, rfl, .inr (.inl rfl)⟩
  · obtain ⟨rfl, dots⟩ := List.cons.inj dots
    match t, dots with
    | [], _ => exact .inl ⟨.dot, rfl, rfl⟩
    | [d], dots =>
      cases dots
      exact .inr rfl
    | [d, e], dots =>
      cases dots
      exact .inl ⟨.symbol, rfl, .inr (.inr (.inl rfl))⟩
    | d :: e :: f :: t, dots => cases dots
  · obtain ⟨rfl, rfl⟩ := List.cons.inj same
    refine .inl ⟨.symbol, rfl, .inr (.inr (.inr ⟨c, t, rfl, first, ?_⟩))⟩
    intro e member
    exact others e (List.mem_append_left rest member)

theorem Spells.of_append_boolean {c : CodePoint} {t rest : Text}
    (spelled : boolean.Spells (c :: (t ++ rest))) :
    Text.IsWord (c :: t) ∨ c :: t = Text.ofString "#" := by
  have hash : ∀ mark : CodePoint, c :: (t ++ rest) = [CodePoint.ofChar '#', mark] →
      [CodePoint.ofChar '#', mark] = Text.ofString "#t" ∨
        [CodePoint.ofChar '#', mark] = Text.ofString "#f" →
      Text.IsWord (c :: t) ∨ c :: t = Text.ofString "#" := by
    intro mark same legal
    obtain ⟨rfl, same⟩ := List.cons.inj same
    match t, same with
    | [], _ => exact .inr rfl
    | [d], same =>
      cases same
      exact .inl ⟨.boolean, rfl, legal⟩
    | d :: e :: t, same => cases same
  rcases spelled with true | false
  · exact hash _ true (.inl rfl)
  · exact hash _ false (.inr rfl)

/-- A beginning of a word is a word itself, but for two that are too short. -/
theorem Spells.of_append {kind : TokenKind} {t rest : Text} (spelled : kind.Spells (t ++ rest))
    (word : kind.isWord = true) (nonempty : t ≠ []) :
    t.IsWord ∨ t = Text.ofString ".." ∨ t = Text.ofString "#" := by
  obtain ⟨c, t, rfl⟩ := List.exists_cons_of_ne_nil nonempty
  cases kind with
  | number => exact .inl (of_append_number spelled)
  | symbol =>
    rcases of_append_symbol spelled with whole | dots
    · exact .inl whole
    · exact .inr (.inl dots)
  | boolean =>
    rcases of_append_boolean spelled with whole | hash
    · exact .inl whole
    · exact .inr (.inr hash)
  | dot =>
    obtain ⟨rfl, nothing⟩ := List.cons.inj spelled
    cases (List.append_eq_nil_iff.mp nothing).1
    exact .inl ⟨.dot, rfl, rfl⟩
  | opening => cases word
  | closing => cases word
  | string => cases word
  | quote => cases word

end TokenKind

namespace Lexeme

theorem ofWord_of_not_beginsWord {t : Text} (hopeless : ¬ t.BeginsWord) (isLast : Bool) :
    ofWord t isLast = .fault .unknown t := by
  have noWord : ∀ {kind : TokenKind}, kind.isWord = true → ¬ kind.Spells t :=
    fun word spelled => hopeless (Text.beginsWord_of_spells word spelled)
  have notClipped : ¬ (t = Text.ofString ".." ∨ t = Text.ofString "#") := by
    rintro (rfl | rfl)
    · exact hopeless ⟨.symbol, Text.ofString ".", rfl, .inr (.inr (.inl rfl))⟩
    · exact hopeless ⟨.boolean, Text.ofString "t", rfl, .inl rfl⟩
  have notNumber := mt (Text.spellsNumber_iff t).mp (noWord rfl)
  have notSymbol := mt (Text.spellsSymbol_iff t).mp (noWord rfl)
  have notBoolean := mt (Text.spellsBoolean_iff t).mp (noWord rfl)
  have notDot := mt (Text.spellsDot_iff t).mp (noWord rfl)
  rw [ofWord, if_neg notNumber, if_neg notSymbol, if_neg notBoolean, if_neg notDot, if_neg]
  intro clipped
  rw [Bool.and_eq_true, Bool.or_eq_true, decide_eq_true_eq, decide_eq_true_eq] at clipped
  exact notClipped clipped.2

/-- At the end of a text a word is unknown only if nothing can make it known. -/
theorem not_beginsWord_of_unknown {t text : Text} (nonempty : t ≠ [])
    (unknown : ofWord t true = .fault .unknown text) : ¬ t.BeginsWord := by
  rintro ⟨kind, rest, word, spelled⟩
  rcases spelled.of_append word nonempty with ⟨shorter, word, spelled⟩ | rfl | rfl
  · rw [ofWord_of_spells spelled word] at unknown
    cases unknown
  · cases unknown
  · cases unknown

theorem fault_of_ofString {rest text : Text} {cause : ScanCause}
    (fault : ofString rest = .fault cause text) :
    cause = .unterminatedString ∧ text = CodePoint.doubleQuote :: rest ∧
      Text.stringEnd false rest = .unterminated ∨
    cause = .unknown ∧ text = [CodePoint.doubleQuote] ∧ Text.stringEnd false rest = .broken := by
  unfold ofString at fault
  split at fault
  · cases fault
  · next opened =>
    cases fault
    exact .inl ⟨rfl, rfl, opened⟩
  · next broken =>
    cases fault
    exact .inr ⟨rfl, rfl, broken⟩

theorem fault_of_ofWord {word text : Text} {isLast : Bool} {cause : ScanCause}
    (fault : ofWord word isLast = .fault cause text) :
    cause = .clipped ∧ isLast = true ∧ (word = Text.ofString ".." ∨ word = Text.ofString "#") ∨
    cause = .unknown ∧ text = word := by
  unfold ofWord at fault
  split at fault
  · cases fault
  split at fault
  · cases fault
  split at fault
  · cases fault
  split at fault
  · cases fault
  split at fault
  · next clipped =>
    cases fault
    rw [Bool.and_eq_true, Bool.or_eq_true, decide_eq_true_eq, decide_eq_true_eq] at clipped
    exact .inl ⟨rfl, clipped⟩
  · cases fault
    exact .inr ⟨rfl, rfl⟩

theorem first?_fault_cases {t text : Text} {cause : ScanCause}
    (found : first? t = some (.fault cause text)) :
    (∃ rest, t = CodePoint.doubleQuote :: rest ∧ ofString rest = .fault cause text) ∨
    ∃ c rest, t = c :: rest ∧ c.isDelimiter = false ∧ c ≠ CodePoint.apostrophe ∧
      ofWord t.word t.afterWord.isEmpty = .fault cause text := by
  cases t with
  | nil => cases found
  | cons c rest =>
    simp only [first?] at found
    split at found
    · cases found
    next noOpening =>
    split at found
    · cases found
    next noClosing =>
    split at found
    · cases found
    next noApostrophe =>
    split at found
    · next quote =>
      subst quote
      exact .inl ⟨rest, rfl, Option.some.inj found⟩
    next noQuote =>
    split at found
    · cases found
    · next noLayout =>
      have inside : c.isDelimiter = false := by simp_all [CodePoint.isDelimiter]
      exact .inr ⟨c, rest, rfl, inside, noApostrophe, Option.some.inj found⟩

/-- An unknown piece stays unknown, whatever follows it. -/
theorem first?_append_of_unknown {t text : Text} (found : first? t = some (.fault .unknown text))
    (more : Text) : ∃ longer, first? (t ++ more) = some (.fault .unknown longer) := by
  rcases first?_fault_cases found with ⟨rest, rfl, unknown⟩ | ⟨c, rest, rfl, inside, other, unknown⟩
  · rcases fault_of_ofString unknown with ⟨other, _⟩ | ⟨_, _, broken⟩
    · cases other
    have broken := Text.stringEnd_append_of_broken broken more
    refine ⟨[CodePoint.doubleQuote], ?_⟩
    have first : first? (CodePoint.doubleQuote :: (rest ++ more)) = some (ofString (rest ++ more)) := rfl
    rw [List.cons_append, first, ofString, broken]
  · rw [List.cons_append, first?_of_inside inside other, ← List.cons_append]
    by_cases ended : Text.afterWord (c :: rest) = []
    · -- The word reaches the end of the text, so what follows may make it longer.
      have whole := Text.word_append_afterWord (c :: rest)
      rw [ended, List.append_nil] at whole
      rw [whole, ended] at unknown
      have hopeless := not_beginsWord_of_unknown (List.cons_ne_nil c rest) unknown
      rw [Text.word_append_of_ended ended,
        ofWord_of_not_beginsWord (mt Text.BeginsWord.of_append hopeless)]
      exact ⟨_, rfl⟩
    · obtain ⟨word, behind⟩ := Text.word_append_of_stopped ended more
      obtain ⟨d, later, stops⟩ := List.exists_cons_of_ne_nil ended
      rw [stops] at unknown behind
      rw [word, behind]
      exact ⟨text, congrArg some unknown⟩

/-- Where a text ends too early, what stands at its end can be made a token. -/
theorem exists_spelling_of_unexpectedEnd {t text : Text} {cause : ScanCause}
    (found : first? t = some (.fault cause text)) (early : cause.kind = .unexpectedEnd) :
    ∃ more terminal, t ++ more = Terminal.spelling terminal ∧ terminal.WellSpelled := by
  rcases first?_fault_cases found with ⟨rest, rfl, fault⟩ | ⟨c, rest, rfl, _, _, fault⟩
  · rcases fault_of_ofString fault with ⟨_, _, opened⟩ | ⟨rfl, _, _⟩
    · obtain ⟨more, body, closed, written⟩ := Text.exists_closed_of_unterminated opened
      refine ⟨more, ⟨.string, body⟩, ?_, Text.isBody_of_stringEnd closed⟩
      rw [List.cons_append, written]
      rfl
    · cases early
  · rcases fault_of_ofWord fault with ⟨_, ended, short⟩ | ⟨rfl, _⟩
    · have whole := Text.word_append_afterWord (c :: rest)
      rw [List.isEmpty_iff.mp ended, List.append_nil] at whole
      rw [whole] at short
      rcases short with dots | hash
      · rw [dots]
        exact ⟨Text.ofString ".", ⟨.symbol, Text.ofString "..."⟩, rfl, .inr (.inr (.inl rfl))⟩
      · rw [hash]
        exact ⟨Text.ofString "t", ⟨.boolean, Text.ofString "#t"⟩, rfl, .inl rfl⟩
    · cases early

end Lexeme

end SchemeSyntax
