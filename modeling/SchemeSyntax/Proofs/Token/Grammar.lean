import SchemeSyntax.Token.Branch
import SchemeSyntax.Proofs.Token.Completion
import SchemeSyntax.Proofs.Token.Pattern

namespace SchemeSyntax

theorem CodePoint.isDelimiter_iff_mem (c : CodePoint) :
    c.isDelimiter = true ↔ c.isSpace = true ∨ c ∈ Text.ofString "()\";" := by
  simp only [isDelimiter, semicolon, leftParen, rightParen, doubleQuote, Text.ofString]
  grind

namespace Text

theorem IsBody.of_append {body rest : Text} (isBody : body.IsBody) (longer : IsBody (body ++ rest)) :
    rest.IsBody := by
  induction isBody with
  | nil => exact longer
  | @plain c body _ noBackslash _ _ ih =>
    generalize same : c :: body ++ rest = t at longer
    cases longer with
    | nil => cases same
    | plain _ _ _ later =>
      obtain ⟨_, rfl⟩ := List.cons.inj same
      exact ih later
    | escaped _ _ => exact absurd (List.cons.inj same).1 noBackslash
  | @escaped c body _ _ ih =>
    generalize same : CodePoint.backslash :: c :: body ++ rest = t at longer
    cases longer with
    | nil => cases same
    | plain _ noBackslash _ _ => exact absurd (List.cons.inj same).1.symm noBackslash
    | escaped _ later =>
      obtain ⟨_, rfl⟩ := List.cons.inj (List.cons.inj same).2
      exact ih later

theorem not_isBody_backslash : ¬ IsBody [CodePoint.backslash] := by
  intro isBody
  cases isBody with
  | plain _ noBackslash _ _ => exact noBackslash rfl

/-- A backslash at the end of a text is not in doubt: either it is escaped itself or it is none of the
    body. -/
theorem IsBody.unique {body other ending otherEnding : Text} (isBody : body.IsBody)
    (otherBody : other.IsBody) (stops : ending = [] ∨ ending = [CodePoint.backslash])
    (otherStops : otherEnding = [] ∨ otherEnding = [CodePoint.backslash])
    (same : body ++ ending = other ++ otherEnding) : body = other := by
  rcases stops with rfl | rfl
  · rcases otherStops with rfl | rfl
    · rwa [List.append_nil, List.append_nil] at same
    · rw [List.append_nil] at same
      rw [same] at isBody
      exact absurd (otherBody.of_append isBody) not_isBody_backslash
  · rcases otherStops with rfl | rfl
    · rw [List.append_nil] at same
      rw [← same] at otherBody
      exact absurd (isBody.of_append otherBody) not_isBody_backslash
    · exact List.append_cancel_right same

/-- A body that no quote ends. At its end a backslash may wait for the character that it escapes. -/
def IsOpen (t : Text) : Prop :=
  ∃ body ending : Text, t = body ++ ending ∧ body.IsBody ∧
    (ending = [] ∨ ending = [CodePoint.backslash])

theorem IsOpen.stringEnd {t : Text} (opened : t.IsOpen) : stringEnd false t = .unterminated := by
  obtain ⟨body, ending, rfl, isBody, stops⟩ := opened
  have cut : Text.stringEnd false ending = .unterminated := by
    rcases stops with rfl | rfl
    · rfl
    · rfl
  rw [stringEnd_append isBody, cut, StringEnd.foldr_cons_unterminated]

theorem isOpen_of_unterminated {escaped : Bool} {t : Text}
    (opened : stringEnd escaped t = .unterminated) :
    if escaped then IsOpen (CodePoint.backslash :: t) else IsOpen t := by
  induction t generalizing escaped with
  | nil =>
    cases escaped with
    | false => exact ⟨[], [], rfl, .nil, .inl rfl⟩
    | true => exact ⟨[], [CodePoint.backslash], rfl, .nil, .inr rfl⟩
  | cons c t ih =>
    simp only [stringEnd] at opened
    split at opened
    · cases opened
    next noNewline =>
    split at opened
    · next behind =>
      obtain ⟨body, ending, rfl, isBody, stops⟩ := ih (StringEnd.cons_eq_unterminated.mp opened)
      rw [behind]
      exact ⟨CodePoint.backslash :: c :: body, ending, rfl, .escaped noNewline isBody, stops⟩
    next plain =>
    split at opened
    · cases opened
    next noQuote =>
    have later := ih (StringEnd.cons_eq_unterminated.mp opened)
    simp only [plain]
    by_cases backslash : c = CodePoint.backslash
    · simp only [backslash, decide_true, if_true] at later
      rwa [backslash]
    · simp only [backslash, decide_false] at later
      obtain ⟨body, ending, rfl, isBody, stops⟩ := later
      exact ⟨c :: body, ending, rfl, .plain noQuote backslash noNewline isBody, stops⟩

/-- What is layout outside of a comment is a part of the comment within one. -/
theorem layout_prefix_comment (t : Text) : layout false t <+: layout true t := by
  induction t with
  | nil => exact List.prefix_rfl
  | cons c t ih =>
    simp only [layout, Bool.false_eq_true, if_false, if_true]
    split
    · by_cases newline : c = CodePoint.newline
      · simp [newline]
      · simp only [ne_eq, newline, not_false_eq_true, decide_true]
        exact List.cons_prefix_cons.mpr ⟨rfl, ih⟩
    split
    · next comment =>
      subst comment
      exact List.prefix_rfl
    · exact List.nil_prefix

theorem layout_commentLine (t : Text) : layout false (CodePoint.semicolon :: t) =
    CodePoint.semicolon :: (t.takeWhile fun c => c ≠ CodePoint.newline) ++
      layout false (t.dropWhile fun c => c ≠ CodePoint.newline) := by
  have sameLine : CodePoint.newline ∉ t.takeWhile fun c => c ≠ CodePoint.newline := by
    intro member
    have other := List.all_eq_true.mp List.all_takeWhile _ member
    exact of_decide_eq_true other rfl
  have ended : LineEnds (t.dropWhile fun c => c ≠ CodePoint.newline) := by
    intro c first
    have stopped := List.head?_dropWhile_not (fun c : CodePoint => decide (c ≠ CodePoint.newline)) t
    simp_all
  have noSpace : CodePoint.semicolon.isSpace = false := by decide
  have whole := layout_comment sameLine ended
  rw [List.takeWhile_append_dropWhile] at whole
  simp only [layout, Bool.false_eq_true, if_false, noSpace, if_true, whole, List.cons_append]

end Text

namespace Pattern

theorem takes_sign {taken rest : Text} :
    sign.Takes taken rest ↔ taken = Text.ofString "+" ∨ taken = Text.ofString "-" := by
  simp only [sign, Takes, Text.ofString]
  constructor
  · intro taking
    obtain ⟨c, rfl, accepted⟩ := taking
    simpa using accepted
  · intro signed
    rcases signed with rfl | rfl
    · exact ⟨_, rfl, by decide⟩
    · exact ⟨_, rfl, by decide⟩

theorem takes_number {taken rest : Text} :
    number.Takes taken rest ↔ TokenKind.number.Spells taken := by
  constructor
  · intro taking
    obtain ⟨left, right, rfl, signed, digits⟩ := taking
    refine ⟨left, right, rfl, ?_, takes_atLeastOne_one.mp digits⟩
    rcases signed with signed | nothing
    · exact .inr (takes_sign.mp signed)
    · exact .inl nothing
  · intro spelled
    obtain ⟨left, right, rfl, signed, digits⟩ := spelled
    refine ⟨left, right, rfl, ?_, takes_atLeastOne_one.mpr digits⟩
    rcases signed with nothing | signed
    · exact .inr nothing
    · exact .inl (takes_sign.mpr signed)

theorem takes_initial {taken rest : Text} :
    initial.Takes taken rest ↔ ∃ c, taken = [c] ∧ c.isInitial = true := by
  simp only [initial, Takes, CodePoint.isInitial, Bool.or_eq_true, and_or_left, exists_or]

theorem takes_subsequent {taken rest : Text} :
    subsequent.Takes taken rest ↔ ∃ c, taken = [c] ∧ c.isSubsequent = true := by
  have classes : ∀ c : CodePoint, c.isSubsequent = true ↔
      c.isDigit = true ∨ c.isInitial = true ∨ decide (c ∈ Text.ofString "+.@-") = true := by
    intro c
    simp only [CodePoint.isSubsequent, CodePoint.hyphen, Text.ofString]
    grind
  simp only [classes, and_or_left, exists_or]
  exact or_congr Iff.rfl (or_congr takes_initial Iff.rfl)

theorem takes_symbol {taken rest : Text} :
    symbol.Takes taken rest ↔ TokenKind.symbol.Spells taken := by
  constructor
  · intro taking
    rcases taking with ⟨left, right, rfl, first, others⟩ | signed | dots
    · obtain ⟨c, rfl, isInitial⟩ := takes_initial.mp first
      exact .inr (.inr (.inr ⟨c, right, rfl, isInitial, (takes_many takes_subsequent).mp others⟩))
    · rcases takes_sign.mp signed with plus | minus
      · exact .inl plus
      · exact .inr (.inl minus)
    · exact .inr (.inr (.inl (takes_literal.mp dots)))
  · intro spelled
    rcases spelled with plus | minus | dots | ⟨c, others, rfl, isInitial, isSubsequent⟩
    · exact .inr (.inl (takes_sign.mpr (.inl plus)))
    · exact .inr (.inl (takes_sign.mpr (.inr minus)))
    · exact .inr (.inr (takes_literal.mpr dots))
    · exact .inl ⟨[c], others, rfl, takes_initial.mpr ⟨c, rfl, isInitial⟩,
        (takes_many takes_subsequent).mpr isSubsequent⟩

theorem takes_boolean {taken rest : Text} :
    boolean.Takes taken rest ↔ TokenKind.boolean.Spells taken := by
  simp only [boolean, Takes, TokenKind.Spells, Text.ofString]
  constructor
  · intro taking
    obtain ⟨_, _, rfl, ⟨c, rfl, hash⟩, d, rfl, letter⟩ := taking
    cases of_decide_eq_true hash
    simpa using letter
  · intro spelled
    rcases spelled with rfl | rfl
    · exact ⟨[_], [_], rfl, ⟨_, rfl, by decide⟩, _, rfl, by decide⟩
    · exact ⟨[_], [_], rfl, ⟨_, rfl, by decide⟩, _, rfl, by decide⟩

theorem takes_stringBody {taken rest : Text} : stringBody.Takes taken rest ↔ taken.IsBody := by
  have plain : ∀ c : CodePoint, decide (c ∉ Text.ofString "\"\\\n") = true ↔
      c ≠ CodePoint.doubleQuote ∧ c ≠ CodePoint.backslash ∧ c ≠ CodePoint.newline := by
    intro c
    simp [Text.ofString, CodePoint.doubleQuote, CodePoint.backslash, CodePoint.newline]
  constructor
  · intro taking
    induction taking with
    | nil => exact .nil
    | cons first _ isBody =>
      rcases first with ⟨c, rfl, accepted⟩ | ⟨_, _, rfl, ⟨c, rfl, backslash⟩, d, rfl, accepted⟩
      · obtain ⟨noQuote, noBackslash, noNewline⟩ := (plain c).mp accepted
        exact .plain noQuote noBackslash noNewline isBody
      · cases of_decide_eq_true backslash
        exact .escaped (of_decide_eq_true accepted) isBody
  · intro isBody
    induction isBody with
    | nil => exact .nil
    | @plain c later noQuote noBackslash noNewline _ taking =>
      have first := (plain c).mpr ⟨noQuote, noBackslash, noNewline⟩
      exact Rounds.cons (.inl ⟨c, rfl, first⟩) taking
    | @escaped c later noNewline _ taking =>
      have backslash : (one (· = CodePoint.backslash)).Takes [CodePoint.backslash]
          ([c] ++ (later ++ rest)) := ⟨_, rfl, decide_eq_true rfl⟩
      exact Rounds.cons (.inr ⟨_, [c], rfl, backslash, c, rfl, decide_eq_true noNewline⟩) taking

theorem takes_openEnd {taken rest : Text} :
    openEnd.Takes taken rest ↔ (taken = [] ∨ taken = [CodePoint.backslash]) ∧ rest = [] := by
  constructor
  · intro taking
    obtain ⟨_, _, rfl, ⟨c, rfl, backslash⟩ | rfl, rfl, rfl⟩ := taking
    · cases of_decide_eq_true backslash
      exact ⟨.inr rfl, rfl⟩
    · exact ⟨.inl rfl, rfl⟩
  · intro stops
    obtain ⟨rfl | rfl, rfl⟩ := stops
    · exact ⟨[], [], rfl, .inr rfl, rfl, rfl⟩
    · exact ⟨[CodePoint.backslash], [], rfl, .inl ⟨_, rfl, decide_eq_true rfl⟩, rfl, rfl⟩

theorem delimited_of_takes {taken rest : Text} (taking : delimiter.Takes taken rest) :
    (taken ++ rest).Delimited := by
  intro c first
  rw [CodePoint.isDelimiter_iff_mem]
  rcases taking with (⟨d, rfl, space⟩ | ⟨_, _, rfl, ⟨d, rfl, comment⟩, _⟩) | ⟨d, rfl, mark⟩ | ⟨rfl, rfl⟩
  · cases first
    exact .inl space
  · cases first
    cases of_decide_eq_true comment
    exact .inr (by decide)
  · cases first
    exact .inr (of_decide_eq_true mark)
  · cases first

theorem exists_delimiter {rest : Text} (stop : rest.Delimited) :
    ∃ taken later, rest = taken ++ later ∧ delimiter.Takes taken later := by
  cases rest with
  | nil => exact ⟨[], [], rfl, .inr (.inr ⟨rfl, rfl⟩)⟩
  | cons c rest =>
    refine ⟨[c], rest, rfl, ?_⟩
    rcases c.isDelimiter_iff_mem.mp (stop c rfl) with space | mark
    · exact .inl (.inl ⟨c, rfl, space⟩)
    · exact .inr (.inl ⟨c, rfl, decide_eq_true mark⟩)

/-- A search takes layout up to where it ends; where none stands it takes nothing. -/
theorem takings_whitespace_cases (t : Text) :
    (whitespace.takings t = [] ∧ Text.layout false t = []) ∨
    ∃ first rest, (whitespace.takings t).head? = some (first, rest) ∧ first ≠ [] ∧
      t = first ++ rest ∧ Text.layout false t = first ++ Text.layout false rest := by
  cases t with
  | nil => exact .inl ⟨rfl, rfl⟩
  | cons c t =>
    by_cases space : c.isSpace = true
    · refine .inr ⟨[c], t, ?_, List.cons_ne_nil c [], rfl, ?_⟩
      · simp [whitespace, takings, space]
      · simp [Text.layout, space]
    by_cases comment : c = CodePoint.semicolon
    · subst comment
      have marked : ((one (· = CodePoint.semicolon)).takings (CodePoint.semicolon :: t)).head? =
          some ([CodePoint.semicolon], t) := rfl
      have line : ((many (one (· ≠ CodePoint.newline))).takings t).head? = some
          (t.takeWhile fun c => c ≠ CodePoint.newline, t.dropWhile fun c => c ≠ CodePoint.newline) :=
        head?_rounds_one (Nat.le_refl _)
      have whole := head?_andThen marked line
      refine .inr ⟨_, _, whole, List.cons_ne_nil _ _, ?_, ?_⟩
      · simp
      · exact Text.layout_commentLine t
    · refine .inl ⟨?_, ?_⟩
      · simp [whitespace, Pattern.comment, takings, andThen, space, comment]
      · simp [Text.layout, space, comment]

theorem head?_rounds_whitespace {n : Nat} {t : Text} (enough : t.length ≤ n) :
    ∃ rest, (rounds whitespace.takings n t).head? = some (Text.layout false t, rest) := by
  induction n generalizing t with
  | zero =>
    cases List.eq_nil_of_length_eq_zero (Nat.le_zero.mp enough)
    exact ⟨[], rfl⟩
  | succ n ih =>
    rcases takings_whitespace_cases t with ⟨nothing, ended⟩ | ⟨first, rest, here, nonempty, rfl, layout⟩
    · rw [head?_rounds_nil nothing, ended]
      exact ⟨t, rfl⟩
    · have shorter := List.length_pos_iff.mpr nonempty
      rw [List.length_append] at enough
      obtain ⟨later, there⟩ := ih (t := rest) (by omega)
      rw [head?_rounds_cons here there, layout]
      exact ⟨later, rfl⟩

/-- The run of white space that a search comes upon first is all the layout that stands there. -/
theorem head?_takings_whitespace {t : Text} (begins : Text.layout false t ≠ []) :
    ∃ rest, ((atLeastOne whitespace).takings t).head? = some (Text.layout false t, rest) := by
  rcases takings_whitespace_cases t with ⟨_, ended⟩ | ⟨first, rest, here, _, _, layout⟩
  · exact absurd ended begins
  · obtain ⟨later, there⟩ := head?_rounds_whitespace (Nat.le_refl rest.length)
    have goesOn : ((many whitespace).takings rest).head? = some (Text.layout false rest, later) := there
    refine ⟨later, ?_⟩
    rw [atLeastOne, takings, head?_andThen here goesOn, layout]

/-- No run of white space is longer than the layout that stands there. -/
theorem prefix_layout_of_takes {taken rest : Text} (taking : (many whitespace).Takes taken rest) :
    taken <+: Text.layout false (taken ++ rest) := by
  induction taking with
  | nil => exact List.nil_prefix
  | @cons taken more rest first _ ih =>
    rcases first with ⟨c, rfl, space⟩ | ⟨_, body, rfl, ⟨c, rfl, comment⟩, others⟩
    · simp only [List.cons_append, List.nil_append, Text.layout, Bool.false_eq_true, if_false, space,
        if_true]
      exact List.cons_prefix_cons.mpr ⟨rfl, ih⟩
    · cases of_decide_eq_true comment
      have sameLine : CodePoint.newline ∉ body := by
        intro member
        exact of_decide_eq_true ((takes_many Iff.rfl).mp others _ member) rfl
      have noSpace : CodePoint.semicolon.isSpace = false := by decide
      simp only [List.cons_append, List.nil_append, List.append_assoc, Text.layout,
        Bool.false_eq_true, if_false, noSpace, if_true, Text.layout_comment_append sameLine]
      exact List.cons_prefix_cons.mpr ⟨rfl,
        List.prefix_append_right_inj body |>.mpr (ih.trans (Text.layout_prefix_comment _))⟩

theorem first?_unknown (t : Text) : unknown.first? t = some t.word := by
  have inside : (fun c : CodePoint => !c.isSpace && decide (c ∉ Text.ofString "()\";")) =
      fun c => !c.isDelimiter := by
    funext c
    rw [Bool.eq_iff_iff, Bool.not_eq_true', ← Bool.not_eq_true c.isDelimiter, c.isDelimiter_iff_mem]
    simp
  rw [unknown, first?_many_one, inside, Text.word]

end Pattern

end SchemeSyntax
