import SchemeSyntax.Token.Lexeme

namespace SchemeSyntax

namespace CodePoint

theorem isDigit_iff (c : CodePoint) : c.isDigit = true ↔ 48 ≤ c.val ∧ c.val ≤ 57 := by
  simp [isDigit]

theorem isSign_iff (c : CodePoint) : c.isSign = true ↔ c.val = 43 ∨ c.val = 45 := by
  simp [isSign, hyphen, CodePoint.ext_iff]

theorem isDelimiter_iff (c : CodePoint) :
    c.isDelimiter = true ↔
      9 ≤ c.val ∧ c.val ≤ 13 ∨ c.val = 32 ∨ c.val = 59 ∨ c.val = 40 ∨ c.val = 41 ∨ c.val = 34 := by
  simp [isDelimiter, isSpace, semicolon, leftParen, rightParen, doubleQuote, CodePoint.ext_iff,
    or_assoc]

theorem isInitial_iff (c : CodePoint) :
    c.isInitial = true ↔
      65 ≤ c.val ∧ c.val ≤ 90 ∨ 97 ≤ c.val ∧ c.val ≤ 122 ∨ c.val = 33 ∨ 36 ≤ c.val ∧ c.val ≤ 38 ∨
        c.val = 42 ∨ c.val = 47 ∨ c.val = 58 ∨ 60 ≤ c.val ∧ c.val ≤ 63 ∨ 94 ≤ c.val ∧ c.val ≤ 95 ∨
          c.val = 126 := by
  simp [isInitial, isLetter, Text.ofString, CodePoint.ext_iff]
  omega

theorem isSubsequent_iff (c : CodePoint) :
    c.isSubsequent = true ↔
      c.isInitial = true ∨ c.isDigit = true ∨ c.val = 43 ∨ c.val = 45 ∨ c.val = 46 ∨ c.val = 64 := by
  simp only [isSubsequent, Bool.or_eq_true, decide_eq_true_eq]
  simp [hyphen, CodePoint.ext_iff, or_assoc]

end CodePoint

/-- A token without its place. -/
structure Terminal where
  kind : TokenKind
  text : Text
  deriving DecidableEq, Repr

def Token.terminal (token : Token) : Terminal := ⟨token.kind, token.text⟩

def Terminal.spelling (terminal : Terminal) : Text := terminal.kind.spell terminal.text

/-- The units of a string body: a character that is neither a quote nor a backslash, or a backslash
    and any character. None of them is a newline. -/
inductive Text.IsBody : Text → Prop
  | nil : IsBody []
  | plain {c : CodePoint} {rest : Text} (noQuote : c ≠ CodePoint.doubleQuote)
      (noBackslash : c ≠ CodePoint.backslash) (noNewline : c ≠ CodePoint.newline)
      (later : IsBody rest) : IsBody (c :: rest)
  | escaped {c : CodePoint} {rest : Text} (noNewline : c ≠ CodePoint.newline)
      (later : IsBody rest) : IsBody (CodePoint.backslash :: c :: rest)

theorem Text.IsBody.sameLine {t : Text} (isBody : t.IsBody) : CodePoint.newline ∉ t := by
  induction isBody with
  | nil => exact List.not_mem_nil
  | plain _ _ noNewline _ ih =>
    intro member
    rcases List.mem_cons.mp member with same | member
    · exact noNewline same.symm
    · exact ih member
  | escaped noNewline _ ih =>
    have noEscape : CodePoint.newline ≠ CodePoint.backslash := by decide
    intro member
    rcases List.mem_cons.mp member with escape | member
    · exact noEscape escape
    rcases List.mem_cons.mp member with same | member
    · exact noNewline same.symm
    · exact ih member

/-- The lexical grammar of each kind of token. Of a string token it describes the body. -/
def TokenKind.Spells : TokenKind → Text → Prop
  | .opening, t => t = [CodePoint.leftParen]
  | .closing, t => t = [CodePoint.rightParen]
  | .quote, t => t = [CodePoint.apostrophe]
  | .string, t => t.IsBody
  | .number, t =>
    ∃ sign digits : Text, t = sign ++ digits ∧
      (sign = [] ∨ sign = Text.ofString "+" ∨ sign = Text.ofString "-") ∧
        digits ≠ [] ∧ ∀ c ∈ digits, c.isDigit = true
  | .symbol, t =>
    t = Text.ofString "+" ∨ t = Text.ofString "-" ∨ t = Text.ofString "..." ∨
      ∃ (initial : CodePoint) (subsequents : Text), t = initial :: subsequents ∧
        initial.isInitial = true ∧ ∀ c ∈ subsequents, c.isSubsequent = true
  | .boolean, t => t = Text.ofString "#t" ∨ t = Text.ofString "#f"
  | .dot, t => t = Text.ofString "."

def Terminal.WellSpelled (terminal : Terminal) : Prop := terminal.kind.Spells terminal.text

/-- The kinds that end only where a delimiter or the end of the text follows. -/
def TokenKind.isWord : TokenKind → Bool
  | .number | .symbol | .boolean | .dot => true
  | _ => false

def TokenKind.delimits : TokenKind → Bool
  | .opening | .closing | .string => true
  | _ => false

namespace Text

theorem isDigits_iff (t : Text) : t.isDigits = true ↔ t ≠ [] ∧ ∀ c ∈ t, c.isDigit = true := by
  cases t <;> simp [isDigits]

theorem spellsNumber_iff (t : Text) : t.spellsNumber = true ↔ TokenKind.number.Spells t := by
  cases t with
  | nil => simp [spellsNumber, TokenKind.Spells]
  | cons c rest =>
    simp only [spellsNumber, TokenKind.Spells]
    constructor
    · intro number
      split at number
      · next sign =>
        have digits := (isDigits_iff rest).mp number
        have plusOrMinus : c = '+' ∨ c = CodePoint.hyphen := by simpa [CodePoint.isSign] using sign
        refine ⟨[c], rest, rfl, .inr ?_, digits⟩
        rcases plusOrMinus with rfl | rfl
        · exact .inl rfl
        · exact .inr rfl
      · exact ⟨[], c :: rest, rfl, .inl rfl, (isDigits_iff _).mp number⟩
    · intro spelled
      obtain ⟨sign, digits, same, signs, number⟩ := spelled
      rcases signs with rfl | rfl | rfl
      · have first : c.isDigit = true := number.2 c (by rw [← List.nil_append digits, ← same]; simp)
        have noSign : ¬ c.isSign = true := by
          rw [CodePoint.isSign_iff]
          rw [CodePoint.isDigit_iff] at first
          omega
        rw [if_neg noSign]
        exact (isDigits_iff _).mpr (same ▸ number)
      · cases same
        exact (isDigits_iff _).mpr number
      · cases same
        exact (isDigits_iff _).mpr number

theorem spellsSymbol_iff (t : Text) : t.spellsSymbol = true ↔ TokenKind.symbol.Spells t := by
  cases t with
  | nil => simp [spellsSymbol, TokenKind.Spells, ofString]
  | cons c rest =>
    have sign : (c.isSign && rest.isEmpty) = true ↔
        c :: rest = ofString "+" ∨ c :: rest = ofString "-" := by
      simp only [CodePoint.isSign, Bool.and_eq_true, Bool.or_eq_true, decide_eq_true_eq]
      simp [CodePoint.hyphen, ofString, or_and_right]
    have word : (c.isInitial && rest.all CodePoint.isSubsequent) = true ↔
        ∃ (initial : CodePoint) (subsequents : Text), c :: rest = initial :: subsequents ∧
          initial.isInitial = true ∧ ∀ c ∈ subsequents, c.isSubsequent = true := by
      simp [and_assoc]
    simp only [spellsSymbol, TokenKind.Spells, Bool.or_eq_true, decide_eq_true_eq, sign, word]
    grind

theorem spellsBoolean_iff (t : Text) : t.spellsBoolean = true ↔ TokenKind.boolean.Spells t := by
  simp [spellsBoolean, TokenKind.Spells]

theorem spellsDot_iff (t : Text) : t.spellsDot = true ↔ TokenKind.dot.Spells t := by
  simp [spellsDot, TokenKind.Spells]

end Text

theorem CodePoint.isDelimiter_of_isSubsequent {c : CodePoint} (subsequent : c.isSubsequent = true) :
    c.isDelimiter = false := by
  rw [isSubsequent_iff, isInitial_iff, isDigit_iff] at subsequent
  rw [Bool.eq_false_iff, Ne, isDelimiter_iff]
  omega

theorem CodePoint.isSubsequent_of_isDigit {c : CodePoint} (digit : c.isDigit = true) :
    c.isSubsequent = true := (isSubsequent_iff c).mpr (.inr (.inl digit))

theorem CodePoint.isSubsequent_of_isInitial {c : CodePoint} (initial : c.isInitial = true) :
    c.isSubsequent = true := (isSubsequent_iff c).mpr (.inl initial)

namespace TokenKind

theorem Spells.ne_nil {kind : TokenKind} {t : Text} (spelled : kind.Spells t)
    (word : kind.isWord = true) : t ≠ [] := by
  intro same
  subst same
  cases kind with
  | number =>
    obtain ⟨sign, digits, empty, _, nonempty, _⟩ := spelled
    exact nonempty (List.append_eq_nil_iff.mp empty.symm).2
  | symbol => simp [Spells, Text.ofString] at spelled
  | boolean => simp [Spells, Text.ofString] at spelled
  | dot => cases spelled
  | opening => cases word
  | closing => cases word
  | string => cases word
  | quote => cases word

theorem Spells.subsequent {kind : TokenKind} {t : Text} (spelled : kind.Spells t)
    (word : kind.isWord = true) : ∀ c ∈ t, c.isSubsequent = true ∨ c = '#' := by
  cases kind with
  | number =>
    obtain ⟨sign, digits, rfl, signed, _, digit⟩ := spelled
    intro c member
    rcases List.mem_append.mp member with inSign | inDigits
    · have signs : c = '+' ∨ c = '-' := by
        rcases signed with rfl | rfl | rfl
        · cases inSign
        · exact .inl (List.mem_singleton.mp inSign)
        · exact .inr (List.mem_singleton.mp inSign)
      rcases signs with rfl | rfl
      · exact .inl (by decide)
      · exact .inl (by decide)
    · exact .inl (CodePoint.isSubsequent_of_isDigit (digit c inDigits))
  | symbol =>
    rcases spelled with rfl | rfl | rfl | ⟨initial, subsequents, rfl, first, others⟩
    · decide
    · decide
    · decide
    · intro c member
      rcases List.mem_cons.mp member with rfl | later
      · exact .inl (CodePoint.isSubsequent_of_isInitial first)
      · exact .inl (others c later)
  | boolean => rcases spelled with rfl | rfl <;> decide
  | dot => cases spelled; decide
  | opening => cases word
  | closing => cases word
  | string => cases word
  | quote => cases word

theorem Spells.inside {kind : TokenKind} {t : Text} (spelled : kind.Spells t)
    (word : kind.isWord = true) : ∀ c ∈ t, c.isDelimiter = false := by
  intro c member
  rcases spelled.subsequent word c member with subsequent | rfl
  · exact CodePoint.isDelimiter_of_isSubsequent subsequent
  · decide

end TokenKind

namespace Lexeme

/-- The classes of words exclude one another, so it does not matter in which order they are tried. -/
theorem ofWord_of_spells {kind : TokenKind} {t : Text} (spelled : kind.Spells t)
    (word : kind.isWord = true) (isLast : Bool) : ofWord t isLast = .token kind t := by
  cases kind with
  | number => rw [ofWord, if_pos ((Text.spellsNumber_iff t).mpr spelled)]
  | symbol =>
    have noNumber : ¬ t.spellsNumber = true := by
      rcases spelled with rfl | rfl | rfl | ⟨c, rest, rfl, initial, _⟩
      · decide
      · decide
      · decide
      · rw [CodePoint.isInitial_iff] at initial
        have noSign : ¬ c.isSign = true := by rw [CodePoint.isSign_iff]; omega
        have noDigit : ¬ c.isDigit = true := by rw [CodePoint.isDigit_iff]; omega
        simp [Text.spellsNumber, Text.isDigits, noSign, noDigit]
    rw [ofWord, if_neg noNumber, if_pos ((Text.spellsSymbol_iff t).mpr spelled)]
  | boolean => rcases spelled with rfl | rfl <;> rfl
  | dot => cases spelled; rfl
  | opening => cases word
  | closing => cases word
  | string => cases word
  | quote => cases word

theorem spells_of_ofWord {word text : Text} {kind : TokenKind} {isLast : Bool}
    (found : ofWord word isLast = .token kind text) :
    text = word ∧ kind.isWord = true ∧ kind.Spells word := by
  unfold ofWord at found
  split at found
  · next number =>
    cases found
    exact ⟨rfl, rfl, (Text.spellsNumber_iff word).mp number⟩
  split at found
  · next symbol =>
    cases found
    exact ⟨rfl, rfl, (Text.spellsSymbol_iff word).mp symbol⟩
  split at found
  · next boolean =>
    cases found
    exact ⟨rfl, rfl, (Text.spellsBoolean_iff word).mp boolean⟩
  split at found
  · next dot =>
    cases found
    exact ⟨rfl, rfl, (Text.spellsDot_iff word).mp dot⟩
  split at found <;> cases found

end Lexeme

end SchemeSyntax
