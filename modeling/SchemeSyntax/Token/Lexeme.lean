import SchemeSyntax.Token.Spelling

namespace SchemeSyntax

/-- Why no token stands at the front of a text. In the first two cases more text could complete one. -/
inductive ScanCause
  | unterminatedString
  | clipped
  | unknown
  deriving DecidableEq, Repr

/-- The piece at the front of a text. -/
inductive Lexeme
  | token (kind : TokenKind) (text : Text)
  | layout (text : Text)
  | fault (cause : ScanCause) (text : Text)
  deriving DecidableEq, Repr

/-- The spelling of a token with the given text. -/
def TokenKind.spell : TokenKind → Text → Text
  | .string, body => CodePoint.doubleQuote :: body ++ [CodePoint.doubleQuote]
  | _, text => text

/-- White space and comments at the front of a text. A comment ends before the next newline. -/
def Text.layout (inComment : Bool) : Text → Text
  | [] => []
  | c :: rest =>
    if inComment then c :: layout (c ≠ CodePoint.newline) rest
    else if c.isSpace then c :: layout false rest
    else if c = CodePoint.semicolon then c :: layout true rest
    else []

theorem Text.layout_prefix (inComment : Bool) (t : Text) : layout inComment t <+: t := by
  induction t generalizing inComment with
  | nil => exact List.nil_prefix
  | cons c rest ih =>
    unfold layout
    repeat' split
    · exact List.cons_prefix_cons.mpr ⟨rfl, ih _⟩
    · exact List.cons_prefix_cons.mpr ⟨rfl, ih _⟩
    · exact List.cons_prefix_cons.mpr ⟨rfl, ih _⟩
    · exact List.nil_prefix

inductive StringEnd
  | closed (body : Text)
  | unterminated
  | broken
  deriving DecidableEq, Repr

def StringEnd.cons (c : CodePoint) : StringEnd → StringEnd
  | .closed body => .closed (c :: body)
  | .unterminated => .unterminated
  | .broken => .broken

/-- How the string ends whose body begins here. A string cannot hold a newline, escaped or not. -/
def Text.stringEnd (escaped : Bool) : Text → StringEnd
  | [] => .unterminated
  | c :: rest =>
    if c = CodePoint.newline then .broken
    else if escaped then (stringEnd false rest).cons c
    else if c = CodePoint.doubleQuote then .closed []
    else (stringEnd (c = CodePoint.backslash) rest).cons c

theorem Text.prefix_of_stringEnd {escaped : Bool} {t body : Text}
    (closed : stringEnd escaped t = .closed body) : body ++ [CodePoint.doubleQuote] <+: t := by
  induction t generalizing escaped body with
  | nil => cases closed
  | cons c rest ih =>
    simp only [stringEnd] at closed
    split at closed
    · cases closed
    split at closed
    · cases later : stringEnd false rest <;> simp only [later, StringEnd.cons] at closed <;> cases closed
      exact List.cons_prefix_cons.mpr ⟨rfl, ih later⟩
    split at closed
    · next quote =>
      cases closed
      exact List.cons_prefix_cons.mpr ⟨quote.symm, List.nil_prefix⟩
    · cases later : stringEnd (c = CodePoint.backslash) rest <;>
        simp only [later, StringEnd.cons] at closed <;> cases closed
      exact List.cons_prefix_cons.mpr ⟨rfl, ih later⟩

/-- The longest run without a delimiter. -/
def Text.word (t : Text) : Text := t.takeWhile fun c => !c.isDelimiter

def Text.afterWord (t : Text) : Text := t.dropWhile fun c => !c.isDelimiter

namespace Lexeme

def spelling : Lexeme → Text
  | .token kind text => kind.spell text
  | .layout text => text
  | .fault _ text => text

def ofString (rest : Text) : Lexeme :=
  match rest.stringEnd false with
  | .closed body => .token .string body
  | .unterminated => .fault .unterminatedString (CodePoint.doubleQuote :: rest)
  | .broken => .fault .unknown [CodePoint.doubleQuote]

/-- Only the last word of a text can be clipped. -/
def ofWord (word : Text) (isLast : Bool) : Lexeme :=
  if word.spellsNumber then .token .number word
  else if word.spellsSymbol then .token .symbol word
  else if word.spellsBoolean then .token .boolean word
  else if word.spellsDot then .token .dot word
  else if isLast && (word = Text.ofString ".." || word = Text.ofString "#") then .fault .clipped word
  else .fault .unknown word

def first? : Text → Option Lexeme
  | [] => none
  | c :: rest =>
    if c = CodePoint.leftParen then some (.token .opening [c])
    else if c = CodePoint.rightParen then some (.token .closing [c])
    else if c = CodePoint.apostrophe then some (.token .quote [c])
    else if c = CodePoint.doubleQuote then some (ofString rest)
    else if c.isSpace || c = CodePoint.semicolon then some (.layout (Text.layout false (c :: rest)))
    else some (ofWord (Text.word (c :: rest)) (Text.afterWord (c :: rest)).isEmpty)

theorem spelling_ofWord (word : Text) (isLast : Bool) : (ofWord word isLast).spelling = word := by
  unfold ofWord
  repeat' split
  all_goals rfl

theorem spelling_first? {c : CodePoint} {rest : Text} {lexeme : Lexeme}
    (first : first? (c :: rest) = some lexeme) :
    ∃ later, lexeme.spelling = c :: later ∧ later <+: rest := by
  simp only [first?] at first
  split at first
  · cases first
    exact ⟨[], rfl, List.nil_prefix⟩
  split at first
  · cases first
    exact ⟨[], rfl, List.nil_prefix⟩
  split at first
  · cases first
    exact ⟨[], rfl, List.nil_prefix⟩
  split at first
  · next quote =>
    cases first
    subst quote
    unfold ofString
    split
    · next closed => exact ⟨_, rfl, Text.prefix_of_stringEnd closed⟩
    · exact ⟨_, rfl, List.prefix_rfl⟩
    · exact ⟨[], rfl, List.nil_prefix⟩
  split at first
  · next blank =>
    cases first
    simp only [spelling, Text.layout, Bool.false_eq_true, if_false]
    split
    · exact ⟨_, rfl, Text.layout_prefix _ _⟩
    · exact ⟨_, by simp_all, Text.layout_prefix true rest⟩
  · cases first
    have inside : c.isDelimiter = false := by simp_all [CodePoint.isDelimiter]
    rw [spelling_ofWord, Text.word, List.takeWhile_cons, inside]
    exact ⟨_, rfl, List.takeWhile_prefix _⟩

theorem spelling_prefix {t : Text} {lexeme : Lexeme} (first : first? t = some lexeme) :
    lexeme.spelling <+: t := by
  cases t with
  | nil => cases first
  | cons c rest =>
    obtain ⟨later, spelled, ahead⟩ := spelling_first? first
    rw [spelled]
    exact List.cons_prefix_cons.mpr ⟨rfl, ahead⟩

theorem spelling_ne_nil {t : Text} {lexeme : Lexeme} (first : first? t = some lexeme) :
    lexeme.spelling ≠ [] := by
  cases t with
  | nil => cases first
  | cons c rest =>
    obtain ⟨later, spelled, _⟩ := spelling_first? first
    simp [spelled]

end Lexeme

end SchemeSyntax
