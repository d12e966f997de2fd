import SchemeSyntax.Token.Pattern
import SchemeSyntax.Token.Source

namespace SchemeSyntax

namespace Pattern

def comment : Pattern := seq (one (· = CodePoint.semicolon)) (many (one (· ≠ CodePoint.newline)))

def whitespace : Pattern := either (one CodePoint.isSpace) comment

def delimiter : Pattern :=
  either whitespace (either (one (· ∈ Text.ofString "()\";")) finish)

def initial : Pattern :=
  either (one CodePoint.isLetter) (one (· ∈ Text.ofString "!$%&*/:<=>?^_~"))

def subsequent : Pattern :=
  either (one CodePoint.isDigit) (either initial (one (· ∈ Text.ofString "+.@-")))

def sign : Pattern := one (· ∈ Text.ofString "+-")

def number : Pattern := seq (optional sign) (atLeastOne (one CodePoint.isDigit))

def symbol : Pattern := either (seq initial (many subsequent)) (either sign (literal "..."))

def stringBody : Pattern :=
  many (either (one (· ∉ Text.ofString "\"\\\n"))
    (seq (one (· = CodePoint.backslash)) (one (· ≠ CodePoint.newline))))

/-- Where the text ends within a string, it may end behind a backslash. -/
def openEnd : Pattern := seq (optional (one (· = CodePoint.backslash))) finish

def boolean : Pattern := seq (one (· = '#')) (one (· ∈ Text.ofString "tf"))

def clipped : Pattern := seq (either (literal "..") (literal "#")) finish

/-- What is shown of a text that cannot be scanned. -/
def unknown : Pattern := many (one fun c => !c.isSpace && c ∉ Text.ofString "()\";")

end Pattern

/-- A pattern with a group in it, and with what has to stand before and behind the group. -/
structure Grouped where
  before : Pattern := .empty
  group : Pattern
  behind : Pattern := .empty

structure Match where
  before : Text
  group : Text
  behind : Text
  deriving DecidableEq, Repr

namespace Match

def whole (found : Match) : Text := found.before ++ found.group ++ found.behind

/-- Where the group begins and ends, counted from where the match begins. -/
def span (found : Match) : Nat × Nat :=
  (found.before.length, found.before.length + found.group.length)

end Match

def Grouped.allMatches (pattern : Grouped) (t : Text) : List Match :=
  (pattern.before.takings t).flatMap fun before =>
    (pattern.group.takings before.2).flatMap fun group =>
      (pattern.behind.takings group.2).map fun behind => ⟨before.1, group.1, behind.1⟩

/-- The branches of the one regular expression that is the lexical grammar. -/
inductive Branch
  | number
  | symbol
  | string
  | block
  | whitespace
  | brokenString
  | clipped
  | boolean
  | dot
  | quote
  deriving DecidableEq, Repr

namespace Branch

/-- All branches in the order in which they are written. -/
def all : List Branch :=
  [number, symbol, string, block, whitespace, brokenString, clipped, boolean, dot, quote]

def pattern : Branch → Grouped
  | number => { group := .number, behind := .delimiter }
  | symbol => { group := .symbol, behind := .delimiter }
  | string =>
    { before := .one (· = CodePoint.doubleQuote)
      group := .stringBody
      behind := .one (· = CodePoint.doubleQuote) }
  | block => { group := .one (· ∈ Text.ofString "()") }
  | whitespace => { group := .atLeastOne .whitespace }
  | brokenString =>
    { before := .one (· = CodePoint.doubleQuote)
      group := .stringBody
      behind := .openEnd }
  | clipped => { group := .clipped }
  | boolean => { group := .boolean, behind := .delimiter }
  | dot => { group := .literal ".", behind := .delimiter }
  | quote => { group := .one (· = CodePoint.apostrophe) }

def allMatches (branch : Branch) (t : Text) : List Match := branch.pattern.allMatches t

/-- The match that a search for this branch comes upon first. -/
def firstMatch? (branch : Branch) (t : Text) : Option Match := (branch.allMatches t).head?

/-- The first of the branches that matches, and its first match. -/
def search (order : List Branch) (t : Text) : Option (Branch × Match) :=
  order.findSome? fun branch => (branch.firstMatch? t).map fun found => (branch, found)

end Branch

namespace Source

def handOut (source : Source) (kind : TokenKind) (text : Text) (length : Nat) : Scan × Source :=
  (.token ⟨kind, text, some (source.locate length)⟩, source.skip length)

def refuse (source : Source) (cause : ScanCause) (text : Text) : Scan × Source :=
  let fault : ScanFault := ⟨cause, ⟨text, some (source.locate text.length)⟩⟩
  (.failed fault, { source with fault := some fault })

/-- What a scan does where a branch matches. Behind a word the delimiter is left for the next scan,
    while the closing quote belongs to its string. -/
def act (source : Source) (branch : Branch) (found : Match) : Scan × Source :=
  match branch with
  | .number => source.handOut .number found.group found.span.2
  | .symbol => source.handOut .symbol found.group found.span.2
  | .string => source.handOut .string found.group found.whole.length
  | .block =>
    source.handOut (if found.group = [CodePoint.leftParen] then .opening else .closing) found.group
      found.span.2
  | .whitespace => (.layout, source.skip found.whole.length)
  | .brokenString => source.refuse .unterminatedString found.whole
  | .clipped => source.refuse .clipped found.whole
  | .boolean => source.handOut .boolean found.group found.span.2
  | .dot => source.handOut .dot found.group found.span.2
  | .quote => source.handOut .quote found.group found.span.2

/-- A scan by the regular expression, its branches tried in the given order. Where none matches, at
    least one character is refused. -/
def scanBy (order : List Branch) (source : Source) : Scan × Source :=
  let ahead := source.cursor.rest
  match source.fault with
  | some fault => (.failed fault, source)
  | none =>
    if ahead.isEmpty then (.finished, source)
    else
      match Branch.search order ahead with
      | some (branch, found) => source.act branch found
      | none =>
        let refused := (Pattern.unknown.first? ahead).getD []
        source.refuse .unknown (ahead.take (max refused.length 1))

end Source

end SchemeSyntax
