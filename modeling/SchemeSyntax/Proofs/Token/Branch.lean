import SchemeSyntax.Token.Branch
import SchemeSyntax.Proofs.Token.Grammar

namespace SchemeSyntax

/-- The match is one of the pattern's where the text goes on with `rest`. -/
structure Grouped.Fits (pattern : Grouped) (found : Match) (rest : Text) : Prop where
  before : pattern.before.Takes found.before (found.group ++ (found.behind ++ rest))
  group : pattern.group.Takes found.group (found.behind ++ rest)
  behind : pattern.behind.Takes found.behind rest

theorem Grouped.mem_allMatches {pattern : Grouped} {t : Text} {found : Match} :
    found ∈ pattern.allMatches t ↔
      ∃ rest, t = found.before ++ (found.group ++ (found.behind ++ rest)) ∧
        pattern.Fits found rest := by
  simp only [allMatches, List.mem_flatMap, List.mem_map, Prod.exists, Pattern.mem_takings]
  constructor
  · intro member
    obtain ⟨before, _, ⟨rfl, first⟩, group, _, ⟨rfl, second⟩, behind, rest, ⟨rfl, third⟩, rfl⟩ := member
    exact ⟨rest, rfl, first, second, third⟩
  · intro split
    obtain ⟨rest, rfl, fits⟩ := split
    exact ⟨_, _, ⟨rfl, fits.before⟩, _, _, ⟨rfl, fits.group⟩, _, rest, ⟨rfl, fits.behind⟩, rfl⟩

namespace Branch

/-- The piece that a match stands for. Of white space this is so only for the longest match. -/
def lexeme (branch : Branch) (found : Match) : Lexeme :=
  match branch with
  | number => .token .number found.group
  | symbol => .token .symbol found.group
  | string => .token .string found.group
  | block =>
    .token (if found.group = [CodePoint.leftParen] then .opening else .closing) found.group
  | whitespace => .layout found.group
  | brokenString => .fault .unterminatedString found.whole
  | clipped => .fault .clipped found.whole
  | boolean => .token .boolean found.group
  | dot => .token .dot found.group
  | quote => .token .quote found.group

end Branch

/-- The branch that finds a piece. What no branch matches is unknown. -/
def Lexeme.branch? : Lexeme → Option Branch
  | .token .opening _ => some .block
  | .token .closing _ => some .block
  | .token .string _ => some .string
  | .token .symbol _ => some .symbol
  | .token .number _ => some .number
  | .token .boolean _ => some .boolean
  | .token .dot _ => some .dot
  | .token .quote _ => some .quote
  | .layout _ => some .whitespace
  | .fault .unterminatedString _ => some .brokenString
  | .fault .clipped _ => some .clipped
  | .fault .unknown _ => none

namespace Branch

theorem branch?_lexeme (branch : Branch) (found : Match) :
    (branch.lexeme found).branch? = some branch := by
  cases branch with
  | block =>
    simp only [lexeme]
    split <;> rfl
  | _ => rfl

variable {branch : Branch} {found other : Match} {t rest : Text}

/-- What stands before the group in every match. -/
def mark : Branch → Text
  | string => [CodePoint.doubleQuote]
  | brokenString => [CodePoint.doubleQuote]
  | _ => []

theorem before_of_fits (fits : branch.pattern.Fits found rest) : found.before = branch.mark := by
  have before := fits.before
  have quote : ∀ {taken rest : Text}, (Pattern.one (· = CodePoint.doubleQuote)).Takes taken rest →
      taken = [CodePoint.doubleQuote] := by
    intro taken rest taking
    obtain ⟨c, rfl, same⟩ := taking
    rw [of_decide_eq_true same]
  cases branch with
  | string => exact quote before
  | brokenString => exact quote before
  | _ => exact before

theorem first?_of_word {kind : TokenKind} {text behind : Text} (word : kind.isWord = true)
    (spelled : kind.Spells text) (delimited : Pattern.delimiter.Takes behind rest) :
    Lexeme.first? (text ++ (behind ++ rest)) = some (.token kind text) := by
  have wellSpelled : Terminal.WellSpelled ⟨kind, text⟩ := spelled
  have plain : kind.spell text = text := by
    cases kind with
    | string => cases word
    | _ => rfl
  have first := Lexeme.first?_spelling wellSpelled fun _ => Pattern.delimited_of_takes delimited
  rwa [Terminal.spelling, plain] at first

theorem exists_fits (member : found ∈ branch.allMatches t) :
    ∃ rest, t = branch.mark ++ (found.group ++ (found.behind ++ rest)) ∧
      found.before = branch.mark ∧ branch.pattern.Fits found rest := by
  obtain ⟨rest, rfl, fits⟩ := Grouped.mem_allMatches.mp member
  exact ⟨rest, by rw [before_of_fits fits], before_of_fits fits, fits⟩

/-- Where a branch matches, the piece stands that the match stands for. -/
theorem first?_of_match (member : found ∈ branch.allMatches t) (visible : branch ≠ whitespace) :
    Lexeme.first? t = some (branch.lexeme found) := by
  obtain ⟨rest, rfl, before, fits⟩ := exists_fits member
  obtain ⟨_, group, behind⟩ := found
  cases before
  obtain ⟨_, ofGroup, ofBehind⟩ := fits
  cases branch with
  | number => exact first?_of_word rfl (Pattern.takes_number.mp ofGroup) ofBehind
  | symbol => exact first?_of_word rfl (Pattern.takes_symbol.mp ofGroup) ofBehind
  | boolean => exact first?_of_word rfl (Pattern.takes_boolean.mp ofGroup) ofBehind
  | dot =>
    have spelled : TokenKind.dot.Spells group := Pattern.takes_literal.mp ofGroup
    exact first?_of_word rfl spelled ofBehind
  | string =>
    obtain ⟨c, rfl, same⟩ := ofBehind
    cases of_decide_eq_true same
    have closed := Text.stringEnd_of_isBody (Pattern.takes_stringBody.mp ofGroup) rest
    show some (Lexeme.ofString (group ++ CodePoint.doubleQuote :: rest)) = _
    rw [Lexeme.ofString, closed]
    rfl
  | brokenString =>
    obtain ⟨ending, rfl⟩ := Pattern.takes_openEnd.mp ofBehind
    have opened : Text.IsOpen (group ++ behind) :=
      ⟨group, behind, rfl, Pattern.takes_stringBody.mp ofGroup, ending⟩
    show some (Lexeme.ofString (group ++ (behind ++ []))) = _
    rw [List.append_nil, Lexeme.ofString, opened.stringEnd]
    rfl
  | block =>
    obtain rfl : behind = [] := ofBehind
    obtain ⟨c, rfl, paren⟩ := ofGroup
    have parens : c = '(' ∨ c = ')' := by
      simpa [Text.ofString] using paren
    rcases parens with rfl | rfl
    · rfl
    · rfl
  | quote =>
    obtain rfl : behind = [] := ofBehind
    obtain ⟨c, rfl, same⟩ := ofGroup
    cases of_decide_eq_true same
    rfl
  | clipped =>
    obtain rfl : behind = [] := ofBehind
    obtain ⟨_, _, rfl, short, rfl, ended⟩ := ofGroup
    obtain rfl : rest = [] := ended
    rcases short with dots | hash
    · cases Pattern.takes_literal.mp dots
      rfl
    · cases Pattern.takes_literal.mp hash
      rfl
  | whitespace => exact absurd rfl visible

/-- The group of a branch other than white space has one extent only. -/
theorem group_unique (member : found ∈ branch.allMatches t) (another : other ∈ branch.allMatches t)
    (visible : branch ≠ whitespace) : found.group = other.group := by
  have lexemes := (first?_of_match member visible).symm.trans (first?_of_match another visible)
  have same := Option.some.inj lexemes
  obtain ⟨_, _, before, fits⟩ := exists_fits member
  obtain ⟨_, _, otherBefore, otherFits⟩ := exists_fits another
  cases branch with
  | brokenString =>
    -- The pieces agree with what stands behind the groups, where a backslash may be.
    have wholes := (Lexeme.fault.inj same).2
    rw [Match.whole, Match.whole, before, otherBefore, List.append_assoc, List.append_assoc] at wholes
    have body := Pattern.takes_stringBody.mp fits.group
    have otherBody := Pattern.takes_stringBody.mp otherFits.group
    exact body.unique otherBody (Pattern.takes_openEnd.mp fits.behind).1
      (Pattern.takes_openEnd.mp otherFits.behind).1 (List.append_cancel_left wholes)
  | clipped =>
    have wholes := (Lexeme.fault.inj same).2
    have nothing : found.behind = [] := fits.behind
    have otherNothing : other.behind = [] := otherFits.behind
    rw [Match.whole, Match.whole, before, otherBefore, nothing, otherNothing, List.append_nil,
      List.append_nil] at wholes
    exact List.append_cancel_left wholes
  | whitespace => exact absurd rfl visible
  | _ => exact (Lexeme.token.inj same).2

theorem mem_whitespace (member : found ∈ whitespace.allMatches t) :
    found.before = [] ∧ found.group <+: Text.layout false t ∧ Text.layout false t ≠ [] := by
  obtain ⟨rest, rfl, before, fits⟩ := exists_fits member
  obtain ⟨left, right, same, first, later⟩ := fits.group
  have run : (Pattern.many .whitespace).Takes found.group (found.behind ++ rest) := by
    rw [same]
    exact .cons first later
  have ahead : found.group <+: Text.layout false
      (whitespace.mark ++ (found.group ++ (found.behind ++ rest))) :=
    Pattern.prefix_layout_of_takes run
  refine ⟨before, ahead, fun ended => ?_⟩
  rw [ended, List.prefix_nil, same, List.append_eq_nil_iff] at ahead
  obtain ⟨nothing, _⟩ := ahead
  rcases first with ⟨c, rfl, _⟩ | ⟨_, _, rfl, ⟨c, rfl, _⟩, _⟩
  · cases nothing
  · cases nothing

theorem firstMatch?_whitespace (begins : Text.layout false t ≠ []) :
    whitespace.firstMatch? t = some ⟨[], Text.layout false t, []⟩ := by
  obtain ⟨rest, first⟩ := Pattern.head?_takings_whitespace begins
  obtain ⟨others, runs⟩ := List.head?_eq_some_iff.mp first
  simp [firstMatch?, allMatches, pattern, Grouped.allMatches, Pattern.takings, runs]

theorem first?_of_whitespace (member : found ∈ whitespace.allMatches t) :
    Lexeme.first? t = some (.layout (Text.layout false t)) :=
  Lexeme.first?_of_layout (mem_whitespace member).2.2

section Completeness

variable {text : Text}

theorem exists_match_of_word {pattern : Pattern} (taken : ∀ later, pattern.Takes text later)
    (stop : rest.Delimited) :
    ∃ found, found ∈ Grouped.allMatches ⟨.empty, pattern, .delimiter⟩ (text ++ rest) := by
  obtain ⟨behind, later, rfl, delimited⟩ := Pattern.exists_delimiter stop
  exact ⟨⟨[], text, behind⟩, Grouped.mem_allMatches.mpr ⟨later, rfl, rfl, taken _, delimited⟩⟩

theorem exists_match_of_mark {accepts : CodePoint → Bool} {c : CodePoint}
    (accepted : accepts c = true) :
    ∃ found, found ∈ Grouped.allMatches ⟨.empty, .one accepts, .empty⟩ (c :: rest) :=
  ⟨⟨[], [c], []⟩, Grouped.mem_allMatches.mpr ⟨rest, rfl, rfl, ⟨c, rfl, accepted⟩, rfl⟩⟩

theorem exists_match_of_token {kind : TokenKind} (spelled : kind.Spells text)
    (stop : kind.isWord = true → rest.Delimited)
    (named : (Lexeme.token kind text).branch? = some branch) :
    ∃ found, found ∈ branch.allMatches (kind.spell text ++ rest) := by
  cases kind with
  | number =>
    cases named
    exact exists_match_of_word (fun _ => Pattern.takes_number.mpr spelled) (stop rfl)
  | symbol =>
    cases named
    exact exists_match_of_word (fun _ => Pattern.takes_symbol.mpr spelled) (stop rfl)
  | boolean =>
    cases named
    exact exists_match_of_word (fun _ => Pattern.takes_boolean.mpr spelled) (stop rfl)
  | dot =>
    cases named
    exact exists_match_of_word (fun _ => Pattern.takes_literal.mpr spelled) (stop rfl)
  | string =>
    cases named
    have quote : ∀ later, string.pattern.before.Takes [CodePoint.doubleQuote] later :=
      fun _ => ⟨CodePoint.doubleQuote, rfl, rfl⟩
    refine ⟨⟨[CodePoint.doubleQuote], text, [CodePoint.doubleQuote]⟩, Grouped.mem_allMatches.mpr ?_⟩
    refine ⟨rest, ?_, quote _, Pattern.takes_stringBody.mpr spelled, quote _⟩
    simp [TokenKind.spell]
  | opening =>
    cases named
    cases spelled
    exact exists_match_of_mark rfl
  | closing =>
    cases named
    cases spelled
    exact exists_match_of_mark rfl
  | quote =>
    cases named
    cases spelled
    exact exists_match_of_mark rfl

theorem exists_match_of_open {body : Text} (opened : body.IsOpen) :
    ∃ found, found ∈ brokenString.allMatches (CodePoint.doubleQuote :: body) := by
  obtain ⟨body, ending, rfl, isBody, stops⟩ := opened
  refine ⟨⟨[CodePoint.doubleQuote], body, ending⟩, Grouped.mem_allMatches.mpr ⟨[], ?_, ?_⟩⟩
  · simp
  · exact ⟨⟨_, rfl, rfl⟩, Pattern.takes_stringBody.mpr isBody, Pattern.takes_openEnd.mpr ⟨stops, rfl⟩⟩

theorem exists_match_of_clipped (short : t = Text.ofString ".." ∨ t = Text.ofString "#") :
    ∃ found, found ∈ clipped.allMatches t := by
  refine ⟨⟨[], t, []⟩, Grouped.mem_allMatches.mpr ⟨[], by simp, rfl, ?_, rfl⟩⟩
  refine ⟨t, [], by simp, ?_, rfl, rfl⟩
  rcases short with dots | hash
  · exact .inl (Pattern.takes_literal.mpr dots)
  · exact .inr (Pattern.takes_literal.mpr hash)

/-- Where a piece stands that is known, its branch matches. -/
theorem exists_match_of_first? {lexeme : Lexeme} (first : Lexeme.first? t = some lexeme)
    (named : lexeme.branch? = some branch) : ∃ found, found ∈ branch.allMatches t := by
  cases lexeme with
  | token kind text =>
    obtain ⟨rest, rfl, spelled, stop⟩ := Lexeme.spells_of_first? first
    exact exists_match_of_token spelled stop named
  | layout w =>
    cases named
    have begins := Lexeme.spelling_ne_nil first
    rw [Lexeme.spelling, Lexeme.eq_layout_of_first? first] at begins
    exact ⟨_, List.mem_of_mem_head? (firstMatch?_whitespace begins)⟩
  | fault cause text =>
    rcases Lexeme.first?_fault_cases first with ⟨rest, rfl, fault⟩ | ⟨c, rest, rfl, _, _, fault⟩
    · rcases Lexeme.fault_of_ofString fault with ⟨rfl, _, opened⟩ | ⟨rfl, _, _⟩
      · cases named
        exact exists_match_of_open (Text.isOpen_of_unterminated opened)
      · cases named
    · rcases Lexeme.fault_of_ofWord fault with ⟨rfl, ended, short⟩ | ⟨rfl, _⟩
      · cases named
        have whole := Text.word_append_afterWord (c :: rest)
        rw [List.isEmpty_iff.mp ended, List.append_nil] at whole
        rw [whole] at short
        exact exists_match_of_clipped short
      · cases named

end Completeness

/-- A branch matches just where a piece of its own stands. -/
theorem allMatches_ne_nil_iff :
    branch.allMatches t ≠ [] ↔ (Lexeme.first? t).bind Lexeme.branch? = some branch := by
  constructor
  · intro matching
    obtain ⟨found, member⟩ := List.exists_mem_of_ne_nil _ matching
    by_cases layout : branch = whitespace
    · subst layout
      rw [first?_of_whitespace member]
      rfl
    · rw [first?_of_match member layout]
      exact branch?_lexeme branch found
  · intro stands
    obtain ⟨lexeme, first, named⟩ := Option.bind_eq_some_iff.mp stands
    obtain ⟨found, member⟩ := exists_match_of_first? first named
    exact List.ne_nil_of_mem member

theorem firstMatch?_of_layout {found : Match} (searched : whitespace.firstMatch? t = some found) :
    found = ⟨[], Text.layout false t, []⟩ := by
  obtain ⟨_, _, begins⟩ := mem_whitespace (List.mem_of_mem_head? searched)
  exact Option.some.inj (searched.symm.trans (firstMatch?_whitespace begins))

/-- The match that a search comes upon first is the longest, and but for white space the only one. -/
theorem span_of_first {first : Match} (searched : branch.firstMatch? t = some first)
    (member : other ∈ branch.allMatches t) : other.span.1 = first.span.1 ∧
      other.span.2 ≤ first.span.2 ∧ (branch ≠ whitespace → other.span = first.span) := by
  by_cases layout : branch = whitespace
  · subst layout
    obtain ⟨before, ahead, _⟩ := mem_whitespace member
    rw [firstMatch?_of_layout searched, Match.span, Match.span, before]
    refine ⟨rfl, ?_, fun visible => absurd rfl visible⟩
    simpa using ahead.length_le
  · have firstMember := List.mem_of_mem_head? searched
    obtain ⟨_, _, before, _⟩ := exists_fits member
    obtain ⟨_, _, firstBefore, _⟩ := exists_fits firstMember
    have same : other.span = first.span := by
      rw [Match.span, Match.span, before, firstBefore, group_unique member firstMember layout]
    exact ⟨congrArg Prod.fst same, Nat.le_of_eq (congrArg Prod.snd same), fun _ => same⟩

-- The delimiter behind a word can be taken in more than one way, and the word in one only.
example : number.allMatches "1;x" = [⟨"", "1", ";x"⟩, ⟨"", "1", ";"⟩, ⟨"", "1", ";"⟩] := by decide

theorem firstMatch?_of_search {order : List Branch} (searched : search order t = some (branch, found)) :
    branch.firstMatch? t = some found := by
  obtain ⟨tried, _, first⟩ := List.exists_of_findSome?_eq_some searched
  obtain ⟨_, first, same⟩ := Option.map_eq_some_iff.mp first
  cases same
  exact first

theorem allMatches_of_search {order : List Branch} (nothing : search order t = none)
    (tried : branch ∈ order) : branch.allMatches t = [] := by
  have unmatched := List.findSome?_eq_none_iff.mp nothing branch tried
  exact List.head?_eq_none_iff.mp (Option.map_eq_none_iff.mp unmatched)

end Branch

namespace Lexeme

theorem branch?_eq_none_iff (lexeme : Lexeme) :
    lexeme.branch? = none ↔ ∃ text, lexeme = .fault .unknown text := by
  constructor
  · intro unnamed
    cases lexeme with
    | token kind text => cases kind <;> cases unnamed
    | layout w => cases unnamed
    | fault cause text =>
      cases cause with
      | unknown => exact ⟨text, rfl⟩
      | unterminatedString => cases unnamed
      | clipped => cases unnamed
  · intro unknown
    obtain ⟨text, rfl⟩ := unknown
    rfl

/-- No branch matches just where an unknown piece stands. -/
theorem unmatched_iff {t : Text} {lexeme : Lexeme} (stands : first? t = some lexeme) :
    (∀ branch : Branch, branch.allMatches t = []) ↔ ∃ text, lexeme = .fault .unknown text := by
  have matching : ∀ branch : Branch, branch.allMatches t ≠ [] ↔ lexeme.branch? = some branch := by
    intro branch
    rw [Branch.allMatches_ne_nil_iff, stands]
    rfl
  rw [← branch?_eq_none_iff, Option.eq_none_iff_forall_ne_some]
  constructor
  · intro nothing branch named
    exact (matching branch).mpr named (nothing branch)
  · intro unnamed branch
    exact Decidable.of_not_not fun nonempty => unnamed branch ((matching branch).mp nonempty)

/-- What is shown of an unknown piece is never empty: it is the word, or the quote that stands in the
    way of one. -/
theorem text_of_unknown {t text : Text} (unknown : first? t = some (.fault .unknown text)) :
    text = t.take (max t.word.length 1) ∧ (text = [CodePoint.doubleQuote] ∨ text = t.word) := by
  rcases first?_fault_cases unknown with ⟨rest, rfl, fault⟩ | ⟨c, rest, rfl, inside, _, fault⟩
  · rcases fault_of_ofString fault with ⟨other, _⟩ | ⟨_, rfl, _⟩
    · cases other
    · exact ⟨rfl, .inl rfl⟩
  · rcases fault_of_ofWord fault with ⟨other, _⟩ | ⟨_, rfl⟩
    · cases other
    · have nonempty : 1 ≤ (Text.word (c :: rest)).length := by simp [Text.word, inside]
      rw [Nat.max_eq_left nonempty]
      exact ⟨List.prefix_iff_eq_take.mp (List.takeWhile_prefix _), .inr rfl⟩

end Lexeme

namespace Source

/-- What is done with the first match of a branch is what is done with the piece that stands there. -/
theorem act_of_first {branch : Branch} {found : Match} {lexeme : Lexeme} {t : Text} (source : Source)
    (searched : branch.firstMatch? t = some found) (stands : Lexeme.first? t = some lexeme) :
    source.act branch found = source.scanLexeme lexeme := by
  have member := List.mem_of_mem_head? searched
  by_cases layout : branch = .whitespace
  · subst layout
    cases (Branch.first?_of_whitespace member).symm.trans stands
    rw [Branch.firstMatch?_of_layout searched]
    simp [act, scanLexeme, Match.whole, Lexeme.spelling]
  cases (Branch.first?_of_match member layout).symm.trans stands
  obtain ⟨_, _, before, fits⟩ := Branch.exists_fits member
  cases branch with
  | string =>
    obtain ⟨c, closing, same⟩ := fits.behind
    have behind : found.behind = [CodePoint.doubleQuote] := by rw [closing, of_decide_eq_true same]
    simp [act, handOut, scanLexeme, Branch.lexeme, Lexeme.spelling, TokenKind.spell, Match.whole,
      before, behind, Branch.mark]
  | block =>
    have length : found.span.2 = found.group.length := by simp [Match.span, before, Branch.mark]
    simp only [act, handOut, scanLexeme, Branch.lexeme, Lexeme.spelling, length]
    split
    · rfl
    · rfl
  | brokenString => rfl
  | clipped => rfl
  | whitespace => exact absurd rfl layout
  | _ =>
    simp [act, handOut, scanLexeme, Branch.lexeme, Lexeme.spelling, TokenKind.spell, Match.span,
      before, Branch.mark]

theorem scanBy_eq_scan (source : Source) {order : List Branch}
    (complete : ∀ branch, branch ∈ order) : source.scanBy order = source.scan := by
  cases stored : source.fault with
  | some fault => rw [scan_of_fault stored, scanBy, stored]
  | none =>
    cases stands : Lexeme.first? source.cursor.rest with
    | none =>
      rw [scan_of_end stored stands]
      simp [scanBy, stored, Lexeme.eq_nil_of_first? stands]
    | some lexeme =>
      rw [scan_of_first? stored stands]
      have ahead : source.cursor.rest.isEmpty = false := by
        cases same : source.cursor.rest with
        | nil => rw [same] at stands; cases stands
        | cons c rest => rfl
      cases searched : Branch.search order source.cursor.rest with
      | some result =>
        simp only [scanBy, stored, ahead, searched, Bool.false_eq_true, if_false]
        exact source.act_of_first (Branch.firstMatch?_of_search searched) stands
      | none =>
        have unmatched : ∀ branch : Branch, branch.allMatches source.cursor.rest = [] :=
          fun branch => Branch.allMatches_of_search searched (complete branch)
        obtain ⟨text, rfl⟩ := (Lexeme.unmatched_iff stands).mp unmatched
        obtain ⟨shown, _⟩ := Lexeme.text_of_unknown stands
        simp only [scanBy, stored, ahead, searched, Bool.false_eq_true, if_false,
          Pattern.first?_unknown, Option.getD_some, ← shown]
        rfl

theorem lexeme_of_failed {source : Source} {lexeme : Lexeme} {fault : ScanFault}
    (failed : (source.scanLexeme lexeme).1 = .failed fault) :
    lexeme = .fault fault.cause fault.fragment.text := by
  cases lexeme <;> cases failed
  rfl

/-- The branches of the lexical grammar exclude one another, so the order in which they are tried does
    not matter. Where one matches, its group has one extent (of white space, the longest is meant) and
    the scan acts on it; where none does, a quote or a word is refused. -/
theorem scan_branches (text fileName : Text) (position : Nat) (inside : position < text.length) :
    let ahead : Text := text.drop position
    let source := (ofText text fileName).skip position
    (∀ left right : Branch, left.allMatches ahead ≠ [] → right.allMatches ahead ≠ [] →
      left = right) ∧
    (∀ (branch : Branch) (found : Match), branch.firstMatch? ahead = some found →
      source.scan = source.act branch found ∧
        ∀ other ∈ branch.allMatches ahead, other.span.1 = found.span.1 ∧
          other.span.2 ≤ found.span.2 ∧ (branch ≠ .whitespace → other.span = found.span)) ∧
    (∀ order : List Branch, (∀ branch, branch ∈ order) → source.scanBy order = source.scan) ∧
    ((∀ branch : Branch, branch.allMatches ahead = []) ↔
      ∃ fault, source.scan.1 = .failed fault ∧ fault.cause = .unknown) ∧
    ∀ fault, source.scan.1 = .failed fault → fault.cause = .unknown →
      (fault.fragment.text = [CodePoint.doubleQuote] ∨ fault.fragment.text = ahead.word) ∧
        fault.fragment.text <+: ahead ∧ fault.fragment.text ≠ [] := by
  intro ahead source
  have rest : source.cursor.rest = ahead := rest_skip (ofText text fileName) position
  have sound : source.fault = none := rfl
  obtain ⟨lexeme, stands⟩ : ∃ lexeme, Lexeme.first? ahead = some lexeme := by
    refine Option.ne_none_iff_exists'.mp fun ended => ?_
    have nothing := List.drop_eq_nil_iff.mp (Lexeme.eq_nil_of_first? ended)
    omega
  have scanned : source.scan = source.scanLexeme lexeme := scan_of_first? sound (rest ▸ stands)
  refine ⟨?_, ?_, ?_, ?_, ?_⟩
  · intro left right matching alsoMatching
    rw [Branch.allMatches_ne_nil_iff] at matching alsoMatching
    exact Option.some.inj (matching.symm.trans alsoMatching)
  · intro branch found searched
    refine ⟨?_, fun other member => Branch.span_of_first searched member⟩
    rw [scanned, act_of_first source searched stands]
  · intro order complete
    exact source.scanBy_eq_scan complete
  · rw [Lexeme.unmatched_iff stands, scanned]
    constructor
    · intro stopped
      obtain ⟨text, rfl⟩ := stopped
      exact ⟨_, rfl, rfl⟩
    · intro stopped
      obtain ⟨fault, failed, unknown⟩ := stopped
      rw [lexeme_of_failed failed, unknown]
      exact ⟨_, rfl⟩
  · intro fault failed unknown
    rw [scanned] at failed
    rw [lexeme_of_failed failed, unknown] at stands
    exact ⟨(Lexeme.text_of_unknown stands).2, Lexeme.spelling_prefix stands,
      Lexeme.spelling_ne_nil stands⟩

theorem scan_branches_openString :
    let source := (ofText "(\"a\\\"\\" "file").skip 1
    1 < (Text.ofString "(\"a\\\"\\").length ∧
    source.scan = source.act .brokenString ⟨"\"", "a\\\"", "\\"⟩ ∧
    source.scanBy Branch.all.reverse = source.scan ∧
    ∀ branch : Branch, branch.allMatches "\"a\\\"\\" ≠ [] → branch = .brokenString := by
  have inside : 1 < (Text.ofString "(\"a\\\"\\").length := by decide
  obtain ⟨exclusive, acts, anyOrder, _, _⟩ := scan_branches "(\"a\\\"\\" "file" 1 inside
  refine ⟨inside, (acts .brokenString _ (by decide)).1, anyOrder _ ?_, fun branch matching => ?_⟩
  · intro branch
    cases branch <;> decide
  · exact exclusive branch .brokenString matching (by decide)

end Source

end SchemeSyntax
