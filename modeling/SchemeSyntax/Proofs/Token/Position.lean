import Mathlib.Logic.Relation
import SchemeSyntax.Token.Session
import SchemeSyntax.Proofs.Token.Completion

namespace SchemeSyntax

theorem Terminal.WellSpelled.sameLine {terminal : Terminal} (spelled : terminal.WellSpelled) :
    CodePoint.newline ∉ terminal.spelling := by
  obtain ⟨kind, text⟩ := terminal
  have word : kind.isWord = true → CodePoint.newline ∉ text := by
    intro word member
    have inside := TokenKind.Spells.inside spelled word _ member
    cases inside
  cases kind with
  | opening => cases spelled; decide
  | closing => cases spelled; decide
  | quote => cases spelled; decide
  | string =>
    have noQuote : CodePoint.newline ≠ CodePoint.doubleQuote := by decide
    intro member
    rcases List.mem_append.mp member with opened | closed
    · rcases List.mem_cons.mp opened with same | inBody
      · exact noQuote same
      · exact Text.IsBody.sameLine spelled inBody
    · exact noQuote (List.mem_singleton.mp closed)
  | number => exact word rfl
  | symbol => exact word rfl
  | boolean => exact word rfl
  | dot => exact word rfl

namespace Text

theorem sameLine_of_unterminated {escaped : Bool} {t : Text}
    (opened : stringEnd escaped t = .unterminated) : CodePoint.newline ∉ t := by
  induction t generalizing escaped with
  | nil => exact List.not_mem_nil
  | cons c t ih =>
    rcases stringEnd_cons_cases escaped c with always | closed | ⟨noNewline, behind, step⟩
    · rw [always] at opened
      cases opened
    · rw [closed] at opened
      cases opened
    · rw [step, StringEnd.cons_eq_unterminated] at opened
      intro member
      rcases List.mem_cons.mp member with same | member
      · exact noNewline same.symm
      · exact ih opened member

theorem sameLine_word (t : Text) : CodePoint.newline ∉ t.word := by
  intro member
  cases inside_word t _ member

/-- The characters from one index to another, where neither is negative. -/
def slice (t : Text) (start stop : Int) : Text := (t.drop start.toNat).take (stop - start).toNat

end Text

/-- Only layout can hold a newline: no token and nothing that is reported as a fault. -/
theorem Lexeme.sameLine_of_first? {t : Text} {lexeme : Lexeme} (found : first? t = some lexeme)
    (visible : ∀ w, lexeme ≠ .layout w) : CodePoint.newline ∉ lexeme.spelling := by
  cases lexeme with
  | token kind text =>
    obtain ⟨_, _, spelled, _⟩ := spells_of_first? found
    have wellSpelled : Terminal.WellSpelled ⟨kind, text⟩ := spelled
    exact wellSpelled.sameLine
  | layout w => exact absurd rfl (visible w)
  | fault cause text =>
    rcases first?_fault_cases found with ⟨rest, rfl, fault⟩ | ⟨c, rest, rfl, _, _, fault⟩
    · unfold ofString at fault
      split at fault
      · cases fault
      · next opened =>
        cases fault
        intro member
        rcases List.mem_cons.mp member with quote | inRest
        · cases quote
        · exact Text.sameLine_of_unterminated opened inRest
      · cases fault
        decide
    · have spelled := spelling_ofWord (Text.word (c :: rest)) (Text.afterWord (c :: rest)).isEmpty
      rw [fault] at spelled
      rw [spelled]
      exact Text.sameLine_word _

/-- All that a location says is so: it names the file, and it spells out the piece of the text that
    stands at the offset, both in the text and in the line around it. -/
structure Location.Exact (place : Location) (name text : Text) (start : Nat) (spelling : Text) :
    Prop where
  fileName : place.fileName = name
  offset : place.offset = start
  lineNo : place.lineNo = 1 + (text.take start).count CodePoint.newline
  line : ∃ lineStart, text.IsLineStart start lineStart ∧
    place.line = Text.firstLine (text.drop lineStart) ∧ place.colStart = start - lineStart + 1
  colEnd : place.colEnd = place.colStart + spelling.length
  inLine : place.line.slice (place.colStart - 1) (place.colEnd - 1) = spelling
  inText : text.slice place.offset (place.offset + place.colEnd - place.colStart) = spelling
  nonempty : spelling ≠ []
  sameLine : CodePoint.newline ∉ spelling

def Fragment.Exact (fragment : Fragment) (name text : Text) (start : Nat) : Prop :=
  ∃ place, fragment.location = some place ∧ place.Exact name text start fragment.text

/-- A token as it is written: a string with the quotes around its body. -/
def Token.written (token : Token) : Fragment := ⟨token.terminal.spelling, token.location⟩

def Scan.fragments : Scan → List Fragment
  | token found => [found.written]
  | failed fault => [fault.fragment]
  | layout => []
  | finished => []

def Source.Answer.fragments : Answer → List Fragment
  | scanned scan => scan.fragments
  | token found => [found.written]
  | tokens found => found.map Token.written
  | failed fault => [fault.fragment]
  | stop => []
  | state _ => []

namespace Source

theorem locate_exact {source : Source} {text spelling : Text} (stands : source.cursor.Stands text)
    (ahead : spelling <+: source.cursor.rest) (nonempty : spelling ≠ [])
    (sameLine : CodePoint.newline ∉ spelling) :
    (source.locate spelling.length).Exact source.fileName text source.cursor.offset spelling := by
  obtain ⟨later, written⟩ := ahead
  have atLine := stands.line_ahead
  rw [← written, Text.firstLine_append sameLine] at atLine
  have le := stands.lineStart.le
  refine ⟨rfl, rfl, ?_, ⟨source.cursor.lineStart, stands.lineStart, stands.line, rfl⟩, rfl, ?_, ?_,
    nonempty, sameLine⟩
  · rw [locate, stands.lineNo]
    rfl
  · have fromColumn : (source.cursor.column - 1).toNat =
        source.cursor.offset - source.cursor.lineStart := by
      simp only [Cursor.column]
      omega
    have width : (source.cursor.column + spelling.length - 1 - (source.cursor.column - 1)).toNat =
        spelling.length := by omega
    rw [locate, Text.slice, fromColumn, width, atLine, List.take_left]
  · have width : ((source.cursor.offset : Int) + (source.cursor.column + spelling.length) -
        source.cursor.column - source.cursor.offset).toNat = spelling.length := by omega
    rw [locate, Text.slice, width, Int.toNat_natCast, ← stands.rest, ← written, List.take_left]

/-- What a scan finds itself is placed exactly. -/
theorem exact_of_scan {source : Source} {text : Text} {fragment : Fragment}
    (sound : source.fault = none) (stands : source.cursor.Stands text)
    (found : fragment ∈ source.scan.1.fragments) :
    fragment.Exact source.fileName text source.cursor.offset := by
  cases first : Lexeme.first? source.cursor.rest with
  | none =>
    rw [scan_of_end sound first] at found
    cases found
  | some lexeme =>
    have exact : (∀ w, lexeme ≠ .layout w) → (source.locate lexeme.spelling.length).Exact
        source.fileName text source.cursor.offset lexeme.spelling := fun visible =>
      locate_exact stands (Lexeme.spelling_prefix first) (Lexeme.spelling_ne_nil first)
        (Lexeme.sameLine_of_first? first visible)
    rw [scan_of_first? sound first] at found
    cases lexeme with
    | token kind text =>
      cases List.mem_singleton.mp found
      exact ⟨_, rfl, exact nofun⟩
    | layout w => cases found
    | fault cause text =>
      cases List.mem_singleton.mp found
      exact ⟨_, rfl, exact nofun⟩

/-- A scan moves on over what it has read, and over nothing else. -/
theorem scan_moves (source : Source) : source.scan.2.fileName = source.fileName ∧
    ∃ n, source.scan.2.cursor = source.cursor.advance n := by
  cases stored : source.fault with
  | some fault =>
    rw [scan_of_fault stored]
    exact ⟨rfl, 0, rfl⟩
  | none =>
    cases first : Lexeme.first? source.cursor.rest with
    | none =>
      rw [scan_of_end stored first]
      exact ⟨rfl, 0, rfl⟩
    | some lexeme =>
      rw [scan_of_first? stored first]
      cases lexeme with
      | token kind text => exact ⟨rfl, _, rfl⟩
      | layout w => exact ⟨rfl, _, rfl⟩
      | fault cause text => exact ⟨rfl, 0, rfl⟩

/-- A fault is stored by the scan that meets it. -/
theorem scan_stores {source : Source} {fault : ScanFault} (sound : source.fault = none)
    (stored : source.scan.2.fault = some fault) : source.scan.1 = .failed fault := by
  cases first : Lexeme.first? source.cursor.rest with
  | none =>
    rw [scan_of_end sound first, sound] at stored
    cases stored
  | some lexeme =>
    rw [scan_of_first? sound first] at stored ⊢
    cases lexeme with
    | token kind text => cases sound.symm.trans stored
    | layout w => cases sound.symm.trans stored
    | fault cause text =>
      cases stored
      rfl

/-- Any number of scans lead from one state to the other. -/
def Reaches : Source → Source → Prop :=
  Relation.ReflTransGen fun before after => before.scan.2 = after

theorem reaches_of_scan {source after : Source} {scan : Scan} (scanned : source.scan = (scan, after)) :
    source.Reaches after := .single (congrArg Prod.snd scanned)

theorem Reaches.stands {text fileName : Text} {source : Source}
    (reached : (ofText text fileName).Reaches source) :
    source.fileName = fileName ∧ source.cursor.Stands text := by
  induction reached with
  | refl => exact ⟨rfl, Cursor.stands_start text⟩
  | tail _ scanned ih =>
    subst scanned
    obtain ⟨named, stands⟩ := ih
    obtain ⟨sameName, n, moved⟩ := scan_moves _
    rw [sameName, moved]
    exact ⟨named, stands.advance n⟩

theorem Reaches.origin {start source : Source} {fault : ScanFault} (reached : start.Reaches source)
    (sound : start.fault = none) (stored : source.fault = some fault) :
    ∃ origin, start.Reaches origin ∧ origin.fault = none ∧ origin.scan = (.failed fault, source) := by
  induction reached with
  | refl => cases sound.symm.trans stored
  | @tail before _ reached scanned ih =>
    subst scanned
    cases earlier : before.fault with
    | none => exact ⟨before, reached, earlier, Prod.ext (scan_stores earlier stored) rfl⟩
    | some other =>
      rw [scan_of_fault earlier] at stored ⊢
      exact ih stored

/-- A scan on the way from one state to the other gives this fragment. -/
def Gives (before after : Source) (fragment : Fragment) : Prop :=
  ∃ source, before.Reaches source ∧ fragment ∈ source.scan.1.fragments ∧ source.scan.2.Reaches after

theorem Gives.widen {start before after last : Source} {fragment : Fragment}
    (given : before.Gives after fragment) (earlier : start.Reaches before)
    (onward : after.Reaches last) : start.Gives last fragment := by
  obtain ⟨source, reached, found, scanned⟩ := given
  exact ⟨source, earlier.trans reached, found, scanned.trans onward⟩

theorem gives_of_scan {source after : Source} {scan : Scan} {fragment : Fragment}
    (scanned : source.scan = (scan, after)) (found : fragment ∈ scan.fragments) :
    source.Gives after fragment := by
  refine ⟨source, .refl, ?_, ?_⟩
  · rwa [scanned]
  · rw [scanned]
    exact .refl

theorem gives_of_fault {before after : Source} {fault : ScanFault} (reached : before.Reaches after)
    (stored : after.fault = some fault) : before.Gives after fault.fragment :=
  (gives_of_scan (scan_of_fault stored) List.mem_cons_self).widen reached .refl

/-- Whatever is given is placed where the scan that found it began. -/
theorem Gives.exact {text fileName : Text} {after : Source} {fragment : Fragment}
    (given : (ofText text fileName).Gives after fragment) :
    ∃ origin, (ofText text fileName).Reaches origin ∧ origin.fault = none ∧
      fragment ∈ origin.scan.1.fragments ∧ origin.scan.2.Reaches after ∧
        fragment.Exact fileName text origin.cursor.offset := by
  have own : ∀ origin, (ofText text fileName).Reaches origin → origin.fault = none →
      fragment ∈ origin.scan.1.fragments → fragment.Exact fileName text origin.cursor.offset := by
    intro origin reached sound found
    obtain ⟨named, stands⟩ := reached.stands
    rw [← named]
    exact exact_of_scan sound stands found
  obtain ⟨source, reached, found, onward⟩ := given
  cases stored : source.fault with
  | none => exact ⟨source, reached, stored, found, onward, own source reached stored found⟩
  | some fault =>
    -- The fault is only met again, so its place is that of the scan that stored it.
    obtain ⟨origin, earlier, sound, scanned⟩ := reached.origin rfl stored
    rw [scan_of_fault stored] at found onward
    have foundFirst : fragment ∈ origin.scan.1.fragments := by rwa [scanned]
    refine ⟨origin, earlier, sound, foundFirst, ?_, own origin earlier sound foundFirst⟩
    rw [scanned]
    exact onward

theorem next_gives (source : Source) : source.Reaches source.next.2 ∧
    ∀ token ∈ source.next.1, source.Gives source.next.2 token.written := by
  fun_induction Source.next source with
  | case1 source token after scanned =>
    refine ⟨reaches_of_scan scanned, fun other taken => ?_⟩
    cases taken
    exact gives_of_scan scanned List.mem_cons_self
  | case2 source after scanned ih =>
    have reached := reaches_of_scan scanned
    exact ⟨reached.trans ih.1, fun token taken => (ih.2 token taken).widen reached .refl⟩
  | case3 source after scanned => exact ⟨reaches_of_scan scanned, nofun⟩
  | case4 source fault after scanned => exact ⟨reaches_of_scan scanned, nofun⟩

theorem drain_gives (source : Source) : source.Reaches source.drain.2 ∧
    ∀ token ∈ source.drain.1, source.Gives source.drain.2 token.written := by
  fun_induction Source.drain source with
  | case1 source token after scanned later ih =>
    have reached := reaches_of_scan scanned
    refine ⟨reached.trans ih.1, fun other taken => ?_⟩
    rcases List.mem_cons.mp taken with rfl | taken
    · exact (gives_of_scan scanned List.mem_cons_self).widen .refl ih.1
    · exact (ih.2 other taken).widen reached .refl
  | case2 source after scanned ih =>
    have reached := reaches_of_scan scanned
    exact ⟨reached.trans ih.1, fun token taken => (ih.2 token taken).widen reached .refl⟩
  | case3 source after scanned =>
    refine ⟨reaches_of_scan scanned, fun token taken => ?_⟩
    cases taken
  | case4 source fault after scanned =>
    refine ⟨reaches_of_scan scanned, fun token taken => ?_⟩
    cases taken

/-- Each token of a text stands where its location says, and so does what cannot be scanned. -/
theorem exact_of_mem_drain {text fileName : Text} {token : Token}
    (member : token ∈ (ofText text fileName).drain.1) :
    ∃ start, token.written.Exact fileName text start := by
  obtain ⟨_, _, _, _, _, exact⟩ := ((drain_gives _).2 token member).exact
  exact ⟨_, exact⟩

theorem exact_of_fault_drain {text fileName : Text} {fault : ScanFault}
    (stored : (ofText text fileName).drain.2.fault = some fault) :
    ∃ start, fault.fragment.Exact fileName text start := by
  obtain ⟨_, _, _, _, _, exact⟩ := (gives_of_fault (drain_gives _).1 stored).exact
  exact ⟨_, exact⟩

namespace Session

variable {ι : Type} [DecidableEq ι]

theorem next_gives (session : Session ι) (iterator : ι) :
    session.source.Reaches (session.next iterator).2.source ∧
      ∀ fragment ∈ (session.next iterator).1.fragments,
        session.source.Gives (session.next iterator).2.source fragment := by
  unfold next
  split
  · exact ⟨.refl, nofun⟩
  obtain ⟨reached, given⟩ := Source.next_gives session.source
  split
  · next token after taken =>
    rw [taken] at reached given
    refine ⟨reached, fun fragment found => ?_⟩
    cases List.mem_singleton.mp found
    exact given token rfl
  · next after taken =>
    rw [taken] at reached
    refine ⟨reached, fun fragment found => ?_⟩
    cases stored : after.fault with
    | none =>
      rw [stored] at found
      cases found
    | some fault =>
      rw [stored] at found
      cases List.mem_singleton.mp found
      exact gives_of_fault reached stored

theorem step_gives (session : Session ι) (step : Step ι) :
    session.source.Reaches (session.step step).2.source ∧
      ∀ fragment ∈ (session.step step).1.fragments,
        session.source.Gives (session.step step).2.source fragment := by
  cases step with
  | scan => exact ⟨reaches_of_scan rfl, fun fragment found => gives_of_scan rfl found⟩
  | next iterator => exact next_gives session iterator
  | rest =>
    obtain ⟨reached, given⟩ := drain_gives session.source
    refine ⟨reached, fun fragment found => ?_⟩
    cases stored : session.source.drain.2.fault with
    | none =>
      simp only [Session.step, stored, Answer.fragments] at found
      obtain ⟨token, taken, rfl⟩ := List.mem_map.mp found
      exact given token taken
    | some fault =>
      simp only [Session.step, stored, Answer.fragments] at found
      cases List.mem_singleton.mp found
      exact gives_of_fault reached stored
  | state => exact ⟨.refl, nofun⟩

theorem run_gives (session : Session ι) (steps : List (Step ι)) :
    session.source.Reaches (session.run steps).2.source ∧
      ∀ fragment ∈ (session.run steps).1.flatMap Answer.fragments,
        session.source.Gives (session.run steps).2.source fragment := by
  induction steps generalizing session with
  | nil => exact ⟨.refl, nofun⟩
  | cons step steps ih =>
    obtain ⟨stepped, given⟩ := step_gives session step
    obtain ⟨reached, later⟩ := ih (session.step step).2
    refine ⟨stepped.trans reached, fun fragment found => ?_⟩
    rcases List.mem_append.mp found with first | behind
    · exact (given fragment first).widen .refl reached
    · exact (later fragment behind).widen stepped .refl

/-- The place in the text is right in every state that scans reach. Every token and every failing
    piece that is handed out was found by a scan, and it is placed exactly where that scan began. -/
theorem run_exact (text fileName : Text) (steps : List (Step ι)) :
    let start := Source.ofText text fileName
    let ran := (ofText text fileName : Session ι).run steps
    start.Reaches ran.2.source ∧
    (∀ source, start.Reaches source → source.cursor.Stands text) ∧
    ∀ fragment ∈ ran.1.flatMap Answer.fragments, ∃ origin, start.Reaches origin ∧
      origin.fault = none ∧ fragment ∈ origin.scan.1.fragments ∧ origin.scan.2.Reaches ran.2.source ∧
        fragment.Exact fileName text origin.cursor.offset := by
  obtain ⟨reached, given⟩ := run_gives (ofText text fileName : Session ι) steps
  refine ⟨reached, fun source reached => reached.stands.2, fun fragment found => ?_⟩
  exact (given fragment found).exact

theorem run_exact_secondLine :
    ∃ origin, (Source.ofText "'a\n \"b\" ..c" "file").Reaches origin ∧
      (⟨"..c", some ⟨"file", " \"b\" ..c", 2, 6, 9, 8⟩⟩ : Fragment).Exact "file" "'a\n \"b\" ..c"
        origin.cursor.offset := by
  obtain ⟨_, _, given⟩ := run_exact "'a\n \"b\" ..c" "file" [.next 0, .scan, .next 1, .rest, .next 0]
  obtain ⟨origin, reached, _, _, _, exact⟩ :=
    given ⟨"..c", some ⟨"file", " \"b\" ..c", 2, 6, 9, 8⟩⟩ (by decide +kernel)
  exact ⟨origin, reached, exact⟩

end Session

end Source

end SchemeSyntax
