import SchemeSyntax.Proofs.Text.Numeral
import SchemeSyntax.Proofs.Text.Pieces
import SchemeSyntax.Proofs.Token.Lexing

namespace SchemeSyntax.StringBody

theorem decode_of_pieces {body later : Text} {piece : Piece} {c : CodePoint}
    (split : pieces body = piece :: pieces later) (value : piece.value = .ok c) :
    decode body = (decode later).map (c :: ·) := by
  rw [decode, decode, split, List.mapM_cons, value]
  cases (pieces later).mapM Piece.value <;> rfl

theorem decode_nil : decode [] = .ok [] := by
  rw [decode, pieces]
  rfl

theorem mem_letters_of_letter? {c letter : CodePoint} (found : letter? c = some letter) :
    (letter, c) ∈ letters := by
  obtain ⟨entry, first, rfl⟩ := Option.map_eq_some_iff.mp found
  have same : entry.2 = c := by simpa using List.find?_some first
  subst same
  exact List.mem_of_find?_eq_some first

theorem ne_of_letter? {c : CodePoint} (none : letter? c = none) :
    c ≠ CodePoint.doubleQuote ∧ c ≠ CodePoint.backslash ∧ c ≠ CodePoint.newline := by
  refine ⟨?_, ?_, ?_⟩
  all_goals
    intro same
    subst same
    exact absurd none (by decide)

theorem decode_spelling {piece : Piece} {c : CodePoint} (escape : piece.IsEscape)
    (value : piece.value = .ok c) (rest : Text) :
    decode (piece.spelling ++ rest) = (decode rest).map (c :: ·) :=
  decode_of_pieces (pieces_spelling escape rest) value

theorem decode_lettered {letter c : CodePoint} (listed : (letter, c) ∈ letters) (rest : Text) :
    decode (CodePoint.backslash :: letter :: rest) = (decode rest).map (c :: ·) := by
  have escape : (Piece.lettered letter c).IsEscape := listed
  exact decode_spelling escape rfl rest

theorem decode_plain {c : CodePoint} (plain : c ≠ CodePoint.backslash) (rest : Text) :
    decode (c :: rest) = (decode rest).map (c :: ·) :=
  decode_of_pieces (pieces_of_ne plain rest) rfl

theorem isAlphanumeric_of_isHexDigit {c : CodePoint} (hex : c.isHexDigit = true) :
    isAlphanumeric c = true := by
  simp only [CodePoint.isHexDigit, isAlphanumeric, CodePoint.isLetter, CodePoint.isDigit,
    Bool.or_eq_true, Bool.and_eq_true, decide_eq_true_eq] at *
  omega

theorem decode_numberedEscape {c : CodePoint} {width : Nat} (positive : 0 < width)
    (short : width ≤ 6) (fits : c.val < Nat.pow 16 width) (rest : Text) :
    decode (numberedEscape width c ++ rest) = (decode rest).map (c :: ·) := by
  let digits := Numeral.hexDigits width c.val
  have hex : ∀ d ∈ digits, d.isHexDigit = true := Numeral.isHexDigit_of_mem_hexDigits
  have nonempty : digits ≠ [] := by
    rw [← List.length_pos_iff, Numeral.length_hexDigits]
    exact positive
  have escape : (Piece.numbered 'x' digits).IsEscape :=
    ⟨by decide, nonempty, fun d member => isAlphanumeric_of_isHexDigit (hex d member)⟩
  have value : (Piece.numbered 'x' digits).value = .ok c := by
    apply value_of_hex
    · exact ⟨by rwa [Numeral.length_hexDigits], hex⟩
    · rw [Numeral.hexValue_hexDigits, Nat.mod_eq_of_lt fits]
  exact decode_spelling escape value rest

theorem decode_asciiChar (c : CodePoint) (rest : Text) :
    decode (asciiChar c ++ rest) = (decode rest).map (c :: ·) := by
  unfold asciiChar
  split
  · next letter found => exact decode_lettered (mem_letters_of_letter? found) rest
  · next none =>
    have bound := c.val_lt
    split
    · exact decode_plain (ne_of_letter? none).2.1 rest
    split
    · next fits => exact decode_numberedEscape (by decide) (by decide) fits rest
    split
    · next fits => exact decode_numberedEscape (by decide) (by decide) fits rest
    · have fits : c.val < 0x1000000 := by omega
      exact decode_numberedEscape (by decide) (by decide) fits rest

theorem decode_escapeToAscii (t : Text) : decode (escapeToAscii t) = .ok t := by
  induction t with
  | nil => exact decode_nil
  | cons c t ih =>
    show decode (asciiChar c ++ escapeToAscii t) = .ok (c :: t)
    rw [decode_asciiChar, ih]
    rfl

theorem escape_cons_special {c : CodePoint}
    (special : c = CodePoint.backslash ∨ c = CodePoint.doubleQuote) (t : Text) :
    escape (c :: t) = CodePoint.backslash :: c :: escape t := by
  rcases special with rfl | rfl <;> rfl

theorem escape_cons_plain {c : CodePoint} (noBackslash : c ≠ CodePoint.backslash)
    (noQuote : c ≠ CodePoint.doubleQuote) (t : Text) : escape (c :: t) = c :: escape t := by
  simp [escape, noBackslash, noQuote]

theorem decode_escape (t : Text) : decode (escape t) = .ok t := by
  induction t with
  | nil => exact decode_nil
  | cons c t ih =>
    by_cases special : c = CodePoint.backslash ∨ c = CodePoint.doubleQuote
    · have found : (c, c) ∈ letters := by rcases special with rfl | rfl <;> decide
      rw [escape_cons_special special, decode_lettered found, ih]
      rfl
    · obtain ⟨noBackslash, noQuote⟩ := not_or.mp special
      rw [escape_cons_plain noBackslash noQuote, decode_plain noBackslash, ih]
      rfl

/-- Of the printable characters both ways to write a string escape the same two, in the same way. -/
theorem escapeToAscii_of_printable {t : Text} (printable : ∀ c ∈ t, 32 ≤ c.val ∧ c.val ≤ 126) :
    escapeToAscii t = escape t := by
  induction t with
  | nil => rfl
  | cons c t ih =>
    obtain ⟨⟨low, high⟩, others⟩ := List.forall_mem_cons.mp printable
    have later := ih others
    rw [escapeToAscii] at later ⊢
    rw [List.flatMap_cons, later]
    cases found : letter? c with
    | some letter =>
      have every : ∀ entry ∈ letters, 32 ≤ entry.2.val →
          entry.1 = entry.2 ∧ (entry.2 = CodePoint.backslash ∨ entry.2 = CodePoint.doubleQuote) := by
        decide
      obtain ⟨same, special⟩ : letter = c ∧ (c = CodePoint.backslash ∨ c = CodePoint.doubleQuote) :=
        every _ (mem_letters_of_letter? found) low
      rw [asciiChar, found, same, escape_cons_special special]
      rfl
    | none =>
      obtain ⟨noQuote, noBackslash, _⟩ := ne_of_letter? found
      have plain : (decide (32 ≤ c.val) && decide (c.val < 127)) = true := by
        rw [Bool.and_eq_true, decide_eq_true_eq, decide_eq_true_eq]
        omega
      rw [escape_cons_plain noBackslash noQuote, asciiChar, found]
      simp only [plain, if_true, List.singleton_append]

theorem isBody_append {w rest : Text} (plain : ∀ c ∈ w, c ≠ CodePoint.doubleQuote ∧
    c ≠ CodePoint.backslash ∧ c ≠ CodePoint.newline) (later : rest.IsBody) : (w ++ rest).IsBody := by
  induction w with
  | nil => exact later
  | cons c w ih =>
    obtain ⟨noQuote, noBackslash, noNewline⟩ := plain c List.mem_cons_self
    exact .plain noQuote noBackslash noNewline (ih fun d member => plain d (List.mem_cons_of_mem c member))

theorem isBody_asciiChar (c : CodePoint) {rest : Text} (later : rest.IsBody) :
    (asciiChar c ++ rest).IsBody := by
  have numbered : ∀ width, (numberedEscape width c ++ rest).IsBody := by
    intro width
    have plain : ∀ d ∈ Numeral.hexDigits width c.val ++ [CodePoint.semicolon],
        d ≠ CodePoint.doubleQuote ∧ d ≠ CodePoint.backslash ∧ d ≠ CodePoint.newline := by
      intro d member
      rcases List.mem_append.mp member with member | member
      · have hex := Numeral.isHexDigit_of_mem_hexDigits d member
        refine ⟨?_, ?_, ?_⟩
        all_goals
          intro same
          subst same
          exact absurd hex (by decide)
      · cases List.mem_singleton.mp member
        decide
    exact .escaped (by decide) (isBody_append plain later)
  unfold asciiChar
  split
  · next letter found =>
    have every : ∀ entry ∈ letters, entry.1 ≠ CodePoint.newline := by decide
    exact .escaped (every _ (mem_letters_of_letter? found)) later
  · next none =>
    obtain ⟨noQuote, noBackslash, noNewline⟩ := ne_of_letter? none
    split
    · exact .plain noQuote noBackslash noNewline later
    split
    · exact numbered 2
    split
    · exact numbered 4
    · exact numbered 6

theorem isBody_escapeToAscii (t : Text) : (escapeToAscii t).IsBody := by
  induction t with
  | nil => exact .nil
  | cons c t ih => exact isBody_asciiChar c ih

theorem printable_asciiChar (c : CodePoint) : ∀ d ∈ asciiChar c, 32 ≤ d.val ∧ d.val ≤ 126 := by
  have numbered : ∀ width, ∀ d ∈ numberedEscape width c, 32 ≤ d.val ∧ d.val ≤ 126 := by
    intro width d member
    have parts : d = CodePoint.backslash ∨ d = 'x' ∨ d ∈ Numeral.hexDigits width c.val ∨
        d = CodePoint.semicolon := by
      simpa [numberedEscape] using member
    rcases parts with rfl | rfl | hex | rfl
    · decide
    · decide
    · have hex := Numeral.isHexDigit_of_mem_hexDigits d hex
      simp only [CodePoint.isHexDigit, CodePoint.isDigit, Bool.or_eq_true, Bool.and_eq_true,
        decide_eq_true_eq] at hex
      omega
    · decide
  unfold asciiChar
  split
  · next letter found =>
    have every : ∀ entry ∈ letters, 32 ≤ entry.1.val ∧ entry.1.val ≤ 126 := by decide
    intro d member
    rcases List.mem_cons.mp member with rfl | member
    · decide
    · cases List.mem_singleton.mp member
      exact every _ (mem_letters_of_letter? found)
  · split
    · next printable =>
      intro d member
      cases List.mem_singleton.mp member
      simp only [Bool.and_eq_true, decide_eq_true_eq] at printable
      omega
    split
    · exact numbered 2
    split
    · exact numbered 4
    · exact numbered 6

theorem isBody_escape {t : Text} (sameLine : CodePoint.newline ∉ t) : (escape t).IsBody := by
  induction t with
  | nil => exact .nil
  | cons c t ih =>
    obtain ⟨noNewline, later⟩ := not_or.mp (mt List.mem_cons.mpr sameLine)
    by_cases special : c = CodePoint.backslash ∨ c = CodePoint.doubleQuote
    · rw [escape_cons_special special]
      exact .escaped (Ne.symm noNewline) (ih later)
    · obtain ⟨noBackslash, noQuote⟩ := not_or.mp special
      rw [escape_cons_plain noBackslash noQuote]
      exact .plain noQuote noBackslash (Ne.symm noNewline) (ih later)

theorem newline_mem_escape_iff (t : Text) : CodePoint.newline ∈ escape t ↔ CodePoint.newline ∈ t := by
  induction t with
  | nil => rfl
  | cons c t ih =>
    by_cases special : c = CodePoint.backslash ∨ c = CodePoint.doubleQuote
    · have noEscape : CodePoint.newline ≠ CodePoint.backslash := by decide
      simp [escape_cons_special special, noEscape, ih]
    · obtain ⟨noBackslash, noQuote⟩ := not_or.mp special
      simp [escape_cons_plain noBackslash noQuote, ih]

theorem isBody_escape_iff (t : Text) : (escape t).IsBody ↔ CodePoint.newline ∉ t := by
  rw [← newline_mem_escape_iff]
  exact ⟨Text.IsBody.sameLine, fun sameLine => isBody_escape (mt (newline_mem_escape_iff t).mpr sameLine)⟩

theorem stringEnd_escape_of_newline {t : Text} (newline : CodePoint.newline ∈ t) (rest : Text) :
    Text.stringEnd false (escape t ++ rest) = .broken := by
  induction t with
  | nil => cases newline
  | cons c t ih =>
    by_cases special : c = CodePoint.backslash ∨ c = CodePoint.doubleQuote
    · have other : c ≠ CodePoint.newline := by rcases special with rfl | rfl <;> decide
      have later := ih ((List.mem_cons.mp newline).resolve_left (Ne.symm other))
      have backslash : CodePoint.backslash ≠ CodePoint.newline ∧
          CodePoint.backslash ≠ CodePoint.doubleQuote := by decide
      rw [escape_cons_special special]
      simp [Text.stringEnd, backslash, other, later, StringEnd.cons]
    · obtain ⟨noBackslash, noQuote⟩ := not_or.mp special
      rw [escape_cons_plain noBackslash noQuote]
      by_cases here : c = CodePoint.newline
      · simp [Text.stringEnd, here]
      · have later := ih ((List.mem_cons.mp newline).resolve_left (Ne.symm here))
        simp [Text.stringEnd, here, noQuote, noBackslash, later, StringEnd.cons]

end SchemeSyntax.StringBody
