import Mathlib.Algebra.Group.Nat.Even
import Mathlib.Data.List.DropRight
import SchemeSyntax.Text.StringBody

namespace SchemeSyntax.StringBody

/-- What makes an escape by number: a marker, and letters and digits in front of the semicolon. -/
structure Numbered (marker : CodePoint) (digits : Text) : Prop where
  marks : isMarker marker = true
  nonempty : digits ≠ []
  each : ∀ d ∈ digits, isAlphanumeric d = true

def Piece.IsEscape : Piece → Prop
  | plain _ => False
  | lettered letter meaning => (letter, meaning) ∈ letters
  | numbered marker digits => Numbered marker digits

/-- One to six hexadecimal digits, whatever their value is. -/
def IsHex (digits : Text) : Prop := digits.length ≤ 6 ∧ ∀ d ∈ digits, d.isHexDigit = true

instance : DecidablePred IsHex := fun _ => inferInstanceAs (Decidable (_ ∧ _))

theorem value_numbered (marker : CodePoint) (digits : Text) :
    (Piece.numbered marker digits).value =
      if IsHex digits then
        if bound : Numeral.hexValue digits < 0x110000 then .ok ⟨Numeral.hexValue digits, bound⟩
        else .error ⟨.outOfRange, (Piece.numbered marker digits).spelling⟩
      else .error ⟨.unknown, (Piece.numbered marker digits).spelling⟩ := by
  have test : (decide (digits.length ≤ 6) && digits.all CodePoint.isHexDigit) = true ↔ IsHex digits := by
    rw [Bool.and_eq_true, decide_eq_true_eq, List.all_eq_true]
    rfl
  simp only [Piece.value, test, CodePoint.ofNat?]
  by_cases bound : Numeral.hexValue digits < 0x110000
  · simp only [dif_pos bound]
  · simp only [dif_neg bound]

theorem value_of_hex {marker c : CodePoint} {digits : Text} (hex : IsHex digits)
    (number : Numeral.hexValue digits = c.val) : (Piece.numbered marker digits).value = .ok c := by
  have bound : Numeral.hexValue digits < 0x110000 := number ▸ c.val_lt
  rw [value_numbered, if_pos hex, dif_pos bound]
  exact congrArg Except.ok (CodePoint.ext number)

theorem pieces_of_ne {c : CodePoint} (plain : c ≠ CodePoint.backslash) (rest : Text) :
    pieces (c :: rest) = .plain c :: pieces rest := by
  rw [pieces, if_neg plain]

theorem pieces_of_escape? {rest later : Text} {piece : Piece}
    (found : escape? rest = some (piece, later)) :
    pieces (CodePoint.backslash :: rest) = piece :: pieces later := by
  rw [pieces, if_pos rfl]
  split
  · next other =>
    cases found.symm.trans other
    rfl
  · next other => cases found.symm.trans other

theorem numbered?_append {digits : Text} (some : digits ≠ [])
    (every : ∀ c ∈ digits, isAlphanumeric c = true) (rest : Text) :
    numbered? (digits ++ CodePoint.semicolon :: rest) = .some (digits, rest) := by
  have stop : isAlphanumeric CodePoint.semicolon = false := by decide
  have nonempty : digits.isEmpty = false := by simpa using some
  simp only [numbered?, List.takeWhile_append_of_pos every, List.dropWhile_append_of_pos every,
    List.takeWhile_cons, List.dropWhile_cons, stop]
  simp [nonempty]

theorem meaning?_eq_some_iff {letter meaning : CodePoint} :
    meaning? letter = some meaning ↔ (letter, meaning) ∈ letters := by
  constructor
  · intro found
    obtain ⟨before, after, same, _⟩ := List.lookup_eq_some_iff.mp found
    rw [same]
    exact List.mem_append_right before List.mem_cons_self
  · have every : ∀ entry ∈ letters, meaning? entry.1 = some entry.2 := by decide
    exact every _

theorem numbered_of_numbered? {t digits rest : Text} (found : numbered? t = some (digits, rest)) :
    digits ≠ [] ∧ ∀ d ∈ digits, isAlphanumeric d = true := by
  unfold numbered? at found
  cases ended : t.dropWhile isAlphanumeric with
  | nil => simp [ended] at found
  | cons c later =>
    simp only [ended, Option.ite_none_right_eq_some, Option.some.injEq, Prod.mk.injEq] at found
    obtain ⟨some, rfl, rfl⟩ := found
    refine ⟨?_, fun d member => List.mem_takeWhile_imp member⟩
    intro empty
    simp [empty] at some

theorem meaning?_of_isMarker {marker : CodePoint} (marks : isMarker marker = true) :
    meaning? marker = none := by
  simp only [isMarker, Bool.or_eq_true, decide_eq_true_eq] at marks
  rcases marks with rfl | rfl <;> decide

/-- What is found behind a backslash is what is spelled there. -/
theorem escape?_eq_some_iff {t rest : Text} {piece : Piece} :
    escape? t = some (piece, rest) ↔ piece.IsEscape ∧ piece.spelling ++ rest = CodePoint.backslash :: t := by
  constructor
  · intro found
    refine ⟨?_, spelling_escape? found⟩
    cases t with
    | nil => cases found
    | cons c later =>
      rw [escape?] at found
      split at found
      · next meaning known =>
        cases found
        exact meaning?_eq_some_iff.mp known
      · split at found
        · next marks =>
          obtain ⟨⟨digits, after⟩, numbered, same⟩ := Option.map_eq_some_iff.mp found
          cases same
          obtain ⟨nonempty, each⟩ := numbered_of_numbered? numbered
          exact ⟨marks, nonempty, each⟩
        · cases found
  · rintro ⟨escape, spelled⟩
    cases piece with
    | plain c => cases escape
    | lettered letter meaning =>
      cases spelled
      show escape? (letter :: rest) = _
      rw [escape?, meaning?_eq_some_iff.mpr escape]
    | numbered marker digits =>
      have later : t = marker :: (digits ++ CodePoint.semicolon :: rest) := by
        simpa [Piece.spelling] using spelled.symm
      obtain ⟨marks, nonempty, each⟩ := escape
      rw [later, escape?, meaning?_of_isMarker marks]
      simp only [marks, if_true, numbered?_append nonempty each, Option.map_some]

theorem Piece.IsEscape.spelling_eq {piece : Piece} (escape : piece.IsEscape) :
    ∃ rest, piece.spelling = CodePoint.backslash :: rest := by
  cases piece with
  | plain c => cases escape
  | lettered letter meaning => exact ⟨_, rfl⟩
  | numbered marker digits => exact ⟨_, rfl⟩

theorem pieces_spelling {piece : Piece} (escape : piece.IsEscape) (rest : Text) :
    pieces (piece.spelling ++ rest) = piece :: pieces rest := by
  obtain ⟨behind, same⟩ := escape.spelling_eq
  have found : escape? (behind ++ rest) = some (piece, rest) := by
    rw [escape?_eq_some_iff, same]
    exact ⟨escape, rfl⟩
  rw [same, List.cons_append, pieces_of_escape? found]

theorem numbered?_append_backslash (t rest : Text) :
    numbered? (t ++ CodePoint.backslash :: rest) =
      (numbered? t).map fun found => (found.1, found.2 ++ CodePoint.backslash :: rest) := by
  have stops : isAlphanumeric CodePoint.backslash = false := by decide
  have other : CodePoint.backslash ≠ CodePoint.semicolon := by decide
  unfold numbered?
  cases ended : t.dropWhile isAlphanumeric with
  | nil =>
    have every : ∀ c ∈ t, isAlphanumeric c = true := List.dropWhile_eq_nil_iff.mp ended
    simp [List.dropWhile_append_of_pos every, stops, other]
  | cons c later =>
    have taken : (t ++ CodePoint.backslash :: rest).takeWhile isAlphanumeric =
        t.takeWhile isAlphanumeric := by
      have shorter : (t.takeWhile isAlphanumeric).length ≠ t.length := by
        have lengths := congrArg List.length (List.takeWhile_append_dropWhile (p := isAlphanumeric) (l := t))
        rw [List.length_append, ended, List.length_cons] at lengths
        omega
      rw [List.takeWhile_append, if_neg shorter]
    have dropped : (t ++ CodePoint.backslash :: rest).dropWhile isAlphanumeric =
        c :: (later ++ CodePoint.backslash :: rest) := by
      rw [List.dropWhile_append, ended]
      rfl
    rw [taken, dropped]
    dsimp only
    split <;> rfl

/-- No escape goes on past a backslash that is not its second character. -/
theorem escape?_append_backslash {t : Text} (nonempty : t ≠ []) (rest : Text) :
    escape? (t ++ CodePoint.backslash :: rest) =
      (escape? t).map fun found => (found.1, found.2 ++ CodePoint.backslash :: rest) := by
  cases t with
  | nil => exact absurd rfl nonempty
  | cons c later =>
    rw [List.cons_append, escape?, escape?]
    cases meaning? c with
    | some meaning => rfl
    | none =>
      dsimp only
      split
      · rw [numbered?_append_backslash, Option.map_map, Option.map_map]
        rfl
      · rfl

/-- Whether a backslash behind the text can begin an escape: those directly in front of it take each
    other up in pairs. -/
def Active (before : Text) : Prop := Even (before.rtakeWhile (· = CodePoint.backslash)).length

instance : DecidablePred Active := fun _ => inferInstanceAs (Decidable (Even _))

theorem active_nil : Active [] := ⟨0, rfl⟩

theorem active_concat_iff {c : CodePoint} (before : Text) :
    Active (before ++ [c]) ↔ (c = CodePoint.backslash → ¬ Active before) := by
  by_cases same : c = CodePoint.backslash
  · simp [Active, same, Nat.even_add_one]
  · simp [Active, same]

theorem Active.append_iff {before : Text} (active : Active before) (later : Text) :
    Active (before ++ later) ↔ Active later := by
  induction later using List.reverseRecOn with
  | nil => simp [active, active_nil]
  | append_singleton later c ih =>
    rw [← List.append_assoc, active_concat_iff, active_concat_iff, ih]

theorem active_append_cons_iff {c : CodePoint} (other : c ≠ CodePoint.backslash) (before later : Text) :
    Active (before ++ c :: later) ↔ Active later := by
  have stopped : Active (before ++ [c]) := (active_concat_iff before).mpr fun same => absurd same other
  rw [List.append_cons, stopped.append_iff]

theorem active_cons_cons_iff {c : CodePoint} (other : c ≠ CodePoint.backslash) (first : CodePoint)
    (later : Text) : Active (first :: c :: later) ↔ Active (c :: later) :=
  (active_append_cons_iff other [first] later).trans (active_append_cons_iff other [] later).symm

theorem Piece.IsEscape.active {piece : Piece} (escape : piece.IsEscape) : Active piece.spelling := by
  cases piece with
  | plain c => cases escape
  | lettered letter meaning =>
    have single : ¬ Active [CodePoint.backslash] := by decide
    exact (active_concat_iff [CodePoint.backslash]).mpr fun _ => single
  | numbered marker digits =>
    exact (active_concat_iff (CodePoint.backslash :: marker :: digits)).mpr fun other => absurd other (by decide)

theorem ne_backslash_of_escape?_eq_none {c : CodePoint} {rest : Text} (none : escape? (c :: rest) = none) :
    c ≠ CodePoint.backslash := by
  rintro rfl
  cases none

theorem pieces_of_escape?_eq_none {rest : Text} (none : escape? rest = .none) :
    pieces (CodePoint.backslash :: rest) = .plain CodePoint.backslash :: pieces rest := by
  rw [pieces, if_pos rfl]
  split
  · next found => cases none.symm.trans found
  · rfl

/-- The pieces in front of an active backslash are those of the text in front of it. -/
theorem pieces_append_of_active {before : Text} (active : Active before) (rest : Text) :
    pieces (before ++ CodePoint.backslash :: rest) =
      pieces before ++ pieces (CodePoint.backslash :: rest) := by
  fun_induction pieces before with
  | case1 => rfl
  | case2 t piece later found ih =>
    have nonempty : t ≠ [] := by
      rintro rfl
      cases found
    obtain ⟨escape, spelled⟩ := escape?_eq_some_iff.mp found
    rw [← spelled, escape.active.append_iff] at active
    have longer : escape? (t ++ CodePoint.backslash :: rest) =
        some (piece, later ++ CodePoint.backslash :: rest) := by
      rw [escape?_append_backslash nonempty, found]
      rfl
    rw [List.cons_append, pieces_of_escape? longer, ih active]
    rfl
  | case3 t none ih =>
    cases t with
    | nil => exact absurd active (by decide)
    | cons c later =>
      have other := ne_backslash_of_escape?_eq_none none
      have behind : Active (c :: later) := (active_cons_cons_iff other _ _).mp active
      have longer : escape? (c :: later ++ CodePoint.backslash :: rest) = .none := by
        rw [escape?_append_backslash (List.cons_ne_nil c later), none]
        rfl
      rw [List.cons_append, pieces_of_escape?_eq_none longer, ih behind]
      rfl
  | case4 c t other ih =>
    have behind : Active t := (active_append_cons_iff other [] t).mp active
    rw [List.cons_append, pieces_of_ne other, ih behind]
    rfl

theorem isEscape_of_mem_pieces {body : Text} {piece : Piece} (member : piece ∈ pieces body) :
    piece.IsEscape ∨ ∃ c, piece = .plain c := by
  fun_induction pieces body with
  | case1 => cases member
  | case2 t first later found ih =>
    rcases List.mem_cons.mp member with rfl | member
    · exact .inl (escape?_eq_some_iff.mp found).1
    · exact ih member
  | case3 t _ ih =>
    rcases List.mem_cons.mp member with rfl | member
    · exact .inr ⟨_, rfl⟩
    · exact ih member
  | case4 c t _ ih =>
    rcases List.mem_cons.mp member with rfl | member
    · exact .inr ⟨_, rfl⟩
    · exact ih member

/-- What is taken for an escape is begun by an active backslash. -/
theorem active_of_pieces {body : Text} {front back : List Piece} {piece : Piece}
    (split : pieces body = front ++ piece :: back) (escape : piece.IsEscape) :
    Active (front.flatMap Piece.spelling) := by
  fun_induction pieces body generalizing front with
  | case1 => simp at split
  | case2 t first later found ih =>
    cases front with
    | nil => exact active_nil
    | cons other front =>
      obtain ⟨rfl, behind⟩ := List.cons.inj split
      exact ((escape?_eq_some_iff.mp found).1.active.append_iff _).mpr (ih behind)
  | case3 t none ih =>
    cases front with
    | nil =>
      obtain ⟨rfl, _⟩ := List.cons.inj split
      cases escape
    | cons other front =>
      rw [List.cons_append] at split
      obtain ⟨rfl, behind⟩ := List.cons.inj split
      have later := ih behind
      have spelled := spelling_pieces t
      rw [behind, List.flatMap_append, List.flatMap_cons] at spelled
      -- A backslash here would have begun an escape together with the one in front of it.
      cases before : front.flatMap Piece.spelling with
      | nil =>
        obtain ⟨rest, same⟩ := escape.spelling_eq
        rw [before, same] at spelled
        rw [← spelled] at none
        cases none
      | cons c text =>
        rw [before] at spelled later
        rw [← spelled] at none
        have other := ne_backslash_of_escape?_eq_none none
        show Active (CodePoint.backslash :: List.flatMap Piece.spelling front)
        rw [before]
        exact (active_cons_cons_iff other _ _).mpr later
  | case4 c t other ih =>
    cases front with
    | nil => exact active_nil
    | cons first front =>
      obtain ⟨rfl, behind⟩ := List.cons.inj split
      exact (active_append_cons_iff other [] _).mpr (ih behind)

/-- Behind an active backslash, an escape that is spelled there is one of the pieces. -/
theorem pieces_of_active {before : Text} {piece : Piece} (active : Active before)
    (escape : piece.IsEscape) (after : Text) :
    pieces (before ++ piece.spelling ++ after) = pieces before ++ piece :: pieces after := by
  obtain ⟨behind, same⟩ := escape.spelling_eq
  have split := pieces_append_of_active active (behind ++ after)
  rw [← List.cons_append, ← same, pieces_spelling escape] at split
  rw [List.append_assoc, split]

end SchemeSyntax.StringBody
