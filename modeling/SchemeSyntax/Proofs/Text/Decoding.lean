import SchemeSyntax.Form.Partial
import SchemeSyntax.Proofs.Text.Escape
import SchemeSyntax.Proofs.Traversal

namespace SchemeSyntax

namespace StringBody

/-- The spelling of an escape that stands for a character. -/
inductive Escape : Text → CodePoint → Prop
  | lettered {letter meaning : CodePoint} (listed : (letter, meaning) ∈ letters) :
      Escape (Piece.lettered letter meaning).spelling meaning
  | numbered {marker c : CodePoint} {digits : Text} (numbered : Numbered marker digits)
      (hex : IsHex digits) (value : Numeral.hexValue digits = c.val) :
      Escape (Piece.numbered marker digits).spelling c

/-- An active backslash begins an escape by number there, and no code point has that number. -/
structure FailsAt (body before : Text) (marker : CodePoint) (digits : Text) : Prop where
  active : Active before
  written : before ++ (Piece.numbered marker digits).spelling <+: body
  numbered : Numbered marker digits
  unassigned : ¬ (IsHex digits ∧ Numeral.hexValue digits ≤ 0x10FFFF)

/-- The parts of a body, each with the character that it stands for. The escapes that active
    backslashes begin are parts, and any other part is a character by itself. -/
structure Division (body : Text) (parts : List (Text × CodePoint)) : Prop where
  whole : parts.flatMap Prod.fst = body
  part : ∀ front part back, parts = front ++ part :: back →
    part.1 = [part.2] ∨ Active (front.flatMap Prod.fst) ∧ Escape part.1 part.2
  escape : ∀ before spelling c, Active before → Escape spelling c → before ++ spelling <+: body →
    ∃ front back, parts = front ++ (spelling, c) :: back ∧ front.flatMap Prod.fst = before

theorem escape_of_value {piece : Piece} {c : CodePoint} (escape : piece.IsEscape)
    (value : piece.value = .ok c) : Escape piece.spelling c := by
  cases piece with
  | plain c => cases escape
  | lettered letter meaning =>
    cases value
    exact .lettered escape
  | numbered marker digits =>
    rw [value_numbered] at value
    split at value
    · next hex =>
      split at value
      · cases value
        exact .numbered escape hex rfl
      · cases value
    · cases value

theorem exists_piece_of_escape {spelling : Text} {c : CodePoint} (escape : Escape spelling c) :
    ∃ piece : Piece, piece.IsEscape ∧ piece.spelling = spelling ∧ piece.value = .ok c := by
  cases escape with
  | @lettered letter _ listed => exact ⟨.lettered letter c, listed, rfl, rfl⟩
  | @numbered marker c digits numbered hex value =>
    exact ⟨.numbered marker digits, numbered, rfl, value_of_hex hex value⟩

theorem FailsAt.value {body before digits : Text} {marker : CodePoint}
    (fails : FailsAt body before marker digits) : (Piece.numbered marker digits).value =
      .error ⟨if IsHex digits then .outOfRange else .unknown, (Piece.numbered marker digits).spelling⟩ := by
  rw [value_numbered]
  by_cases hex : IsHex digits
  · have large : ¬ Numeral.hexValue digits < 0x110000 := fun small =>
      fails.unassigned ⟨hex, Nat.le_of_lt_succ small⟩
    rw [if_pos hex, if_pos hex, dif_neg large]
  · rw [if_neg hex, if_neg hex]

/-- What is no code point is an escape by number. -/
theorem exists_numbered_of_value {piece : Piece} {fault : EscapeFault} (fails : piece.value = .error fault) :
    ∃ marker digits, piece = .numbered marker digits ∧
      ¬ (IsHex digits ∧ Numeral.hexValue digits ≤ 0x10FFFF) := by
  cases piece with
  | plain c => cases fails
  | lettered letter meaning => cases fails
  | numbered marker digits =>
    refine ⟨marker, digits, rfl, ?_⟩
    rintro ⟨hex, small⟩
    rw [value_of_hex (c := ⟨_, Nat.lt_succ_of_le small⟩) hex rfl] at fails
    cases fails

theorem FailsAt.pieces {body before digits : Text} {marker : CodePoint}
    (fails : FailsAt body before marker digits) : ∃ after, StringBody.pieces body =
      StringBody.pieces before ++ .numbered marker digits :: StringBody.pieces after := by
  obtain ⟨after, rfl⟩ := fails.written
  have escape : (Piece.numbered marker digits).IsEscape := fails.numbered
  exact ⟨after, pieces_of_active fails.active escape after⟩

theorem FailsAt.not_mem {body before digits value : Text} {marker : CodePoint} {accepted : List Piece}
    (fails : FailsAt body before marker digits) (decoded : accepted.mapM Piece.value = .ok value) :
    Piece.numbered marker digits ∉ accepted := by
  intro member
  obtain ⟨c, given⟩ := exists_value_of_mem decoded member
  cases fails.value.symm.trans given

theorem decode_of_failsAt {body before digits : Text} {marker : CodePoint}
    (fails : FailsAt body before marker digits) : ∃ fault, decode body = .error fault := by
  cases decoded : decode body with
  | error fault => exact ⟨fault, rfl⟩
  | ok value =>
    obtain ⟨after, split⟩ := fails.pieces
    exact absurd (List.mem_iff_append.mpr ⟨_, _, split⟩) (fails.not_mem decoded)

/-- No escape fails in front of pieces that are accepted. -/
theorem FailsAt.length_le {body before digits value : Text} {marker : CodePoint} {front back : List Piece}
    {piece : Piece} (fails : FailsAt body before marker digits) (split : StringBody.pieces body = front ++ piece :: back)
    (decoded : front.mapM Piece.value = .ok value) :
    (front.flatMap Piece.spelling).length ≤ before.length := by
  obtain ⟨after, divided⟩ := fails.pieces
  rw [split] at divided
  rcases List.append_eq_append_iff.mp divided with ⟨between, longer, _⟩ | ⟨between, shorter, behind⟩
  · have spelled := spelling_pieces before
    rw [longer, List.flatMap_append] at spelled
    rw [← spelled, List.length_append]
    exact Nat.le_add_right _ _
  · cases between with
    | nil => rw [shorter, List.append_nil, spelling_pieces]
    | cons first between =>
      obtain ⟨rfl, _⟩ := List.cons.inj behind
      exact absurd (List.mem_iff_append.mpr ⟨_, _, shorter⟩) (fails.not_mem decoded)

/-- The first escape that fails is blamed. -/
theorem exists_first_failsAt {body : Text} {fault : EscapeFault} (failed : decode body = .error fault) :
    ∃ before marker digits, FailsAt body before marker digits ∧
      (∀ {earlier other letters}, FailsAt body earlier other letters → before.length ≤ earlier.length) ∧
        fault = ⟨if IsHex digits then .outOfRange else .unknown, (Piece.numbered marker digits).spelling⟩ := by
  obtain ⟨front, piece, back, values, split, decoded, refused⟩ := exists_first_of_mapM failed
  obtain ⟨marker, digits, rfl, unassigned⟩ := exists_numbered_of_value refused
  have member : Piece.numbered marker digits ∈ pieces body := List.mem_iff_append.mpr ⟨_, _, split⟩
  have numbered : Numbered marker digits := by
    rcases isEscape_of_mem_pieces member with escape | ⟨c, same⟩
    · exact escape
    · cases same
  have spelled := spelling_pieces body
  rw [split, List.flatMap_append, List.flatMap_cons, ← List.append_assoc] at spelled
  have fails : FailsAt body (front.flatMap Piece.spelling) marker digits :=
    ⟨active_of_pieces split numbered, ⟨_, spelled⟩, numbered, unassigned⟩
  exact ⟨_, marker, digits, fails, fun other => other.length_le split decoded,
    Except.error.inj (refused.symm.trans fails.value)⟩

/-- A piece as it is written, with the character that it stands for. -/
def Piece.part (pair : Piece × CodePoint) : Text × CodePoint := (pair.1.spelling, pair.2)

theorem flatMap_part (pairs : List (Piece × CodePoint)) :
    (pairs.map Piece.part).flatMap Prod.fst = (pairs.map Prod.fst).flatMap Piece.spelling := by
  rw [List.flatMap_map, List.flatMap_map]
  rfl

theorem division_of_pairs {body : Text} {pairs : List (Piece × CodePoint)}
    (same : pairs.map Prod.fst = pieces body) (each : ∀ pair ∈ pairs, pair.1.value = .ok pair.2) :
    Division body (pairs.map Piece.part) where
  whole := by rw [flatMap_part, same, spelling_pieces]
  part := by
    intro front single back divided
    obtain ⟨before, later, rfl, rfl, others⟩ := List.map_eq_append_iff.mp divided
    obtain ⟨pair, after, rfl, rfl, rfl⟩ := List.map_eq_cons_iff.mp others
    have value := each pair (List.mem_append_right _ List.mem_cons_self)
    rw [List.map_append, List.map_cons] at same
    have member : pair.1 ∈ pieces body := List.mem_iff_append.mpr ⟨_, _, same.symm⟩
    rcases isEscape_of_mem_pieces member with escape | ⟨c, plain⟩
    · right
      rw [flatMap_part]
      exact ⟨active_of_pieces same.symm escape, escape_of_value escape value⟩
    · left
      rw [plain] at value
      have kept : c = pair.2 := Except.ok.inj value
      rw [Piece.part, plain, kept]
      rfl
  escape := by
    intro before spelling c active escape written
    obtain ⟨piece, isEscape, rfl, value⟩ := exists_piece_of_escape escape
    obtain ⟨after, rfl⟩ := written
    rw [pieces_of_active active isEscape] at same
    obtain ⟨front, later, rfl, first, others⟩ := List.map_eq_append_iff.mp same
    obtain ⟨pair, back, rfl, rfl, _⟩ := List.map_eq_cons_iff.mp others
    have known : pair.2 = c := by
      have given := each pair (List.mem_append_right _ List.mem_cons_self)
      exact Except.ok.inj (given.symm.trans value)
    refine ⟨front.map Piece.part, back.map Piece.part, ?_, ?_⟩
    · rw [List.map_append, List.map_cons, Piece.part, known]
    · rw [flatMap_part, first, spelling_pieces]

theorem exists_division {body value : Text} (decoded : decode body = .ok value) :
    ∃ parts, Division body parts ∧ parts.map Prod.snd = value := by
  obtain ⟨pairs, same, rfl, each⟩ := exists_pairs_of_mapM decoded
  exact ⟨_, division_of_pairs same each, List.map_map⟩

theorem Division.eq_of_no_escape {body : Text} {parts : List (Text × CodePoint)} (division : Division body parts)
    (none : ∀ before spelling c, Active before → before ++ spelling <+: body → ¬ Escape spelling c) :
    parts.map Prod.snd = body := by
  have single : ∀ part ∈ parts, part.1 = [part.2] := by
    intro part member
    obtain ⟨front, back, split⟩ := List.append_of_mem member
    rcases division.part front part back split with plain | ⟨active, escape⟩
    · exact plain
    · have written : front.flatMap Prod.fst ++ part.1 <+: body := by
        rw [← division.whole, split, List.flatMap_append, List.flatMap_cons, ← List.append_assoc]
        exact List.prefix_append _ _
      exact absurd escape (none _ _ _ active written)
  rw [← division.whole, List.map_eq_flatMap]
  exact (List.flatMap_congr single).symm

end StringBody

theorem Token.decodeString_eq_ok_iff {token : Token} {value : Text} :
    token.decodeString = .ok value ↔ StringBody.decode token.text = .ok value := by
  unfold decodeString
  cases StringBody.decode token.text <;> simp [Except.mapError]

theorem Token.decodeString_eq_error_iff {token : Token} {fault : ReadFault} :
    token.decodeString = .error fault ↔
      ∃ wrong, StringBody.decode token.text = .error wrong ∧ fault = ⟨.badEscape wrong, token⟩ := by
  unfold decodeString
  cases StringBody.decode token.text <;> simp [Except.mapError, eq_comm]

/-- Decoding fails exactly when some active backslash begins an escape by number that no code point
    has, and it blames the first of them. When it succeeds, each escape that an active backslash begins
    has become the character that it stands for, and all others stand as they are. -/
theorem decodeString_outcome (token : Token) :
    ((∃ fault, token.decodeString = .error fault) ↔
      ∃ before marker digits, StringBody.FailsAt token.text before marker digits) ∧
    (∀ fault, token.decodeString = .error fault → ∃ before marker digits,
      StringBody.FailsAt token.text before marker digits ∧
        (∀ earlier other letters, StringBody.FailsAt token.text earlier other letters →
          before.length ≤ earlier.length) ∧
        fault.token = token ∧ fault.message =
          (if StringBody.IsHex digits then Text.ofString "Invalid character code in: "
            else Text.ofString "Unknown character name: ") ++
          (StringBody.Piece.numbered marker digits).spelling ++ Text.ofString ".") ∧
    (∀ value, token.decodeString = .ok value →
      ∃ parts, StringBody.Division token.text parts ∧ parts.map Prod.snd = value) ∧
    ((∀ before spelling c, StringBody.Active before → before ++ spelling <+: token.text →
      ¬ StringBody.Escape spelling c) → ∀ value, token.decodeString = .ok value → value = token.text) := by
  refine ⟨⟨?_, ?_⟩, ?_, ?_, ?_⟩
  · rintro ⟨fault, failed⟩
    obtain ⟨wrong, refused, _⟩ := Token.decodeString_eq_error_iff.mp failed
    obtain ⟨before, marker, digits, fails, _⟩ := StringBody.exists_first_failsAt refused
    exact ⟨before, marker, digits, fails⟩
  · rintro ⟨before, marker, digits, fails⟩
    obtain ⟨wrong, refused⟩ := StringBody.decode_of_failsAt fails
    exact ⟨_, Token.decodeString_eq_error_iff.mpr ⟨wrong, refused, rfl⟩⟩
  · intro fault failed
    obtain ⟨wrong, refused, rfl⟩ := Token.decodeString_eq_error_iff.mp failed
    obtain ⟨before, marker, digits, fails, first, rfl⟩ := StringBody.exists_first_failsAt refused
    refine ⟨before, marker, digits, fails, fun _ _ _ => first, rfl, ?_⟩
    by_cases hex : StringBody.IsHex digits
    · rw [if_pos hex, if_pos hex]
      rfl
    · rw [if_neg hex, if_neg hex]
      rfl
  · intro value accepted
    exact StringBody.exists_division (Token.decodeString_eq_ok_iff.mp accepted)
  · intro none value accepted
    obtain ⟨parts, division, rfl⟩ := StringBody.exists_division (Token.decodeString_eq_ok_iff.mp accepted)
    exact division.eq_of_no_escape none

theorem decodeString_outcome_doubled :
    (∃ fault before marker digits,
      Token.decodeString ⟨.string, "\\\\x41;\\x110000;\\xZZ;", none⟩ = .error fault ∧
        StringBody.FailsAt "\\\\x41;\\x110000;\\xZZ;" before marker digits ∧ before.length ≤ 6 ∧
          fault.message = (if StringBody.IsHex digits then Text.ofString "Invalid character code in: "
            else Text.ofString "Unknown character name: ") ++
            (StringBody.Piece.numbered marker digits).spelling ++ Text.ofString ".") ∧
    (∃ parts, StringBody.Division "\\\\x41;\\xe9;" parts ∧
      parts.map Prod.snd = Text.ofString "\\x41;é") ∧
    ∀ value, Token.decodeString ⟨.string, "\\q", none⟩ = .ok value → value = "\\q" := by
  refine ⟨?_, ?_, ?_⟩
  · obtain ⟨rejects, blames, _⟩ := decodeString_outcome ⟨.string, "\\\\x41;\\x110000;\\xZZ;", none⟩
    have fails : StringBody.FailsAt "\\\\x41;\\x110000;\\xZZ;" "\\\\x41;" 'x' "110000" :=
      ⟨by decide, ⟨"\\xZZ;", by decide⟩, ⟨by decide, by decide, by decide⟩, by decide⟩
    obtain ⟨fault, failed⟩ := rejects.mpr ⟨_, _, _, fails⟩
    obtain ⟨before, marker, digits, first, least, _, message⟩ := blames fault failed
    exact ⟨fault, before, marker, digits, failed, first, least _ _ _ fails, message⟩
  · obtain ⟨_, _, divides, _⟩ := decodeString_outcome ⟨.string, "\\\\x41;\\xe9;", none⟩
    have decoded : StringBody.decode "\\\\x41;\\xe9;" = .ok "\\x41;é" := by
      have written : StringBody.escapeToAscii "\\x41;é" = Text.ofString "\\\\x41;\\xe9;" := by decide
      rw [← written]
      exact StringBody.decode_escapeToAscii _
    exact divides _ (Token.decodeString_eq_ok_iff.mpr decoded)
  · obtain ⟨_, _, _, keeps⟩ := decodeString_outcome ⟨.string, "\\q", none⟩
    apply keeps
    intro before spelling c active written escape
    have short : before.length + spelling.length ≤ 2 := by
      rw [← List.length_append]
      exact written.length_le
    cases escape with
    | @lettered letter _ listed =>
      have alone : before = [] := List.length_eq_zero_iff.mp (Nat.le_zero.mp (Nat.le_of_add_le_add_right short))
      rw [alone] at written
      have same : letter = 'q' := (List.cons_prefix_cons.mp (List.cons_prefix_cons.mp written).2).1
      rw [same, ← StringBody.meaning?_eq_some_iff] at listed
      cases listed
    | numbered _ _ _ =>
      simp only [StringBody.Piece.spelling, List.cons_append, List.length_cons, List.length_append] at short
      omega

end SchemeSyntax
