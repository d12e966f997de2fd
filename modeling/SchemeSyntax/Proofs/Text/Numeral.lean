import Mathlib.Data.List.Induction
import Mathlib.Data.Nat.Digits.Defs
import SchemeSyntax.Text.Numeral

namespace SchemeSyntax.Numeral

theorem isDigit_digit (n : Nat) : (digit n).isDigit = true := by
  have bound : 48 + n % 10 ≤ 57 := by omega
  simp [digit, CodePoint.isDigit, bound]

theorem digitsBefore_of_lt {n : Nat} (short : n < 10) (rest : Text) :
    digitsBefore n rest = digit n :: rest := by
  rw [digitsBefore, if_pos short]

theorem digitsBefore_of_le {n : Nat} (long : 10 ≤ n) (rest : Text) :
    digitsBefore n rest = digitsBefore (n / 10) (digit n :: rest) := by
  rw [digitsBefore, if_neg (by omega)]

theorem digitsBefore_append (n : Nat) (rest : Text) : digitsBefore n rest = ofNat n ++ rest := by
  unfold ofNat
  induction n using Nat.strongRecOn generalizing rest with
  | ind n ih =>
    by_cases short : n < 10
    · rw [digitsBefore_of_lt short, digitsBefore_of_lt short, List.singleton_append]
    · have long : 10 ≤ n := by omega
      have smaller : n / 10 < n := by omega
      rw [digitsBefore_of_le long rest, digitsBefore_of_le long [], ih _ smaller,
        ih _ smaller [digit n], List.append_assoc, List.singleton_append]

theorem ofNat_of_lt {n : Nat} (short : n < 10) : ofNat n = [digit n] := digitsBefore_of_lt short []

theorem ofNat_of_le {n : Nat} (long : 10 ≤ n) : ofNat n = ofNat (n / 10) ++ [digit n] := by
  rw [ofNat, digitsBefore_of_le long, digitsBefore_append]

theorem ofNat_ne_nil (n : Nat) : ofNat n ≠ [] := by
  by_cases short : n < 10
  · rw [ofNat_of_lt short]
    nofun
  · rw [ofNat_of_le (by omega)]
    simp

theorem isDigit_of_mem_ofNat {n : Nat} : ∀ c ∈ ofNat n, c.isDigit = true := by
  induction n using Nat.strongRecOn with
  | ind n ih =>
    by_cases short : n < 10
    · rw [ofNat_of_lt short]
      intro c member
      cases List.mem_singleton.mp member
      exact isDigit_digit n
    · rw [ofNat_of_le (by omega)]
      intro c member
      rcases List.mem_append.mp member with member | member
      · exact ih (n / 10) (by omega) c member
      · cases List.mem_singleton.mp member
        exact isDigit_digit n

theorem natValue_append (digits : Text) (c : CodePoint) :
    natValue (digits ++ [c]) = 10 * natValue digits + (c.val - 48) := by
  simp [natValue]

theorem natValue_ofNat (n : Nat) : natValue (ofNat n) = n := by
  induction n using Nat.strongRecOn with
  | ind n ih =>
    have last : (digit n).val - 48 = n % 10 := by simp [digit]
    by_cases short : n < 10
    · rw [ofNat_of_lt short, ← List.nil_append [digit n], natValue_append, last]
      show 10 * 0 + n % 10 = n
      omega
    · rw [ofNat_of_le (by omega), natValue_append, ih (n / 10) (by omega), last]
      omega

theorem intValue_of_isDigit {digits : Text} (every : ∀ c ∈ digits, c.isDigit = true) :
    intValue digits = natValue digits := by
  cases digits with
  | nil => rfl
  | cons c rest =>
    have first := every c List.mem_cons_self
    have noHyphen : c ≠ CodePoint.hyphen := by
      intro same
      subst same
      exact absurd first (by decide)
    have noPlus : c ≠ '+' := by
      intro same
      subst same
      exact absurd first (by decide)
    simp [intValue, noHyphen, noPlus]

theorem intValue_ofInt (value : Int) : intValue (ofInt value) = value := by
  cases value with
  | ofNat n =>
    rw [ofInt, intValue_of_isDigit isDigit_of_mem_ofNat, natValue_ofNat]
    rfl
  | negSucc n =>
    simp only [ofInt, intValue, if_true, natValue_ofNat]
    rfl

/-- The value of digits by their places: the last counts ones, the one in front of it tens, and so on. -/
def placeValue (digits : Text) : Nat := Nat.ofDigits 10 (digits.reverse.map fun c => c.val - 48)

/-- Decimal digits behind a sign or none, with the integer that they stand for. -/
inductive Decimal : Text → Int → Prop
  | plus (digits : Text) : Decimal ('+' :: digits) (placeValue digits)
  | minus (digits : Text) : Decimal (CodePoint.hyphen :: digits) (-placeValue digits)
  | unsigned {digits : Text} (bare : ∀ sign ∈ digits.head?, sign ≠ '+' ∧ sign ≠ CodePoint.hyphen) :
      Decimal digits (placeValue digits)

theorem natValue_eq_placeValue (digits : Text) : natValue digits = placeValue digits := by
  induction digits using List.reverseRecOn with
  | nil => rfl
  | append_singleton digits c ih =>
    have places : placeValue (digits ++ [c]) = (c.val - 48) + 10 * placeValue digits := by
      simp [placeValue, Nat.ofDigits_cons]
    rw [natValue_append, places, ih, Nat.add_comm]

theorem decimal_iff {text : Text} {value : Int} : Decimal text value ↔ intValue text = value := by
  constructor
  · intro decimal
    cases decimal with
    | plus digits =>
      have noHyphen : ('+' : CodePoint) ≠ CodePoint.hyphen := by decide
      rw [intValue, if_neg noHyphen, if_pos rfl, natValue_eq_placeValue]
    | minus digits => rw [intValue, if_pos rfl, natValue_eq_placeValue]
    | unsigned bare =>
      cases text with
      | nil => rfl
      | cons c digits =>
        obtain ⟨noPlus, noHyphen⟩ := bare c rfl
        rw [intValue, if_neg noHyphen, if_neg noPlus, natValue_eq_placeValue]
  · intro same
    subst same
    cases text with
    | nil => exact .unsigned nofun
    | cons c digits =>
      rw [intValue]
      split
      · next hyphen =>
        rw [hyphen, natValue_eq_placeValue]
        exact .minus digits
      next noHyphen =>
      split
      · next plus =>
        rw [plus, natValue_eq_placeValue]
        exact .plus digits
      · next noPlus =>
        rw [natValue_eq_placeValue]
        refine .unsigned fun sign first => ?_
        cases first
        exact ⟨noPlus, noHyphen⟩

theorem ofInt_injective {left right : Int} (same : ofInt left = ofInt right) : left = right := by
  rw [← intValue_ofInt left, same, intValue_ofInt]

theorem isHexDigit_hexDigit (n : Nat) : (hexDigit n).isHexDigit = true := by
  have bound : n % 16 < 16 := Nat.mod_lt n (by decide)
  unfold hexDigit
  split
  · next low =>
    have digit : 48 + n % 16 ≤ 57 := by omega
    simp [CodePoint.isHexDigit, CodePoint.isDigit, digit]
  · next high =>
    have letter : 97 ≤ 87 + n % 16 ∧ 87 + n % 16 ≤ 102 := by omega
    simp [CodePoint.isHexDigit, letter]

theorem hexDigitValue_hexDigit (n : Nat) : hexDigitValue (hexDigit n) = n % 16 := by
  have bound : n % 16 < 16 := Nat.mod_lt n (by decide)
  unfold hexDigit
  split
  · next low =>
    have digit : 48 + n % 16 ≤ 57 := by omega
    simp [hexDigitValue, CodePoint.isDigit, digit]
  · next high =>
    have letter : ¬ 87 + n % 16 ≤ 57 ∧ ¬ 87 + n % 16 < 97 := by omega
    simp [hexDigitValue, CodePoint.isDigit, letter]

theorem length_hexDigits (width n : Nat) : (hexDigits width n).length = width := by
  induction width generalizing n with
  | zero => rfl
  | succ width ih => rw [hexDigits, List.length_append, ih, List.length_singleton]

theorem isHexDigit_of_mem_hexDigits {width n : Nat} :
    ∀ c ∈ hexDigits width n, c.isHexDigit = true := by
  induction width generalizing n with
  | zero => exact nofun
  | succ width ih =>
    intro c member
    rcases List.mem_append.mp member with member | member
    · exact ih c member
    · cases List.mem_singleton.mp member
      exact isHexDigit_hexDigit n

theorem hexValue_hexDigits (width n : Nat) :
    hexValue (hexDigits width n) = n % Nat.pow 16 width := by
  induction width generalizing n with
  | zero =>
    have nothing : n % Nat.pow 16 0 = 0 := Nat.mod_one n
    rw [nothing]
    rfl
  | succ width ih =>
    have split : hexValue (hexDigits width (n / 16) ++ [hexDigit n]) =
        16 * hexValue (hexDigits width (n / 16)) + hexDigitValue (hexDigit n) := by
      simp [hexValue]
    have larger : Nat.pow 16 (width + 1) = 16 * Nat.pow 16 width := Nat.mul_comm _ 16
    rw [hexDigits, split, ih, hexDigitValue_hexDigit, larger, Nat.mod_mul]
    omega

end SchemeSyntax.Numeral
