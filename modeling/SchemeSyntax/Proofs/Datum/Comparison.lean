import SchemeSyntax.Proofs.Datum.Store

namespace SchemeSyntax

theorem Atom.eq_of_sameValue {a b : Atom} (same : a.sameValue b = true) : a = b := by
  unfold sameValue at same
  split at same
  · exact congrArg number (of_decide_eq_true same)
  · exact congrArg string (of_decide_eq_true same)
  · cases same

/-- There is one object for each atom that is not compared by its value. -/
theorem Atom.sameValue_self {a : Atom} (unshared : a.isShared ≠ true) : a.sameValue a = true := by
  cases a with
  | null => exact absurd rfl unshared
  | boolean value => exact absurd rfl unshared
  | symbol name => exact absurd rfl unshared
  | number value => exact decide_eq_true rfl
  | string value => exact decide_eq_true rfl

theorem Datum.same_iff (a b : Datum) : same a b = true ↔ a = b := by
  induction a generalizing b with
  | atom a => cases b <;> simp [same]
  | pair car cdr head later => cases b <;> simp [same, head, later]

namespace Memory

variable {Object : Type} (memory : Memory Object)

variable {memory} in
theorem sameValue_iff {object other : Object} {a b : Atom} (found : memory.content object = .atom a)
    (alike : memory.content other = .atom b) (apart : memory.isOne object other ≠ true) :
    a.sameValue b = true ↔ a = b := by
  constructor
  · exact Atom.eq_of_sameValue
  · rintro rfl
    exact Atom.sameValue_self fun shared => apart (memory.isOne_of_isShared found alike shared)

variable {memory} in
theorem datum_ne_of_mixed {object other : Object}
    (atoms : ∀ a b, memory.content object = .atom a → memory.content other = .atom b → False)
    (pairs : ∀ car cdr otherCar otherCdr, memory.content object = .pair car cdr →
      memory.content other = .pair otherCar otherCdr → False) :
    memory.datum object ≠ memory.datum other := by
  intro same
  cases found : memory.content object with
  | atom a =>
    cases alike : memory.content other with
    | atom b => exact atoms a b found alike
    | pair car cdr =>
      rw [memory.datum_atom found, memory.datum_pair alike] at same
      cases same
  | pair car cdr =>
    cases alike : memory.content other with
    | atom b =>
      rw [memory.datum_pair found, memory.datum_atom alike] at same
      cases same
    | pair otherCar otherCdr => exact pairs car cdr otherCar otherCdr found alike

variable {memory} in
theorem parts_iff {object other car cdr otherCar otherCdr : Object} {differ behind : Bool}
    (found : memory.content object = .pair car cdr) (alike : memory.content other = .pair otherCar otherCdr)
    (cars : differ = false ↔ memory.datum car = memory.datum otherCar)
    (cdrs : behind = true ↔ memory.datum cdr = memory.datum otherCdr) :
    (if differ then false else behind) = true ↔ memory.datum object = memory.datum other := by
  rw [memory.datum_pair found, memory.datum_pair alike, Datum.pair.injEq, ← cars, ← cdrs]
  cases differ <;> simp

mutual

theorem equals_iff (object other : Object) :
    memory.equals object other = true ↔ memory.datum object = memory.datum other := by
  rw [equals]
  split
  · next one => exact iff_of_true rfl (memory.datum_of_isOne one)
  · next apart =>
    split
    · next a b found alike =>
      rw [sameValue_iff found alike apart, memory.datum_atom found, memory.datum_atom alike, Datum.atom.injEq]
    · next car cdr otherCar otherCdr found alike =>
      have smaller := parts_lt found alike
      have cars := differs_iff otherCar car
      have cdrs := equalsBehind_iff cdr otherCdr
      exact parts_iff found alike (cars.trans eq_comm) cdrs
    · next atoms pairs => exact iff_of_false Bool.false_ne_true (datum_ne_of_mixed atoms pairs)
termination_by (sizeOf (memory.datum object) + sizeOf (memory.datum other), 0)
decreasing_by all_goals exact .left _ _ (by omega)

theorem differs_iff (object other : Object) :
    memory.differs object other = false ↔ memory.datum object = memory.datum other := by
  rw [differs, Bool.not_eq_false', equals_iff]
termination_by (sizeOf (memory.datum object) + sizeOf (memory.datum other), 1)

theorem equalsBehind_iff (rest otherRest : Object) :
    memory.equalsBehind rest otherRest = true ↔ memory.datum rest = memory.datum otherRest := by
  rw [equalsBehind]
  split
  · next car cdr otherCar otherCdr found alike =>
    have smaller := parts_lt found alike
    have cars := differs_iff car otherCar
    have cdrs := equalsBehind_iff cdr otherCdr
    exact parts_iff found alike cars cdrs
  · exact equals_iff rest otherRest
termination_by (sizeOf (memory.datum rest) + sizeOf (memory.datum otherRest), 1)
decreasing_by
  · exact .left _ _ smaller.1
  · exact .left _ _ smaller.2
  · exact .right _ Nat.zero_lt_one

end

theorem equals_eq_same (a b : Object) : memory.equals a b = (memory.datum a).same (memory.datum b) :=
  Bool.eq_iff_iff.mpr ((memory.equals_iff a b).trans (Datum.same_iff _ _).symm)

theorem equivalence_equals : Equivalence fun a b : Object => memory.equals a b = true where
  refl a := (memory.equals_iff a a).mpr rfl
  symm same := by
    rw [equals_iff] at same ⊢
    exact same.symm
  trans first second := by
    rw [equals_iff] at first second ⊢
    exact first.trans second

/-- Whichever objects of a memory are one, walking along two chains tells whether they stand for the same
    tree of pairs, with atoms of the same kind and value for its leaves, as comparing them part by part
    does. So pairs are equal exactly where both their parts are. -/
theorem equals_structural :
    (∀ a b, (memory.equals a b = true ↔ memory.datum a = memory.datum b) ∧
      memory.differs a b = !memory.equals a b ∧
        memory.equals a b = (memory.datum a).same (memory.datum b)) ∧
    (∀ a b value truth, memory.datum a = Atom.number value → memory.datum b = Atom.boolean truth →
      memory.equals a b = false) ∧
    (∀ a b value name, memory.datum a = Atom.string value → memory.datum b = Atom.symbol name →
      memory.equals a b = false) ∧
    (Equivalence fun a b => memory.equals a b = true) ∧
    ∀ p q x y u v, memory.content p = .pair x y → memory.content q = .pair u v →
      (memory.equals p q = true ↔ memory.equals x u = true ∧ memory.equals y v = true) := by
  refine ⟨?_, ?_, ?_, memory.equivalence_equals, ?_⟩
  · intro a b
    exact ⟨memory.equals_iff a b, by rw [differs], memory.equals_eq_same a b⟩
  · intro a b value truth number boolean
    rw [equals_eq_same, number, boolean]
    exact decide_eq_false Atom.noConfusion
  · intro a b value name string symbol
    rw [equals_eq_same, string, symbol]
    exact decide_eq_false Atom.noConfusion
  · intro p q x y u v left right
    rw [equals_iff, equals_iff, equals_iff, memory.datum_pair left, memory.datum_pair right, Datum.pair.injEq]

theorem equals_structural_apart :
    let nested : Datum := .pair (.pair (Atom.number 300) Atom.null) (Atom.string "a")
    Datum.apart.equals nested nested = true ∧
      (∀ other : Datum, Datum.apart.equals nested (.pair other other) = true ↔
        Datum.apart.equals (.pair (Atom.number 300) Atom.null) other = true ∧
          Datum.apart.equals (Atom.string "a") other = true) ∧
      Datum.apart.equals (Atom.number 1) (Atom.boolean true) = false ∧
      Datum.apart.equals (Atom.string "a") (Atom.symbol "a") = false ∧
      let built := Store.Reachable.empty.build nested
      let again := built.reachable.build nested
      (Store.empty.build nested).1 ≠ ((Store.empty.build nested).2.build nested).1 ∧
        again.memory.equals (built.placeLater again.kept) again.place = true := by
  intro nested
  obtain ⟨equal, numbers, strings, _, pairs⟩ := equals_structural Datum.apart
  refine ⟨(equal nested nested).1.mpr rfl, ?_, numbers _ _ 1 true rfl rfl, strings _ _ "a" "a" rfl rfl, ?_⟩
  · intro other
    exact pairs _ _ _ _ _ _ rfl rfl
  · intro built again
    refine ⟨fun one => ?_, ((equals_structural again.memory).1 _ _).1.mpr ?_⟩
    · exact absurd ((Store.build_eq_iff .empty nested nested).mp one) Bool.false_ne_true
    · exact (built.datum_later again.reachable again.kept).trans again.datum.symm

end Memory

/-- Data that are built in one store are equal there just if they are the same, whichever of their objects
    are one. -/
theorem Store.equals_build_iff {store : Store} (reachable : store.Reachable) (first second : Datum) :
    let built := reachable.build first
    let again := built.reachable.build second
    again.memory.equals (built.placeLater again.kept) again.place = true ↔ first = second := by
  intro built again
  have one : again.memory.datum (built.placeLater again.kept) = first :=
    built.datum_later again.reachable again.kept
  have other : again.memory.datum again.place = second := again.datum
  rw [Memory.equals_iff, one, other]

namespace Datum

theorem equals_iff (a b : Datum) : a.equals b = true ↔ a = b := apart.equals_iff a b

theorem equals_eq_same (a b : Datum) : a.equals b = a.same b := apart.equals_eq_same a b

end Datum

end SchemeSyntax
