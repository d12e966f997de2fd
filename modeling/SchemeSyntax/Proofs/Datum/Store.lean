import SchemeSyntax.Datum.Store

namespace SchemeSyntax.Store

/-- Pairs refer to objects that were made before them, the cache tells where its atoms are, and of a
    shared atom there is no object but that one. -/
structure Sound (store : Store) : Prop where
  parts_lt : ∀ {object car cdr : Nat}, store.objects[object]? = some (.pair car cdr) →
    car < object ∧ cdr < object
  cached : ∀ {a : Atom} {object : Nat}, store.cache.lookup a = some object →
    store.objects[object]? = some (.atom a)
  only : ∀ {a : Atom} {object : Nat}, store.objects[object]? = some (.atom a) → a.isShared = true →
    store.cache.lookup a = some object

/-- Every object is still there, with what it holds. -/
def Extends (before after : Store) : Prop :=
  ∀ (object : Nat) (content : Content Nat), before.objects[object]? = some content →
    after.objects[object]? = some content

variable {store after later : Store} {object : Nat} {content : Content Nat} {a b : Atom} {d : Datum}

theorem Extends.refl (store : Store) : store.Extends store := fun _ _ held => held

theorem Extends.trans (first : store.Extends after) (second : after.Extends later) :
    store.Extends later := fun object content held => second object content (first object content held)

theorem lt_size (held : store.objects[object]? = some content) : object < store.objects.size :=
  (Array.getElem?_eq_some_iff.mp held).choose

theorem extends_add (store : Store) (content : Content Nat) : store.Extends (store.add content).2 := by
  intro object old held
  rw [add, Array.getElem?_push, if_neg (Nat.ne_of_lt (lt_size held)), held]

theorem getElem?_add (store : Store) (content : Content Nat) :
    (store.add content).2.objects[(store.add content).1]? = some content := Array.getElem?_push_size

theorem getElem?_of_add {added : Content Nat}
    (held : (store.add added).2.objects[object]? = some content) :
    object = store.objects.size ∧ content = added ∨ store.objects[object]? = some content := by
  rw [add, Array.getElem?_push] at held
  split at held
  · next last => exact .inl ⟨last, (Option.some.inj held).symm⟩
  · exact .inr held

theorem sound_empty : empty.Sound where
  parts_lt held := by simp [empty] at held
  cached found := by simp [empty] at found
  only held := by simp [empty] at held

theorem Sound.cons (sound : store.Sound) {car cdr : Nat} (carInside : car < store.objects.size)
    (cdrInside : cdr < store.objects.size) : (store.cons car cdr).2.Sound where
  parts_lt held := by
    rcases getElem?_of_add held with ⟨rfl, same⟩ | held
    · cases same
      exact ⟨carInside, cdrInside⟩
    · exact sound.parts_lt held
  cached found := extends_add store _ _ _ (sound.cached found)
  only held shared := by
    rcases getElem?_of_add held with ⟨_, same⟩ | held
    · cases same
    · exact sound.only held shared

theorem Sound.parts_lt_add_atom (sound : store.Sound) {car cdr : Nat}
    (held : (store.add (.atom a)).2.objects[object]? = some (.pair car cdr)) :
    car < object ∧ cdr < object := by
  rcases getElem?_of_add held with ⟨_, same⟩ | held
  · cases same
  · exact sound.parts_lt held

theorem Sound.add_unshared (sound : store.Sound) (unshared : a.isShared ≠ true) :
    (store.add (.atom a)).2.Sound where
  parts_lt := sound.parts_lt_add_atom
  cached found := extends_add store _ _ _ (sound.cached found)
  only held shared := by
    rcases getElem?_of_add held with ⟨_, same⟩ | held
    · cases same
      exact absurd shared unshared
    · exact sound.only held shared

theorem lookup_cons_of_ne {cache : List (Atom × Nat)} (apart : b ≠ a) :
    ((a, object) :: cache).lookup b = cache.lookup b := by
  rw [List.lookup_cons, beq_false_of_ne apart]

theorem Sound.add_cached (sound : store.Sound) (missing : store.cache.lookup a = none) :
    (⟨(store.add (.atom a)).2.objects, (a, store.objects.size) :: store.cache⟩ : Store).Sound where
  parts_lt := sound.parts_lt_add_atom
  cached := by
    intro b object found
    by_cases same : b = a
    · subst same
      rw [List.lookup_cons_self] at found
      cases found
      exact getElem?_add store (.atom b)
    · rw [lookup_cons_of_ne same] at found
      exact extends_add store _ _ _ (sound.cached found)
  only := by
    intro b object held shared
    rcases getElem?_of_add held with ⟨rfl, same⟩ | held
    · cases same
      exact List.lookup_cons_self
    · have found := sound.only held shared
      have apart : b ≠ a := by
        intro same
        rw [same, missing] at found
        cases found
      rw [lookup_cons_of_ne apart, found]

/-- The object for an atom holds it, and the objects that were there are left as they are. -/
theorem Sound.make (sound : store.Sound) (a : Atom) : (store.make a).2.Sound ∧
    store.Extends (store.make a).2 ∧
      (store.make a).2.objects[(store.make a).1]? = some (.atom a) := by
  have made := getElem?_add store (.atom a)
  have kept := extends_add store (.atom a)
  rw [Store.make]
  split
  next shared =>
    split
    next object found => exact ⟨sound, .refl store, sound.cached found⟩
    next missing => exact ⟨sound.add_cached missing, kept, made⟩
  next unshared => exact ⟨sound.add_unshared unshared, kept, made⟩

/-- The stores that programs reach: they make atoms, and pairs of objects that they have. -/
inductive Reachable : Store → Prop
  | empty : Reachable empty
  | make {store : Store} (earlier : Reachable store) (a : Atom) : Reachable (store.make a).2
  | cons {store : Store} {car cdr : Nat} (earlier : Reachable store)
      (carInside : car < store.objects.size) (cdrInside : cdr < store.objects.size) :
      Reachable (store.cons car cdr).2

theorem Reachable.sound (reachable : store.Reachable) : store.Sound := by
  induction reachable with
  | empty => exact sound_empty
  | make _ a sound => exact (sound.make a).1
  | cons _ carInside cdrInside sound => exact sound.cons carInside cdrInside

theorem datum_of_atom (held : store.objects[object]? = some (.atom a)) : store.datum object = a := by
  rw [datum, held]

theorem Sound.datum_of_pair (sound : store.Sound) {car cdr : Nat}
    (held : store.objects[object]? = some (.pair car cdr)) :
    store.datum object = .pair (store.datum car) (store.datum cdr) := by
  rw [datum, held]
  exact if_pos (sound.parts_lt held)

/-- An object stands for the same datum whatever is made later. -/
theorem Sound.datum_of_extends (sound : store.Sound) (sound' : after.Sound)
    (kept : store.Extends after) (inside : object < store.objects.size) :
    after.datum object = store.datum object := by
  induction object using Nat.strongRecOn with
  | ind object ih =>
    have held := Array.getElem?_eq_getElem inside
    cases found : store.objects[object] with
    | atom a =>
      rw [found] at held
      rw [datum_of_atom held, datum_of_atom (kept _ _ held)]
    | pair car cdr =>
      rw [found] at held
      obtain ⟨carEarlier, cdrEarlier⟩ := sound.parts_lt held
      rw [sound.datum_of_pair held, sound'.datum_of_pair (kept _ _ held),
        ih car carEarlier (Nat.lt_trans carEarlier inside),
        ih cdr cdrEarlier (Nat.lt_trans cdrEarlier inside)]

theorem Extends.size_le (kept : store.Extends after) : store.objects.size ≤ after.objects.size := by
  refine Nat.le_of_not_lt fun shorter => ?_
  have held := kept _ _ (Array.getElem?_eq_getElem shorter)
  exact Nat.lt_irrefl _ (lt_size held)

/-- The object was built for the datum, and the objects that were there are left as they are. -/
structure Built (store : Store) (d : Datum) (object : Nat) (after : Store) : Prop where
  reachable : after.Reachable
  kept : store.Extends after
  inside : object < after.objects.size
  datum : after.datum object = d

theorem Built.datum_later (built : Built store d object after) (reachable : later.Reachable)
    (kept : after.Extends later) : later.datum object = d := by
  rw [built.reachable.sound.datum_of_extends reachable.sound kept built.inside, built.datum]

theorem Reachable.make_built (reachable : store.Reachable) (a : Atom) :
    Built store a (store.make a).1 (store.make a).2 := by
  obtain ⟨_, kept, held⟩ := reachable.sound.make a
  exact ⟨reachable.make a, kept, lt_size held, datum_of_atom held⟩

theorem Built.cons {car cdr : Datum} {left right : Nat} (first : Built store car left after)
    (second : Built after cdr right later) :
    Built store (.pair car cdr) (later.cons left right).1 (later.cons left right).2 := by
  have leftInside := Nat.lt_of_lt_of_le first.inside second.kept.size_le
  have whole := second.reachable.cons leftInside second.inside
  have added : later.Extends (later.cons left right).2 := extends_add later (.pair left right)
  have held : (later.cons left right).2.objects[(later.cons left right).1]? = some (.pair left right) :=
    getElem?_add later (.pair left right)
  refine ⟨whole, (first.kept.trans second.kept).trans added, lt_size held, ?_⟩
  rw [whole.sound.datum_of_pair held, first.datum_later whole (second.kept.trans added),
    second.datum_later whole added]

theorem make_of_found (shared : a.isShared = true) (found : store.cache.lookup a = some object) :
    store.make a = (object, store) := by
  rw [make, if_pos shared, found]

theorem Reachable.build (reachable : store.Reachable) (d : Datum) :
    Built store d (store.build d).1 (store.build d).2 := by
  induction d generalizing store with
  | atom a => exact reachable.make_built a
  | pair car cdr carBuilt cdrBuilt =>
    have first := carBuilt reachable
    exact first.cons (cdrBuilt first.reachable)

/-- A value that is not shared is a new object each time. -/
theorem size_le_build (unshared : ∀ a, d = .atom a → a.isShared ≠ true)
    (reachable : store.Reachable) : store.objects.size ≤ (store.build d).1 := by
  cases d with
  | atom a =>
    rw [build, make, if_neg (unshared a rfl)]
    exact Nat.le_refl _
  | pair car cdr =>
    have first := reachable.build car
    have second := first.reachable.build cdr
    exact (first.kept.trans second.kept).size_le

/-- Two data that are built one behind the other are one object just where they are told to be. -/
theorem build_eq_iff (reachable : store.Reachable) (first second : Datum) :
    (store.build first).1 = ((store.build first).2.build second).1 ↔
      first.identical second = true := by
  have built := reachable.build first
  have again := built.reachable.build second
  constructor
  · intro one
    have same : first = second := by
      rw [← again.datum, ← one, built.datum_later again.reachable again.kept]
    obtain ⟨a, atom, shared⟩ : ∃ a, second = .atom a ∧ a.isShared = true := by
      refine Classical.byContradiction fun none => ?_
      have fresh := size_le_build (fun a atom shared => none ⟨a, atom, shared⟩) built.reachable
      exact Nat.lt_irrefl _ (Nat.lt_of_lt_of_le built.inside (one ▸ fresh))
    rw [same, atom]
    simp [Datum.identical, shared]
  · intro one
    obtain ⟨a, rfl, rfl, shared⟩ : ∃ a, first = .atom a ∧ second = .atom a ∧ a.isShared = true := by
      cases first with
      | pair car cdr => cases one
      | atom a =>
        cases second with
        | pair car cdr => cases one
        | atom b =>
          obtain ⟨same, shared⟩ := Bool.and_eq_true_iff.mp one
          exact ⟨a, rfl, congrArg Datum.atom (of_decide_eq_true same).symm, shared⟩
    obtain ⟨sound, _, held⟩ := reachable.sound.make a
    have found := sound.only held shared
    show (store.make a).1 = ((store.make a).2.make a).1
    rw [make_of_found shared found]

def Sound.contentAt (sound : store.Sound) (object : Fin store.objects.size) :
    Content (Fin store.objects.size) :=
  match held : store.objects[object] with
  | .atom a => .atom a
  | .pair car cdr =>
    have earlier := sound.parts_lt (Array.getElem?_eq_some_iff.mpr ⟨object.isLt, held⟩)
    .pair ⟨car, Nat.lt_trans earlier.1 object.isLt⟩ ⟨cdr, Nat.lt_trans earlier.2 object.isLt⟩

section Memory

variable {place car cdr : Fin store.objects.size}

theorem Sound.getElem?_of_atom (sound : store.Sound) (held : sound.contentAt place = .atom a) :
    store.objects[place.val]? = some (.atom a) := by
  unfold contentAt at held
  split at held
  · next atom =>
    cases held
    exact Array.getElem?_eq_some_iff.mpr ⟨place.isLt, atom⟩
  · cases held

theorem Sound.getElem?_of_pair (sound : store.Sound) (held : sound.contentAt place = .pair car cdr) :
    store.objects[place.val]? = some (.pair car.val cdr.val) := by
  unfold contentAt at held
  split at held
  · cases held
  · next pair =>
    cases held
    exact Array.getElem?_eq_some_iff.mpr ⟨place.isLt, pair⟩

end Memory

/-- In a store, only an object itself is one with it. -/
def Sound.memory (sound : store.Sound) : Memory (Fin store.objects.size) where
  content := sound.contentAt
  datum place := store.datum place
  isOne place other := place = other
  datum_atom held := datum_of_atom (sound.getElem?_of_atom held)
  datum_pair held := sound.datum_of_pair (sound.getElem?_of_pair held)
  datum_of_isOne one := by rw [of_decide_eq_true one]
  isOne_of_isShared held alike shared := by
    have found := sound.only (sound.getElem?_of_atom held) shared
    have again := sound.only (sound.getElem?_of_atom alike) shared
    exact decide_eq_true (Fin.ext (Option.some.inj (found.symm.trans again)))

namespace Built

def memory (built : Built store d object after) : Memory (Fin after.objects.size) :=
  built.reachable.sound.memory

def place (built : Built store d object after) : Fin after.objects.size := ⟨object, built.inside⟩

def placeLater (built : Built store d object after) (kept : after.Extends later) :
    Fin later.objects.size := ⟨object, Nat.lt_of_lt_of_le built.inside kept.size_le⟩

end Built

end SchemeSyntax.Store
