import SchemeSyntax.Datum.Walk

namespace SchemeSyntax.Datum

theorem eq_null_of_isNull {datum : Datum} (empty : datum.isNull = true) : datum = null := by
  unfold isNull at empty
  split at empty
  · rfl
  · cases empty

theorem isList_atom (ending : Atom) : (atom ending).isList = (atom ending).isNull := by
  cases ending <;> rfl

/-- A chain is made of its elements in front of its ending. -/
theorem foldr_cars (chain : Datum) : chain.cars.foldr pair (atom chain.ending) = chain := by
  induction chain with
  | atom ending => rfl
  | pair car cdr _ later => exact congrArg (pair car) later

theorem toList_foldr (data : List Datum) (ending : Datum) :
    (data.foldr pair ending).toList = data ++ ending.toList := by
  induction data with
  | nil => rfl
  | cons d data ih => exact congrArg (List.cons d) ih

theorem length_foldr (data : List Datum) (ending : Datum) :
    (data.foldr pair ending).length = data.length + ending.length := by
  induction data with
  | nil => exact (Nat.zero_add _).symm
  | cons d data ih =>
    rw [List.foldr_cons, length, ih, List.length_cons]
    omega

theorem isList_foldr (data : List Datum) (ending : Datum) :
    (data.foldr pair ending).isList = ending.isList := by
  induction data with
  | nil => rfl
  | cons d data ih => exact ih

theorem walk_foldr {α : Type} (visit : α → Datum → α) (found : α) (data : List Datum) (ending : Atom) :
    walk visit found (data.foldr pair (atom ending)) = (data.foldl visit found, atom ending) := by
  induction data generalizing found with
  | nil => rfl
  | cons d data ih => exact ih (visit found d)

theorem foldl_concat (data found : List Datum) :
    data.foldl (fun found element => found ++ [element]) found = found ++ data := by
  induction data generalizing found with
  | nil => exact (List.append_nil found).symm
  | cons d data ih => rw [List.foldl_cons, ih, List.append_assoc, List.singleton_append]

theorem nothing_of_isNull {datum : Datum} (empty : datum.isNull = true) :
    datum.toList = [] ∧ datum.length = 0 := by
  cases eq_null_of_isNull empty
  exact ⟨rfl, rfl⟩

theorem gather_eq (chain : Datum) : chain.gather = chain.toList := by
  rw [← foldr_cars chain, gather, walk_foldr, foldl_concat, toList_foldr, List.nil_append]
  cases null : (atom chain.ending).isNull with
  | true => rw [(nothing_of_isNull null).1, if_pos rfl, List.append_nil]
  | false => rw [(single_of_isNull null).1, if_neg Bool.false_ne_true]

theorem length_toList (chain : Datum) : chain.toList.length = chain.length := by
  induction chain with
  | atom ending => cases ending <;> rfl
  | pair car cdr _ later => exact congrArg (· + 1) later

theorem count_eq (chain : Datum) : chain.count = chain.length := by
  rw [← foldr_cars chain, count, walk_foldr, List.foldl_add_const, length_foldr]
  cases null : (atom chain.ending).isNull with
  | true =>
    rw [(nothing_of_isNull null).2, if_pos rfl]
    omega
  | false =>
    rw [(single_of_isNull null).2, if_neg Bool.false_ne_true]
    omega

theorem iterate_of_next? {chain element rest : Datum} (found : chain.next? = some (element, rest)) :
    chain.iterate = element :: rest.iterate := by
  rw [iterate]
  split
  · next stopped =>
    rw [stopped] at found
    cases found
  · next other =>
    rw [other] at found
    cases found
    rfl

theorem iterate_null : null.iterate = [] := by
  rw [iterate]
  rfl

theorem iterate_eq (chain : Datum) : chain.iterate = chain.toList := by
  induction chain with
  | pair car cdr _ later => rw [iterate_of_next? rfl, later, toList]
  | atom ending =>
    cases null : (atom ending).isNull with
    | true =>
      rw [eq_null_of_isNull null]
      exact iterate_null
    | false =>
      have next : (atom ending).next? = some (atom ending, Datum.null) := if_neg (Bool.eq_false_iff.mp null)
      rw [iterate_of_next? next, iterate_null, (single_of_isNull null).1]

theorem ofData_proper (data : List Datum) : ofData data true = data.foldr pair null := rfl

theorem ofData_concat (front : List Datum) (last : Datum) :
    ofData (front ++ [last]) false = front.foldr pair last := by
  simp [ofData]

theorem ofList_eq (data : List Datum) : ofList data = data.foldr pair null := by
  induction data with
  | nil => rfl
  | cons d data ih => exact congrArg (pair d) ih

theorem ofDotted_concat (front : List Datum) (last : Datum) :
    ofDotted (front ++ [last]) = front.foldr pair last := by
  induction front with
  | nil => rfl
  | cons d front ih =>
    rw [List.foldr_cons, ← ih]
    cases front <;> rfl

theorem ofDotted_eq (data : List Datum) : ofDotted data = ofData data false := by
  rcases List.eq_nil_or_concat data with rfl | ⟨front, last, rfl⟩
  · rfl
  · rw [List.concat_eq_append, ofDotted_concat, ofData_concat]

theorem ofData_toList (chain : Datum) : ofData chain.toList chain.isList = chain := by
  rw [← foldr_cars chain, toList_foldr, isList_foldr, isList_atom]
  cases null : (atom chain.ending).isNull with
  | true => rw [(nothing_of_isNull null).1, List.append_nil, ofData_proper, eq_null_of_isNull null]
  | false => rw [(single_of_isNull null).1, ofData_concat]

theorem views_of_proper (data : List Datum) : (ofData data true).isList = true ∧
    (ofData data true).toList = data ∧ (ofData data true = null ↔ data = []) := by
  rw [ofData_proper, isList_foldr, toList_foldr]
  refine ⟨rfl, List.append_nil data, ?_⟩
  cases data with
  | nil => exact iff_of_true rfl rfl
  | cons d data => exact iff_of_false Datum.noConfusion (List.cons_ne_nil d data)

theorem views_of_improper {front : List Datum} {last : Datum} (filled : front ≠ [])
    (single : last.isPair = false) (ends : last.isNull = false) :
    (ofData (front ++ [last]) false).isPair = true ∧ (ofData (front ++ [last]) false).isList = false ∧
      (ofData (front ++ [last]) false).toList = front ++ [last] := by
  cases last with
  | pair car cdr => cases single
  | atom ending =>
    rw [ofData_concat, isList_foldr, isList_atom, toList_foldr, (single_of_isNull ends).1]
    refine ⟨?_, ends, rfl⟩
    cases front with
    | nil => exact absurd rfl filled
    | cons d front => rfl

/-- The views of a chain agree, whatever it ends in: iterating gives the list of its elements, as many as
    are counted, and with the knowledge whether it is proper they give the chain back. Data chained as a
    proper list are its elements. So they are where the last of two or more is the ending, unless that is
    a pair or the empty list. -/
theorem chain_views :
    (∀ chain : Datum, chain.iterate = chain.gather ∧ chain.count = chain.gather.length ∧
      ofData chain.gather chain.isList = chain ∧ chain.gather = chain.toList ∧ chain.count = chain.length) ∧
    (∀ data, ofData data true = ofList data ∧ ofData data false = ofDotted data) ∧
    (∀ data, (ofData data true).isList = true ∧ (ofData data true).iterate = data ∧
      (ofData data true = null ↔ data = [])) ∧
    ∀ data last, 2 ≤ data.length → data.getLast? = some last → last.isPair = false → last.isNull = false →
      (ofData data false).isPair = true ∧ (ofData data false).isList = false ∧
        (ofData data false).gather = data := by
  refine ⟨?_, ?_, ?_, ?_⟩
  · intro chain
    rw [iterate_eq, count_eq, gather_eq]
    exact ⟨rfl, chain.length_toList.symm, ofData_toList chain, rfl, rfl⟩
  · intro data
    exact ⟨(ofList_eq data).symm, (ofDotted_eq data).symm⟩
  · intro data
    rw [iterate_eq]
    exact views_of_proper data
  · intro data last long found single ends
    obtain ⟨front, rfl⟩ := List.getLast?_eq_some_iff.mp found
    have filled : front ≠ [] := by
      rintro rfl
      exact absurd long (Nat.lt_irrefl 1)
    rw [gather_eq]
    exact views_of_improper filled single ends

theorem chain_views_improper :
    let inner : Datum := pair (Atom.number 1) (Atom.boolean true)
    let data : List Datum := [inner, null, Atom.string "x"]
    (ofData data false).isPair = true ∧ (ofData data false).isList = false ∧
      (ofData data false).gather = data ∧ (ofData data false).count = 3 ∧
        (ofData data true).iterate = data := by
  intro inner data
  obtain ⟨views, _, proper, improper⟩ := chain_views
  obtain ⟨pairs, dotted, elements⟩ := improper data (Atom.string "x") (by decide) rfl rfl rfl
  refine ⟨pairs, dotted, elements, ?_, (proper data).2.1⟩
  rw [(views (ofData data false)).2.1, elements]
  rfl

end SchemeSyntax.Datum
