namespace SchemeSyntax

variable {α β ε : Type} {f : α → Except ε β}

/-- A traversal that succeeds pairs each item with what it gave. -/
theorem exists_pairs_of_mapM {items : List α} {values : List β} (visited : items.mapM f = .ok values) :
    ∃ pairs : List (α × β), pairs.map Prod.fst = items ∧ pairs.map Prod.snd = values ∧
      ∀ pair ∈ pairs, f pair.1 = .ok pair.2 := by
  induction items generalizing values with
  | nil =>
    cases visited
    exact ⟨[], rfl, rfl, List.forall_mem_nil _⟩
  | cons item items ih =>
    rw [List.mapM_cons] at visited
    cases head : f item with
    | error fault =>
      rw [head] at visited
      cases visited
    | ok value =>
      cases later : items.mapM f with
      | error fault =>
        rw [head, later] at visited
        cases visited
      | ok others =>
        rw [head, later] at visited
        cases visited
        obtain ⟨pairs, rfl, rfl, each⟩ := ih later
        exact ⟨(item, value) :: pairs, rfl, rfl, List.forall_mem_cons.mpr ⟨head, each⟩⟩

theorem exists_value_of_mem {items : List α} {values : List β} {item : α}
    (visited : items.mapM f = .ok values) (member : item ∈ items) : ∃ value, f item = .ok value := by
  obtain ⟨pairs, rfl, _, each⟩ := exists_pairs_of_mapM visited
  obtain ⟨pair, inside, rfl⟩ := List.mem_map.mp member
  exact ⟨pair.2, each pair inside⟩

/-- A traversal that fails has met a first item that fails. -/
theorem exists_first_of_mapM {items : List α} {fault : ε} (stopped : items.mapM f = .error fault) :
    ∃ before item after values, items = before ++ item :: after ∧ before.mapM f = .ok values ∧
      f item = .error fault := by
  induction items with
  | nil => cases stopped
  | cons item items ih =>
    rw [List.mapM_cons] at stopped
    cases head : f item with
    | error other =>
      rw [head] at stopped
      cases stopped
      exact ⟨[], item, items, [], rfl, rfl, head⟩
    | ok value =>
      cases later : items.mapM f with
      | ok others =>
        rw [head, later] at stopped
        cases stopped
      | error other =>
        rw [head, later] at stopped
        cases stopped
        obtain ⟨before, first, after, values, rfl, visited, fails⟩ := ih later
        refine ⟨item :: before, first, after, value :: values, rfl, ?_, fails⟩
        rw [List.mapM_cons, head, visited]
        rfl

end SchemeSyntax
