import HundredDays.LookUpTable.Traces

namespace HundredDays.LookUpTable

open HundredDays.Semantics SymbolTable

/-! How large the tables grow.

A table doubles when its keys and its tombstones together exceed the load, so tombstones make it
grow as keys do.
-/

variable {V : Type} [Inhabited V] {table after : SymbolTable V} {other otherAfter : C.SymbolTable V} {calloc : Nat → Bool}
  {request : Request V} {response : Response V} {key : Key} {value : V} {answer : Bool} {newCapacity most left : Nat}

/-- What a request may do to a capacity. -/
def Grows (used capacity newCapacity : Nat) : Prop :=
  newCapacity = capacity ∨ overloaded (used + 1) capacity = true ∧ newCapacity ≤ capacity * 2

/-- The bound that `most` keys and `left` tombstones at once leave. -/
def capacityBound (most left : Nat) : Nat := max 16 (4 * (most + left + 1))

theorem Grows.bounded {keys tombstones capacity : Nat} (grows : Grows (keys + tombstones) capacity newCapacity)
    (bounded : capacity ≤ capacityBound most left) (few : keys ≤ most ∧ tombstones ≤ left) :
    newCapacity ≤ capacityBound most left := by
  cases grows with
  | inl same => exact same ▸ bounded
  | inr doubled =>
      obtain ⟨load, twice⟩ := doubled
      have heavy : 6305039478318694 * capacity < (keys + tombstones + 1) * 2 ^ 53 := of_decide_eq_true load
      apply Nat.le_trans _ (Nat.le_max_right 16 _)
      omega

omit [Inhabited V] in
theorem insertProbed_capacity (inserted : table.insertProbed key value = some (answer, after)) :
    after.capacity = table.capacity := by
  obtain ⟨stopped, _, result⟩ := Option.map_eq_some_iff.mp inserted
  cases stopped with
  | none =>
      cases result
      rfl
  | some found =>
      obtain ⟨index, first⟩ := found
      simp only at result
      split at result
      all_goals
        cases result
        rfl

omit [Inhabited V] in
theorem remove_capacity (removed : table.remove key = some (answer, after)) : after.capacity = table.capacity := by
  obtain ⟨stopped, _, result⟩ := Option.map_eq_some_iff.mp removed
  cases stopped with
  | none =>
      cases result
      rfl
  | some found =>
      obtain ⟨index, first⟩ := found
      simp only at result
      split at result
      all_goals
        cases result
        rfl

theorem resize_capacity (resized : table.resize newCapacity = some after) : after.capacity = newCapacity := by
  obtain ⟨slots, _, result⟩ := Option.map_eq_some_iff.mp resized
  cases result
  rfl

theorem respond_grows (responded : respond table request = some (response, after)) :
    Grows (table.count + table.tombstones) table.capacity after.capacity := by
  cases request with
  | insert key value =>
      obtain ⟨done, inserted, result⟩ := Option.map_eq_some_iff.mp responded
      cases result
      rw [SymbolTable.insert] at inserted
      split at inserted
      next load =>
        obtain ⟨ready, resized, probed⟩ := Option.bind_eq_some_iff.mp inserted
        refine Or.inr ⟨load, ?_⟩
        rw [insertProbed_capacity probed, resize_capacity resized]
        exact Nat.mod_le _ _
      next light => exact Or.inl (insertProbed_capacity inserted)
  | lookup key =>
      obtain ⟨price, _, result⟩ := Option.map_eq_some_iff.mp responded
      cases result
      exact Or.inl rfl
  | remove key =>
      obtain ⟨done, removed, result⟩ := Option.map_eq_some_iff.mp responded
      cases result
      exact Or.inl (remove_capacity removed)

namespace C

omit [Inhabited V] in
theorem insertProbed_capacity (inserted : insertProbed other key value = some (answer, otherAfter)) :
    otherAfter.capacity = other.capacity := by
  obtain ⟨stopped, _, result⟩ := Option.map_eq_some_iff.mp inserted
  cases stopped with
  | none =>
      cases result
      rfl
  | some found =>
      obtain ⟨index, first⟩ := found
      simp only at result
      split at result
      all_goals
        cases result
        rfl

omit [Inhabited V] in
theorem symbolTableDelete_capacity (deleted : symbolTableDelete other key = some (answer, otherAfter)) :
    otherAfter.capacity = other.capacity := by
  obtain ⟨stopped, _, result⟩ := Option.map_eq_some_iff.mp deleted
  cases stopped with
  | none =>
      cases result
      rfl
  | some found =>
      obtain ⟨index, first⟩ := found
      simp only at result
      split at result
      all_goals
        cases result
        rfl

theorem tableResize_capacity (resized : tableResize calloc other newCapacity = some (answer, otherAfter)) :
    otherAfter.capacity = newCapacity ∨ otherAfter = other := by
  rw [tableResize] at resized
  split at resized
  next allocated =>
    obtain ⟨slots, _, result⟩ := Option.map_eq_some_iff.mp resized
    cases result
    exact Or.inl rfl
  next failed =>
    cases resized
    exact Or.inr rfl

theorem respond_grows (responded : respond calloc other request = some (response, otherAfter)) :
    Grows (other.count + other.tombstones) other.capacity otherAfter.capacity := by
  cases request with
  | insert key value =>
      obtain ⟨done, inserted, result⟩ := Option.map_eq_some_iff.mp responded
      cases result
      rw [symbolTableInsert] at inserted
      split at inserted
      next load =>
        obtain ⟨ready, prepared, probed⟩ := Option.bind_eq_some_iff.mp inserted
        have kept : done.2.capacity = ready.2.capacity := by
          split at probed
          next => exact insertProbed_capacity probed
          next =>
            cases probed
            rfl
        rw [Grows, kept]
        cases tableResize_capacity prepared with
        | inl doubled => exact Or.inr ⟨load, doubled ▸ Nat.mod_le _ _⟩
        | inr same => exact Or.inl (same ▸ rfl)
      next light => exact Or.inl (insertProbed_capacity inserted)
  | lookup key =>
      obtain ⟨price, _, result⟩ := Option.map_eq_some_iff.mp responded
      cases result
      exact Or.inl rfl
  | remove key =>
      obtain ⟨done, deleted, result⟩ := Option.map_eq_some_iff.mp responded
      cases result
      exact Or.inl (symbolTableDelete_capacity deleted)

end C

/-- Every request returns, and leaves a table that is consistent. -/
theorem Consistent.responds {contents : Key → Option V} (consistent : Consistent table contents) (request : Request V) :
    ∃ response after, respond table request = some (response, after) ∧ ∃ contents, Consistent after contents := by
  cases request with
  | insert key value =>
      cases consistent.insert_cases key value with
      | inl refused => exact ⟨.inserted false, table, by rw [respond, refused.1]; rfl, contents, consistent⟩
      | inr accepted =>
          obtain ⟨after, inserted, consistentAfter, _⟩ := accepted
          exact ⟨.inserted true, after, by rw [respond, inserted]; rfl, _, consistentAfter⟩
  | lookup key =>
      exact ⟨_, table, by rw [respond, consistent.structured.lookup_eq key]; rfl, contents, consistent⟩
  | remove key =>
      obtain ⟨after, removed, consistentAfter, _⟩ := consistent.remove_cases key
      exact ⟨_, after, by rw [respond, removed]; rfl, _, consistentAfter⟩

/-- While at most `most` keys and `left` tombstones are in the table at once, its capacity stays
within the bound: the table of C++, and the table of C with symbols of at most seven characters. -/
theorem capacity_bounded (requests : List (Request V)) (most left : Nat) :
    (Meets (logged respond) (fun state _ => state.1.size ≤ most ∧ state.1.tombstones ≤ left)
        ((create 16 : SymbolTable V), []) requests →
      ∃ table log, run (logged respond) (create 16, []) requests = some (table, log) ∧
        table.capacity ≤ max 16 (4 * (most + left + 1))) ∧
    ∀ calloc, (∀ count, calloc count = true) → (∀ request ∈ requests, request.Fits) →
      Meets (logged (C.respond calloc)) (fun state _ => state.1.count ≤ most ∧ state.1.tombstones ≤ left)
        ((C.symbolTableCreate 16 : C.SymbolTable V), []) requests →
      ∃ table log, run (logged (C.respond calloc)) (C.symbolTableCreate 16, []) requests = some (table, log) ∧
        table.capacity ≤ max 16 (4 * (most + left + 1)) := by
  constructor
  · intro meets
    obtain ⟨final, completed, _, bounded⟩ := run_completes_meeting
      (fun state => (∃ contents, Consistent state.1 contents) ∧ state.1.capacity ≤ capacityBound most left) (by
        intro state request kept few
        obtain ⟨⟨contents, consistent⟩, bounded⟩ := kept
        obtain ⟨response, after, responded, consistentAfter⟩ := consistent.responds request
        exact ⟨(after, _), by rw [logged, responded]; rfl, consistentAfter, (respond_grows responded).bounded bounded few⟩)
      ⟨⟨_, create_consistent⟩, Nat.le_max_left _ _⟩ meets
    exact ⟨final.1, final.2, completed, bounded⟩
  · intro calloc succeeds fits meets
    obtain ⟨log, other, _, completed, _⟩ := traces_agree succeeds fits
    refine ⟨other, log, completed, ?_⟩
    apply run_invariant_meeting (fun state => state.1.capacity ≤ capacityBound most left) _ (Nat.le_max_left _ _) meets
      completed
    intro state request after bounded few stepped
    obtain ⟨answered, responded, result⟩ := Option.map_eq_some_iff.mp stepped
    cases result
    exact (C.respond_grows responded).bounded bounded few

/-- One key after the other, each removed before the next comes. -/
def churn (count : Nat) : List (Request Nat) :=
  (List.range count).flatMap fun key => [.insert [UInt8.ofNat (key + 1)] 0, .remove [UInt8.ofNat (key + 1)]]


/-- There is never more than one key in the table, and it doubles. -/
theorem churn_doubles :
    Meets (logged respond) (fun state _ => state.1.size ≤ 1) ((create 16 : SymbolTable Nat), []) (churn 12) ∧
      ∃ table log, run (logged respond) ((create 16 : SymbolTable Nat), []) (churn 12) = some (table, log) ∧
        table.size ≤ 1 ∧ ¬ table.capacity ≤ max 16 (4 * (1 + 1)) := by
  have checked : ((run (logged respond) ((create 16 : SymbolTable Nat), []) (churn 12)).map fun state =>
      decide (state.1.size ≤ 1 ∧ ¬ state.1.capacity ≤ max 16 (4 * (1 + 1)))) = some true := by
    decide +kernel
  obtain ⟨state, completed, large⟩ := Option.map_eq_some_iff.mp checked
  exact ⟨by decide +kernel, state.1, state.2, completed, of_decide_eq_true large⟩

/-- The eleven tombstones of the churn account for the doubled table. -/
theorem capacity_bounded_churn :
    ∃ table log, run (logged respond) ((create 16 : SymbolTable Nat), []) (churn 12) = some (table, log) ∧
      table.capacity ≤ max 16 (4 * (1 + 11 + 1)) :=
  (capacity_bounded (churn 12) 1 11).1 (by decide +kernel)

end HundredDays.LookUpTable
