import HundredDays.PriceTracker.Updates
import Mathlib.Order.Bounds.Defs

namespace HundredDays.PriceTracker

open HundredDays.Semantics

/-! The price under `update_if_higher` is an atomic maximum.

What a call compares with was the price at an instant of the call, and no price is ever
replaced by a lower one.
-/

variable {ι : Type*} [DecidableEq ι] {state after : Updates ι} {thread other : ι} {price later : Int}
  {history : List Int} {call : Return} {update : Update ι}

/-- The candidate of a call, and the instant at which it began. -/
def Call.request : Call → Option (Int × Nat)
  | .idle => none
  | .entered candidate start | .loaded candidate _ start => some (candidate, start)

namespace Return

/-- The last step of the call replaced a lower price by its candidate. -/
def Installed (history : List Int) (call : Return) : Prop :=
  ∃ instant before, instant + 1 = call.finish ∧ history[instant]? = some before ∧ before < call.candidate ∧
    history[instant + 1]? = some call.candidate

/-- At an instant of the call the price was at least its candidate. -/
def Covered (history : List Int) (call : Return) : Prop :=
  ∃ instant price, call.start ≤ instant ∧ instant ≤ call.finish ∧ history[instant]? = some price ∧ call.candidate ≤ price

structure Right (history : List Int) (call : Return) : Prop where
  finished : call.finish < history.length
  installed : call.updated = true ↔ call.Installed history
  covered : call.updated = false → call.Covered history

/-- What comes later does not change what a call has done. -/
theorem Right.append (right : call.Right history) : call.Right (history ++ [later]) := by
  obtain ⟨finished, installed, covered⟩ := right
  have same : ∀ instant, instant ≤ call.finish → (history ++ [later])[instant]? = history[instant]? := by
    intro instant early
    exact List.getElem?_append_left (Nat.lt_of_le_of_lt early finished)
  constructor
  · rw [List.length_append]
    exact Nat.lt_add_right 1 finished
  · rw [installed]
    constructor
    · intro found
      obtain ⟨instant, before, last, there, lower, here⟩ := found
      exact ⟨instant, before, last, by rw [same instant (by omega), there], lower, by rw [same _ (by omega), here]⟩
    · intro found
      obtain ⟨instant, before, last, there, lower, here⟩ := found
      rw [same instant (by omega)] at there
      rw [same _ (by omega)] at here
      exact ⟨instant, before, last, there, lower, here⟩
  · intro refused
    obtain ⟨instant, price, begun, ended, there, above⟩ := covered refused
    exact ⟨instant, price, begun, ended, by rw [same instant ended, there], above⟩

end Return

namespace Updates

/-- What one step can do. -/
inductive Moves (state : Updates ι) : Updates ι → Prop
  | enter (thread : ι) (candidate : Int) (idle : state.calls thread = .idle) : state.Moves (state.enter thread candidate)
  | load (thread : ι) (candidate : Int) (start : Nat) (requested : (state.calls thread).request = some (candidate, start)) :
      state.Moves (state.load thread candidate start)
  | install (thread : ι) (candidate : Int) (start : Nat)
      (requested : (state.calls thread).request = some (candidate, start)) (higher : state.price < candidate) :
      state.Moves (state.install thread candidate start)
  | refuse (thread : ι) (candidate current : Int) (start : Nat)
      (loaded : state.calls thread = .loaded candidate current start) (covered : candidate ≤ current) :
      state.Moves (state.refuse thread candidate start)

theorem step_moves (stepped : state.step update = some after) : state.Moves after := by
  cases update with
  | call thread candidate =>
      cases called : state.calls thread with
      | idle =>
          simp only [step, called, Option.some.injEq] at stepped
          subst after
          exact .enter thread candidate called
      | entered _ _ => simp [step, called] at stepped
      | loaded _ _ _ => simp [step, called] at stepped
  | step thread spurious =>
      cases called : state.calls thread with
      | idle => simp [step, updateIfHigher, called] at stepped
      | entered candidate start =>
          simp only [step, updateIfHigher, called, Option.some.injEq] at stepped
          subst after
          exact .load thread candidate start (by rw [called, Call.request])
      | loaded candidate current start =>
          have requested : (state.calls thread).request = some (candidate, start) := by rw [called, Call.request]
          simp only [step, updateIfHigher, called] at stepped
          split at stepped
          next higher =>
            split at stepped
            next exchanged =>
              cases stepped
              exact .install thread candidate start requested (exchanged.1 ▸ higher)
            next failed =>
              cases stepped
              exact .load thread candidate start requested
          next covered =>
            cases stepped
            exact .refuse thread candidate current start called (Int.not_lt.mp covered)

omit [DecidableEq ι] in
theorem history_present : state.history[state.past.length]? = some state.price := by
  simp [history]

omit [DecidableEq ι] in
theorem next_eq : state.next = state.past.length + 1 := by
  simp [next, history]

/-- What is known of the calls and of their returns from the prices so far. -/
structure Recorded (state : Updates ι) : Prop where
  rising : state.history.Pairwise (· ≤ ·)
  begun : ∀ thread candidate start, (state.calls thread).request = some (candidate, start) → start < state.next
  loads : ∀ thread candidate current start, state.calls thread = .loaded candidate current start →
    ∃ instant, start ≤ instant ∧ instant < state.next ∧ state.history[instant]? = some current
  returns : ∀ call ∈ state.returns, call.Right state.history
  changes : ∀ instant before here, state.history[instant]? = some before → state.history[instant + 1]? = some here →
    before ≠ here → ∃ call ∈ state.returns, call.updated = true ∧ call.finish = instant + 1

omit [DecidableEq ι] in
theorem initial_recorded : (initial price : Updates ι).Recorded := by
  constructor
  · exact List.pairwise_singleton _ _
  · intro thread candidate start requested
    cases requested
  · intro thread candidate current start loaded
    cases loaded
  · intro call listed
    cases listed
  · intro instant before here _ present
    cases present

omit [DecidableEq ι] in
theorem Recorded.rising_append (recorded : state.Recorded) (higher : state.price ≤ later) :
    (state.history ++ [later]).Pairwise (· ≤ ·) := by
  obtain ⟨_, _, below⟩ := List.pairwise_append.mp recorded.rising
  apply List.pairwise_append.mpr
  refine ⟨recorded.rising, List.pairwise_singleton _ _, ?_⟩
  intro earlier listed last same
  cases List.mem_singleton.mp same
  cases List.mem_append.mp listed with
  | inl past => exact Int.le_trans (below earlier past state.price List.mem_cons_self) higher
  | inr present =>
      cases List.mem_singleton.mp present
      exact higher

/-- A step of one thread adds one price, no lower than the last. -/
theorem Recorded.move {call : Call} (recorded : state.Recorded)
    (longer : after.history = state.history ++ [after.price]) (higher : state.price ≤ after.price)
    (calls : after.calls = Function.update state.calls thread call)
    (begun : ∀ candidate start, call.request = some (candidate, start) → start ≤ state.next)
    (loads : ∀ candidate current start, call = .loaded candidate current start →
      ∃ instant, start ≤ instant ∧ instant < after.next ∧ after.history[instant]? = some current)
    (kept : ∀ call ∈ state.returns, call ∈ after.returns)
    (returns : ∀ call ∈ after.returns, call ∈ state.returns ∨ call.Right after.history)
    (changed : state.price ≠ after.price → ∃ call ∈ after.returns, call.updated = true ∧ call.finish = state.next) :
    after.Recorded := by
  have lengthens : after.next = state.next + 1 := by
    rw [next, longer, List.length_append, next, List.length_singleton]
  have same : ∀ instant, instant < state.next → after.history[instant]? = state.history[instant]? := by
    intro instant early
    rw [longer]
    exact List.getElem?_append_left early
  constructor
  · rw [longer]
    exact recorded.rising_append higher
  · intro other candidate start requested
    rw [calls] at requested
    by_cases moved : other = thread
    · rw [moved, Function.update_self] at requested
      have := begun candidate start requested
      omega
    · rw [Function.update_of_ne moved] at requested
      have := recorded.begun other candidate start requested
      omega
  · intro other candidate current start loaded
    rw [calls] at loaded
    by_cases moved : other = thread
    · rw [moved, Function.update_self] at loaded
      exact loads candidate current start loaded
    · rw [Function.update_of_ne moved] at loaded
      obtain ⟨instant, later, early, there⟩ := recorded.loads other candidate current start loaded
      exact ⟨instant, later, by omega, by rw [same instant early, there]⟩
  · intro call listed
    cases returns call listed with
    | inl earlier =>
        rw [longer]
        exact (recorded.returns call earlier).append
    | inr right => exact right
  · intro instant before here there present differ
    by_cases early : instant + 1 < state.next
    · rw [same instant (by omega)] at there
      rw [same _ early] at present
      obtain ⟨call, listed, updated, finished⟩ := recorded.changes instant before here there present differ
      exact ⟨call, kept call listed, updated, finished⟩
    · obtain ⟨inside, _⟩ := List.getElem?_eq_some_iff.mp present
      have last : instant + 1 = state.next := by
        have : after.history.length = after.next := rfl
        omega
      have position : instant = state.past.length := by
        rw [next_eq] at last
        omega
      rw [same instant (by omega), position, history_present] at there
      have : state.history.length = instant + 1 := last.symm
      rw [longer, ← this, List.getElem?_concat_length] at present
      cases there
      cases present
      rw [last]
      exact changed differ

omit [DecidableEq ι] in
/-- The last two prices after a step. -/
theorem last_prices (longer : after.history = state.history ++ [after.price]) :
    after.history[state.past.length]? = some state.price ∧ after.history[state.past.length + 1]? = some after.price := by
  rw [longer, ← next_eq]
  have early : state.past.length < state.history.length := by
    have : state.history.length = state.past.length + 1 := next_eq
    omega
  exact ⟨(List.getElem?_append_left early).trans history_present, List.getElem?_concat_length⟩

theorem install_right {candidate : Int} {start : Nat} (higher : state.price < candidate) :
    Return.Right (state.install thread candidate start).history ⟨candidate, true, start, state.next⟩ := by
  obtain ⟨before, here⟩ : _ ∧ (state.install thread candidate start).history[state.past.length + 1]? = some candidate :=
    last_prices rfl
  have lengthens : (state.install thread candidate start).next = state.next + 1 := next_eq
  constructor
  · exact Nat.lt_of_lt_of_eq (Nat.lt_succ_self state.next) lengthens.symm
  · constructor
    · intro _
      exact ⟨state.past.length, state.price, next_eq.symm, before, higher, here⟩
    · intro _
      rfl
  · intro refused
    cases refused

theorem Recorded.refuse_right {candidate current : Int} {start : Nat} (recorded : state.Recorded)
    (loaded : state.calls thread = .loaded candidate current start) (covered : candidate ≤ current) :
    Return.Right (state.refuse thread candidate start).history ⟨candidate, false, start, state.next⟩ := by
  obtain ⟨before, here⟩ : _ ∧ (state.refuse thread candidate start).history[state.past.length + 1]? = some state.price :=
    last_prices rfl
  have lengthens : (state.refuse thread candidate start).next = state.next + 1 := next_eq
  constructor
  · exact Nat.lt_of_lt_of_eq (Nat.lt_succ_self state.next) lengthens.symm
  · constructor
    · intro updated
      cases updated
    · intro installed
      -- The last step left the price as it was, and put no higher one in its place.
      obtain ⟨instant, earlier, last, there, lower, offered⟩ := installed
      have position : instant = state.past.length := Nat.succ.inj (last.trans next_eq)
      rw [position] at there offered
      rw [before] at there
      rw [here] at offered
      cases there
      cases offered
      exact absurd lower (Int.lt_irrefl _)
  · intro _
    obtain ⟨instant, later, early, there⟩ := recorded.loads thread candidate current start loaded
    exact ⟨instant, current, later, Nat.le_of_lt early, (List.getElem?_append_left early).trans there, covered⟩

theorem Recorded.moves (recorded : state.Recorded) (moves : state.Moves after) : after.Recorded := by
  cases moves with
  | enter thread candidate idle =>
      refine recorded.move rfl (Int.le_refl _) rfl ?_ ?_ (fun _ listed => listed) (fun _ listed => Or.inl listed)
        (fun differ => absurd rfl differ)
      · intro offered start requested
        cases requested
        exact Nat.le_refl _
      · intro offered current start loaded
        cases loaded
  | load thread candidate start requested =>
      have begun := recorded.begun thread candidate start requested
      refine recorded.move rfl (Int.le_refl _) rfl ?_ ?_ (fun _ listed => listed) (fun _ listed => Or.inl listed)
        (fun differ => absurd rfl differ)
      · intro offered first same
        cases same
        exact Nat.le_of_lt begun
      · intro offered current first loaded
        cases loaded
        refine ⟨state.next, Nat.le_of_lt begun, ?_, history_present⟩
        have lengthens : (state.load thread candidate start).next = state.next + 1 := next_eq
        rw [lengthens]
        exact Nat.lt_succ_self _
  | install thread candidate start requested higher =>
      refine recorded.move rfl (Int.le_of_lt higher) rfl ?_ ?_ (fun _ listed => List.mem_append_left _ listed) ?_ ?_
      · intro offered first idle
        cases idle
      · intro offered current first idle
        cases idle
      · intro call listed
        cases List.mem_append.mp listed with
        | inl earlier => exact Or.inl earlier
        | inr new =>
            cases List.mem_singleton.mp new
            exact Or.inr (install_right higher)
      · intro _
        exact ⟨_, List.mem_append_right _ List.mem_cons_self, rfl, rfl⟩
  | refuse thread candidate current start loaded covered =>
      refine recorded.move rfl (Int.le_refl _) rfl ?_ ?_ (fun _ listed => List.mem_append_left _ listed) ?_
        (fun differ => absurd rfl differ)
      · intro offered first idle
        cases idle
      · intro offered current first idle
        cases idle
      · intro call listed
        cases List.mem_append.mp listed with
        | inl earlier => exact Or.inl earlier
        | inr new =>
            cases List.mem_singleton.mp new
            exact Or.inr (recorded.refuse_right loaded covered)

/-- The price was offered, and covers every candidate but those of calls that go on. -/
structure Reached (price : Int) (state : Updates ι) : Prop where
  least : price ≤ state.price
  offered : state.price = price ∨ state.price ∈ state.candidates
  listed : ∀ thread candidate start, (state.calls thread).request = some (candidate, start) → candidate ∈ state.candidates
  covers : ∀ candidate ∈ state.candidates, candidate ≤ state.price ∨
    ∃ thread start, (state.calls thread).request = some (candidate, start)

omit [DecidableEq ι] in
theorem initial_reached : (initial price : Updates ι).Reached price := by
  constructor
  · exact Int.le_refl price
  · exact Or.inl rfl
  · intro thread candidate start requested
    cases requested
  · intro candidate listed
    cases listed

/-- A step of one thread may only let go of a candidate that the price covers. -/
theorem Reached.move {call : Call} (reached : state.Reached price) (higher : state.price ≤ after.price)
    (offered : after.price = state.price ∨ after.price ∈ after.candidates)
    (calls : after.calls = Function.update state.calls thread call)
    (grows : ∀ candidate ∈ state.candidates, candidate ∈ after.candidates)
    (requests : ∀ candidate start, call.request = some (candidate, start) → candidate ∈ after.candidates)
    (fresh : ∀ candidate ∈ after.candidates, candidate ∈ state.candidates ∨ ∃ start, call.request = some (candidate, start))
    (released : ∀ candidate start, (state.calls thread).request = some (candidate, start) →
      candidate ≤ after.price ∨ ∃ first, call.request = some (candidate, first)) :
    after.Reached price := by
  have mine : after.calls thread = call := by rw [calls, Function.update_self]
  have others : ∀ other, other ≠ thread → after.calls other = state.calls other := by
    intro other apart
    rw [calls, Function.update_of_ne apart]
  constructor
  · exact Int.le_trans reached.least higher
  · cases offered with
    | inl same =>
        rw [same]
        exact reached.offered.imp_right (grows _)
    | inr new => exact Or.inr new
  · intro other candidate start requested
    by_cases moved : other = thread
    · rw [moved, mine] at requested
      exact requests candidate start requested
    · rw [others other moved] at requested
      exact grows candidate (reached.listed other candidate start requested)
  · intro candidate listed
    cases fresh candidate listed with
    | inr new =>
        obtain ⟨start, requested⟩ := new
        exact Or.inr ⟨thread, start, by rw [mine, requested]⟩
    | inl earlier =>
        cases reached.covers candidate earlier with
        | inl covered => exact Or.inl (Int.le_trans covered higher)
        | inr pending =>
            obtain ⟨other, start, requested⟩ := pending
            by_cases moved : other = thread
            · rw [moved] at requested
              cases released candidate start requested with
              | inl covered => exact Or.inl covered
              | inr goesOn =>
                  obtain ⟨first, requested⟩ := goesOn
                  exact Or.inr ⟨thread, first, by rw [mine, requested]⟩
            · exact Or.inr ⟨other, start, by rw [others other moved, requested]⟩

omit [DecidableEq ι] in
/-- No price was ever above the present one. -/
theorem Recorded.le_price {instant : Nat} {current : Int} (recorded : state.Recorded)
    (there : state.history[instant]? = some current) : current ≤ state.price := by
  obtain ⟨_, _, below⟩ := List.pairwise_append.mp recorded.rising
  cases List.mem_append.mp (List.mem_of_getElem? there) with
  | inl past => exact below current past state.price List.mem_cons_self
  | inr present => exact Int.le_of_eq (List.mem_singleton.mp present)

theorem Reached.moves (reached : state.Reached price) (recorded : state.Recorded) (moves : state.Moves after) :
    after.Reached price := by
  cases moves with
  | enter thread candidate idle =>
      refine reached.move (Int.le_refl _) (Or.inl rfl) rfl (fun _ listed => List.mem_append_left _ listed) ?_ ?_ ?_
      · intro offered start requested
        cases requested
        exact List.mem_append_right _ List.mem_cons_self
      · intro offered listed
        cases List.mem_append.mp listed with
        | inl earlier => exact Or.inl earlier
        | inr new =>
            cases List.mem_singleton.mp new
            exact Or.inr ⟨state.next, rfl⟩
      · intro offered start requested
        rw [idle] at requested
        cases requested
  | load thread candidate start requested =>
      refine reached.move (Int.le_refl _) (Or.inl rfl) rfl (fun _ listed => listed) ?_ (fun _ listed => Or.inl listed) ?_
      · intro offered first same
        cases same
        exact reached.listed thread candidate start requested
      · intro offered first same
        cases requested.symm.trans same
        exact Or.inr ⟨start, rfl⟩
  | install thread candidate start requested higher =>
      refine reached.move (Int.le_of_lt higher) (Or.inr (reached.listed thread candidate start requested)) rfl
        (fun _ listed => listed) ?_ (fun _ listed => Or.inl listed) ?_
      · intro offered first idle
        cases idle
      · intro offered first same
        cases requested.symm.trans same
        exact Or.inl (Int.le_refl _)
  | refuse thread candidate current start loaded covered =>
      refine reached.move (Int.le_refl _) (Or.inl rfl) rfl (fun _ listed => listed) ?_ (fun _ listed => Or.inl listed) ?_
      · intro offered first idle
        cases idle
      · intro offered first same
        rw [loaded] at same
        cases same
        obtain ⟨instant, _, _, there⟩ := recorded.loads thread candidate current start loaded
        exact Or.inl (Int.le_trans covered (recorded.le_price there))

omit [DecidableEq ι] in
/-- When all calls have returned no candidate is left above the price. -/
theorem Reached.greatest (reached : state.Reached price) (returned : state.AllReturned) :
    IsGreatest {offer | offer = price ∨ offer ∈ state.candidates} state.price := by
  constructor
  · exact reached.offered
  · intro offer listed
    cases listed with
    | inl same => exact same ▸ reached.least
    | inr offered =>
        cases reached.covers offer offered with
        | inl covered => exact covered
        | inr pending =>
            obtain ⟨thread, start, requested⟩ := pending
            rw [returned thread] at requested
            cases requested

/-- In every run the price only rises, it is the maximum of all that was offered when all calls
have returned, a call returns 1 exactly when its last step put its candidate in the place of a
lower price, nothing else changes the price, and a call that returns 0 was covered. -/
theorem updateIfHigher_maximum (price : Int) (updates : List (Update ι)) (after : Updates ι)
    (completed : run step (initial price) updates = some after) :
    after.history.Pairwise (· ≤ ·) ∧
      (after.AllReturned → IsGreatest {offer | offer = price ∨ offer ∈ after.candidates} after.price) ∧
      (∀ call ∈ after.returns, (call.updated = true ↔ call.Installed after.history) ∧
        (call.updated = false → call.Covered after.history)) ∧
      ∀ instant before here, after.history[instant]? = some before → after.history[instant + 1]? = some here →
        before ≠ here → ∃ call ∈ after.returns, call.updated = true ∧ call.finish = instant + 1 := by
  have both : after.Recorded ∧ after.Reached price := by
    apply run_invariant (fun state => state.Recorded ∧ state.Reached price) _ ⟨initial_recorded, initial_reached⟩ completed
    intro state update after kept stepped
    have moves := step_moves stepped
    exact ⟨kept.1.moves moves, kept.2.moves kept.1 moves⟩
  obtain ⟨recorded, reached⟩ := both
  refine ⟨recorded.rising, reached.greatest, ?_, recorded.changes⟩
  intro call listed
  have right := recorded.returns call listed
  exact ⟨right.installed, right.covered⟩

/-- Two calls load the price 3; the higher candidate is installed first, and the other call loads
again and returns 0. -/
theorem updateIfHigher_maximum_race :
    ∃ after : Updates Bool, run step (initial 3)
      [.call false 5, .call true 7, .step false false, .step true false, .step true true, .step true false,
        .step false false, .step false false] = some after ∧
      after.history.Pairwise (· ≤ ·) ∧ after.history = [3, 3, 3, 3, 3, 3, 7, 7, 7] ∧
      after.returns.map Return.updated = [true, false] :=
  ⟨_, rfl, (updateIfHigher_maximum 3 [.call false 5, .call true 7, .step false false, .step true false, .step true true,
    .step true false, .step false false, .step false false] _ rfl).1, rfl, rfl⟩

end Updates

end HundredDays.PriceTracker
