import HundredDays.LookUpTable.Agreement

namespace HundredDays.LookUpTable

open HundredDays.Data.Probing HundredDays.Semantics SymbolTable

/-! What the two tables answer, request by request. -/

variable {V : Type} [Inhabited V] {table : SymbolTable V} {other : C.SymbolTable V} {calloc : Nat → Bool}
  {contents : Key → Option V}

inductive Response (V : Type) where
  | inserted (accepted : Bool)
  | found (price : Option V)
  | deleted (present : Bool)
  deriving DecidableEq

def respond (table : SymbolTable V) : Request V → Option (Response V × SymbolTable V)
  | .insert key value => (table.insert key value).map fun done => (.inserted done.1, done.2)
  | .lookup key => (table.lookup key).map fun price => (.found price, table)
  | .remove key => (table.remove key).map fun done => (.deleted done.1, done.2)

def C.respond (calloc : Nat → Bool) (table : C.SymbolTable V) :
    Request V → Option (Response V × C.SymbolTable V)
  | .insert symbol price =>
      (C.symbolTableInsert calloc table symbol price).map fun done => (.inserted done.1, done.2)
  | .lookup symbol => (C.symbolTableLookup table symbol).map fun price => (.found price, table)
  | .remove symbol => (C.symbolTableDelete table symbol).map fun done => (.deleted done.1, done.2)

/-- Inserted symbols have at most seven characters; any string may be asked for. -/
def Request.Fits : Request V → Prop
  | .insert symbol _ => Short symbol
  | .lookup symbol => ∀ byte ∈ symbol, byte ≠ 0
  | .remove symbol => ∀ byte ∈ symbol, byte ≠ 0

/-- The inserts that were accepted, up to the next delete of their symbol. -/
def keep (kept : Key → Option V) : Request V × Response V → Key → Option V
  | (.insert key value, .inserted true) => Function.update kept key (some value)
  | (.remove key, _) => Function.update kept key none
  | _ => kept

def keptAfter (log : List (Request V × Response V)) : Key → Option V := log.foldl keep fun _ => none

omit [Inhabited V] in
theorem keptAfter_concat {log : List (Request V × Response V)} {exchange : Request V × Response V} :
    keptAfter (log ++ [exchange]) = keep (keptAfter log) exchange := by
  simp [keptAfter]

theorem create_agrees (capacity : Nat) :
    Agrees (C.symbolTableCreate capacity : C.SymbolTable V) (SymbolTable.create capacity) :=
  ⟨rfl, rfl, rfl, fun _ => clearSlot_alike⟩

/-- A request has the same response from both tables. -/
theorem respond_agrees (succeeds : ∀ count, calloc count = true) (agrees : Agrees other table)
    (consistent : Consistent table contents) {request : Request V} (fits : request.Fits) :
    ∃ response cAfter after, C.respond calloc other request = some (response, cAfter) ∧
      respond table request = some (response, after) ∧ Agrees cAfter after ∧
      Consistent after (keep contents (request, response)) := by
  cases request with
  | insert symbol price =>
      have both := agrees.insert succeeds consistent fits price
      cases consistent.insert_cases symbol price with
      | inl refused =>
          rw [refused.1] at both
          obtain ⟨cAfter, inserted, agreesAfter⟩ := answered both
          exact ⟨.inserted false, cAfter, table, by rw [C.respond, inserted]; rfl,
            by rw [respond, refused.1]; rfl, agreesAfter, consistent⟩
      | inr accepted =>
          obtain ⟨after, accepted, consistentAfter, _⟩ := accepted
          rw [accepted] at both
          obtain ⟨cAfter, inserted, agreesAfter⟩ := answered both
          exact ⟨.inserted true, cAfter, after, by rw [C.respond, inserted]; rfl,
            by rw [respond, accepted]; rfl, agreesAfter, consistentAfter⟩
  | lookup symbol =>
      have found := consistent.structured.lookup_eq symbol
      exact ⟨_, other, table, by rw [C.respond, agrees.lookup fits, found]; rfl, by rw [respond, found]; rfl,
        agrees, consistent⟩
  | remove symbol =>
      have both := agrees.delete fits
      obtain ⟨after, removed, consistentAfter, _⟩ := consistent.remove_cases symbol
      rw [removed] at both
      obtain ⟨cAfter, deleted, agreesAfter⟩ := answered both
      exact ⟨_, cAfter, after, by rw [C.respond, deleted]; rfl, by rw [respond, removed]; rfl, agreesAfter,
        consistentAfter⟩

/-- The tables answer the same and stay alike. -/
theorem traces_agree (succeeds : ∀ count, calloc count = true) {requests : List (Request V)}
    (fits : ∀ request ∈ requests, request.Fits) :
    ∃ log other table, run (logged (C.respond calloc)) (C.symbolTableCreate 16, []) requests = some (other, log) ∧
      run (logged respond) (SymbolTable.create 16, []) requests = some (table, log) ∧ Agrees other table ∧
      Consistent table (keptAfter log) := by
  induction requests using List.reverseRecOn with
  | nil => exact ⟨[], _, _, rfl, rfl, create_agrees 16, create_consistent⟩
  | append_singleton earlier request ih =>
      obtain ⟨log, other, table, cRan, ran, agrees, consistent⟩ :=
        ih fun before member => fits before (List.mem_append_left _ member)
      obtain ⟨response, cAfter, after, cResponded, responded, agreesAfter, consistentAfter⟩ :=
        respond_agrees succeeds agrees consistent (fits request (by simp))
      refine ⟨log ++ [(request, response)], cAfter, after, ?_, ?_, agreesAfter, ?_⟩
      · exact run_concat_iff.mpr ⟨_, cRan, by simp [logged, cResponded]⟩
      · exact run_concat_iff.mpr ⟨_, ran, by simp [logged, responded]⟩
      · rw [keptAfter_concat]
        exact consistentAfter

/-- The C functions and the C++ class give the same results step by step, and their
slot arrays coincide but for what deleted slots have left. -/
theorem c_table_agrees_with_cpp (calloc : Nat → Bool) (succeeds : ∀ count, calloc count = true)
    (requests : List (Request V)) (fits : ∀ request ∈ requests, request.Fits) :
    ∃ log other table, run (logged (C.respond calloc)) (C.symbolTableCreate 16, []) requests = some (other, log) ∧
      run (logged respond) (SymbolTable.create 16, []) requests = some (table, log) ∧ Agrees other table := by
  obtain ⟨log, other, table, cRan, ran, agrees, _⟩ := traces_agree succeeds fits
  exact ⟨log, other, table, cRan, ran, agrees⟩

theorem c_table_agrees_with_cpp_smoke :
    ∃ log other table, run (logged (C.respond fun _ => true)) (C.symbolTableCreate 16, [])
        [.insert [65] 182, .remove [65], .insert [65, 66] 721, .lookup [65]] = some (other, log) ∧
      run (logged respond) ((SymbolTable.create 16 : SymbolTable Nat), [])
        [.insert [65] 182, .remove [65], .insert [65, 66] 721, .lookup [65]] = some (table, log) ∧
      Agrees other table :=
  c_table_agrees_with_cpp (fun _ => true) (fun _ => rfl) _ (by
    simp only [List.forall_mem_cons, Request.Fits]
    exact ⟨⟨by decide, by simp⟩, by simp, ⟨by decide, by simp⟩, by simp, by simp⟩)

/-- What was accepted is found, can be deleted and is not counted twice. -/
structure Keeps (calloc : Nat → Bool) (table : C.SymbolTable V) (kept : Key → Option V) : Prop where
  lookups : ∀ symbol price, kept symbol = some price → C.symbolTableLookup table symbol = some (some price)
  deletes : ∀ symbol price, kept symbol = some price → ∃ after,
    C.symbolTableDelete table symbol = some (true, after)
  inserts : ∀ symbol price, kept symbol = some price → ∀ new, ∃ after,
    C.symbolTableInsert calloc table symbol new = some (true, after) ∧ after.count = table.count
  count : table.count =
    ((Finset.range table.capacity).filter fun index => (table.slots index).state = .OCCUPIED).card

theorem Agrees.keeps (succeeds : ∀ count, calloc count = true) (agrees : Agrees other table)
    (consistent : Consistent table contents) : Keeps calloc other contents := by
  have structured := consistent.structured
  have short : ∀ symbol price, contents symbol = some price → Short symbol := by
    intro symbol price held
    obtain ⟨index, full⟩ := (structured.holds symbol price).mp held
    obtain ⟨state, same, _⟩ := cell_full.mp full
    exact same ▸ (agrees.slots index).short state
  constructor
  · intro symbol price held
    rw [agrees.lookup (short symbol price held).terminated, structured.lookup_eq, held]
  · intro symbol price held
    have both := agrees.delete (short symbol price held).terminated
    obtain ⟨after, removed, _⟩ := structured.remove_held held
    rw [removed] at both
    obtain ⟨cAfter, deleted, _⟩ := answered both
    exact ⟨cAfter, deleted⟩
  · intro symbol price held new
    have both := agrees.insert succeeds consistent (short symbol price held) new
    cases consistent.insert_cases symbol new with
    | inl refused =>
        rw [held] at refused
        cases refused.2.1
    | inr accepted =>
        obtain ⟨after, inserted, _, counted, _⟩ := accepted
        rw [inserted] at both
        obtain ⟨cAfter, cInserted, agreesAfter⟩ := answered both
        refine ⟨cAfter, cInserted, ?_⟩
        rw [agreesAfter.count, agrees.count, counted, held]
        rfl
  · rw [agrees.count, agrees.capacity, structured.count,
      ← tally_extend structured.probed.inside rfl structured.size_le_capacity, tally]
    congr 1
    apply Finset.filter_congr
    intro index _
    rw [(agrees.slots index).state]
    cases state : (table.slots index).state <;> simp [cells, Slot.cell, Cell.isFull, state]

/-- As long as every inserted symbol has at most seven characters, the table keeps
what it accepts. -/
theorem c_table_keeps (calloc : Nat → Bool) (succeeds : ∀ count, calloc count = true)
    (requests : List (Request V)) (fits : ∀ request ∈ requests, request.Fits) :
    ∃ log table, run (logged (C.respond calloc)) (C.symbolTableCreate 16, []) requests = some (table, log) ∧
      Keeps calloc table (keptAfter log) := by
  obtain ⟨log, other, table, ran, _, agrees, consistent⟩ := traces_agree succeeds fits
  exact ⟨log, other, ran, agrees.keeps succeeds consistent⟩

theorem c_table_keeps_replaced :
    ∃ log table, run (logged (C.respond fun _ => true)) ((C.symbolTableCreate 16 : C.SymbolTable Nat), [])
        [.insert [65] 182, .insert [65] 721] = some (table, log) ∧ Keeps (fun _ => true) table (keptAfter log) :=
  c_table_keeps (fun _ => true) (fun _ => rfl) _ (by
    simp only [List.forall_mem_cons, Request.Fits]
    exact ⟨⟨by decide, by simp⟩, ⟨by decide, by simp⟩, by simp⟩)

/-- A symbol of eight characters is stored without its last one: it is not found, and
inserted once more. -/
theorem long_symbol_lost : ∃ table again,
    C.symbolTableInsert (fun _ => true) (C.symbolTableCreate 16) [65, 66, 67, 68, 69, 70, 71, 72] 5 =
      some (true, table) ∧
    C.symbolTableLookup table [65, 66, 67, 68, 69, 70, 71, 72] = some (none : Option Nat) ∧
    C.symbolTableInsert (fun _ => true) table [65, 66, 67, 68, 69, 70, 71, 72] 5 = some (true, again) ∧
    again.count = 2 := by
  have ran : ((C.symbolTableInsert (fun _ => true) (C.symbolTableCreate 16)
      [65, 66, 67, 68, 69, 70, 71, 72] (5 : Nat)).bind fun first =>
      ((C.symbolTableInsert (fun _ => true) first.2 [65, 66, 67, 68, 69, 70, 71, 72] 5).filter fun second =>
        first.1 && second.1 && decide (second.2.count = 2) &&
        decide (C.symbolTableLookup first.2 [65, 66, 67, 68, 69, 70, 71, 72] = some none))).isSome = true := by
    decide +kernel
  obtain ⟨second, ran⟩ := Option.isSome_iff_exists.mp ran
  obtain ⟨first, inserted, ran⟩ := Option.bind_eq_some_iff.mp ran
  obtain ⟨insertedAgain, checks⟩ := Option.filter_eq_some_iff.mp ran
  simp only [Bool.and_eq_true, decide_eq_true_eq] at checks
  obtain ⟨⟨⟨accepted, acceptedAgain⟩, counted⟩, lost⟩ := checks
  refine ⟨first.2, second.2, ?_, lost, ?_, counted⟩
  · rw [inserted, ← accepted]
  · rw [insertedAgain, ← acceptedAgain]

end HundredDays.LookUpTable
