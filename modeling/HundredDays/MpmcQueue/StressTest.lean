import HundredDays.MpmcQueue.Clients
import Mathlib.Algebra.BigOperators.Fin
import Mathlib.Algebra.BigOperators.Group.List.Basic
import Mathlib.Data.List.Range

namespace HundredDays.MpmcQueue.StressTest

open HundredDays.Data HundredDays.Semantics

/-! The test of the queue: producers push distinct items, consumers count what they pop.

The first `NUM_THREADS` threads are the producers.  The asserts of the consumers end the
program when they fail; those of `main` are its verdict.
-/

/-- How far a thread is in `producer` or `consumer`. -/
inductive Client where
  | producing (i : Nat)
  | consuming (popped_count : Nat)
  /-- Has popped a value, and will count it in `received`. -/
  | checking (popped_count val : Nat)
  /-- Will add the value to the sum. -/
  | adding (popped_count val : Nat)
  deriving DecidableEq

/-- What a thread does with the response of its call. -/
def Client.resume : Client → Response Nat → Client
  | .producing i, .pushed true => .producing (i + 1)
  | .consuming popped_count, .popped (some val) => .checking (popped_count + 1) val
  | client, _ => client

structure Globals (threads : Nat) where
  client : Fin threads → Client
  received : Nat → Nat
  total_consumed_sum : Nat
  aborted : Bool

section Test

variable (NUM_THREADS ITEMS_PER_THREAD : Nat)

abbrev TOTAL_ITEMS : Nat := NUM_THREADS * ITEMS_PER_THREAD

/-- The value that a producer pushes in a round of its loop. -/
def item (thread_id i : Nat) : Nat := (thread_id * ITEMS_PER_THREAD + i + 1) % 2 ^ 64

abbrev Program : Type := State Nat (NUM_THREADS + NUM_THREADS) × Globals (NUM_THREADS + NUM_THREADS)

def initial : Program NUM_THREADS :=
  (State.initial (NUM_THREADS + NUM_THREADS) fun _ => 0,
    { client := fun thread => if thread.val < NUM_THREADS then .producing 0 else .consuming 0
      received := fun _ => 0, total_consumed_sum := 0, aborted := false })

variable {NUM_THREADS}

namespace Globals

variable {threads : Nat}

def goto (globals : Globals threads) (thread : Fin threads) (client : Client) : Globals threads :=
  { globals with client := Function.update globals.client thread client }

def resume (globals : Globals threads) (thread : Fin threads) (response : Response Nat) : Globals threads :=
  globals.goto thread ((globals.client thread).resume response)

theorem goto_self (globals : Globals threads) (thread : Fin threads) :
    globals.goto thread (globals.client thread) = globals := by
  rw [goto, Function.update_eq_self]

end Globals

/-- The next step of a thread. -/
def advance (program : Program NUM_THREADS) (input : Fin (NUM_THREADS + NUM_THREADS) × Bool) :
    Option (Program NUM_THREADS) :=
  if program.2.aborted then none
  else
    match program.2.client input.1, program.1.phase input.1 with
    | .producing i, .idle =>
        if i < ITEMS_PER_THREAD then
          (step program.1 (.push input.1 (item ITEMS_PER_THREAD input.1 i))).map fun after => (after, program.2)
        else none
    | .consuming popped_count, .idle =>
        if popped_count < ITEMS_PER_THREAD then
          (step program.1 (.pop input.1)).map fun after => (after, program.2)
        else none
    | .checking popped_count val, _ =>
        if 1 ≤ val ∧ val ≤ TOTAL_ITEMS NUM_THREADS ITEMS_PER_THREAD then
          some (program.1, { program.2.goto input.1 (.adding popped_count val) with
            received := Function.update program.2.received val ((program.2.received val + 1) % 2 ^ 8)
            aborted := decide (program.2.received val ≠ 0) })
        else some (program.1, { program.2 with aborted := true })
    | .adding popped_count val, _ =>
        some (program.1, { program.2.goto input.1 (.consuming popped_count) with
          total_consumed_sum := (program.2.total_consumed_sum + val) % 2 ^ 64 })
    | _, _ => stepInside Globals.resume program input.1 input.2

/-- All threads can be joined. -/
def finished (program : Program NUM_THREADS) : Prop :=
  ∀ thread, program.2.client thread = .producing ITEMS_PER_THREAD ∨
    program.2.client thread = .consuming ITEMS_PER_THREAD

instance (program : Program NUM_THREADS) : Decidable (finished ITEMS_PER_THREAD program) :=
  inferInstanceAs (Decidable (∀ _, _ ∨ _))

variable (NUM_THREADS)

def expected_sum : Nat :=
  (List.range' 1 (TOTAL_ITEMS NUM_THREADS ITEMS_PER_THREAD)).foldl (fun sum i => (sum + i) % 2 ^ 64) 0

variable {NUM_THREADS}

/-- The asserts of `main`. -/
def verified (program : Program NUM_THREADS) : Prop :=
  (∀ i ∈ List.range' 1 (TOTAL_ITEMS NUM_THREADS ITEMS_PER_THREAD), program.2.received i = 1) ∧
    program.2.total_consumed_sum = expected_sum NUM_THREADS ITEMS_PER_THREAD

end Test

/-! ### What one step does -/

variable {NUM_THREADS ITEMS_PER_THREAD : Nat} {program next : Program NUM_THREADS}
  {thread : Fin (NUM_THREADS + NUM_THREADS)} {spurious : Bool} {client : Client} {stage : Stage Nat}

abbrev View : Type := Client × Stage Nat

def view (program : Program NUM_THREADS) (thread : Fin (NUM_THREADS + NUM_THREADS)) : View :=
  (program.2.client thread, (program.1.phase thread).stage)

/-- How many items of a producer have a ticket. -/
def issued : View → Nat
  | (.producing i, .storing) => i + 1
  | (.producing i, _) => i
  | _ => 0

/-- How many values a consumer has popped. -/
def consumed : View → Nat
  | (.producing _, _) => 0
  | (.consuming popped_count, _) => popped_count
  | (.checking popped_count _, _) => popped_count
  | (.adding popped_count _, _) => popped_count

/-- How often a value is popped and not counted yet. -/
def unchecked (val : Nat) : View → Nat
  | (.checking _ other, _) => if other = val then 1 else 0
  | _ => 0

/-- What is popped and not in the sum yet. -/
def unadded : View → Nat
  | (.checking _ val, _) => val
  | (.adding _ val, _) => val
  | _ => 0

/-- How far a thread may be. -/
def Fits (ITEMS_PER_THREAD : Nat) (thread : Fin (NUM_THREADS + NUM_THREADS)) : View → Prop
  | (.producing i, .idle) => thread.val < NUM_THREADS ∧ i ≤ ITEMS_PER_THREAD
  | (.producing i, .offering val) =>
      thread.val < NUM_THREADS ∧ i < ITEMS_PER_THREAD ∧ val = item ITEMS_PER_THREAD thread i
  | (.producing i, .storing) => thread.val < NUM_THREADS ∧ i < ITEMS_PER_THREAD
  | (.consuming popped_count, .idle) => NUM_THREADS ≤ thread.val ∧ popped_count ≤ ITEMS_PER_THREAD
  | (.consuming popped_count, .seeking) => NUM_THREADS ≤ thread.val ∧ popped_count < ITEMS_PER_THREAD
  | (.consuming popped_count, .taking) => NUM_THREADS ≤ thread.val ∧ popped_count < ITEMS_PER_THREAD
  | (.checking popped_count _, .idle) => NUM_THREADS ≤ thread.val ∧ popped_count ≤ ITEMS_PER_THREAD
  | (.adding popped_count _, .idle) => NUM_THREADS ≤ thread.val ∧ popped_count ≤ ITEMS_PER_THREAD
  | _ => False

/-- The items of the producers that have a ticket. -/
structure Issues (ITEMS_PER_THREAD : Nat) (views : Fin (NUM_THREADS + NUM_THREADS) → View)
    (pushes : List (Fin (NUM_THREADS + NUM_THREADS) × Nat)) : Prop where
  pushed : ∀ push ∈ pushes, push.1.val < NUM_THREADS ∧ ∃ i < issued (views push.1), i < ITEMS_PER_THREAD ∧
    push.2 = item ITEMS_PER_THREAD push.1 i
  counted : pushes.length = census issued views
  distinct : (pushes.map Prod.snd).Nodup

/-- What the consumers have counted and added of the values that were popped. -/
structure Receipts (views : Fin (NUM_THREADS + NUM_THREADS) → View) (returned : List Nat) (received : Nat → Nat)
    (sum : Nat) : Prop where
  taken : returned.length = census consumed views
  received : ∀ val, returned.count val = received val + census (unchecked val) views
  summed : returned.sum % 2 ^ 64 = (sum + census unadded views) % 2 ^ 64
  reduced : sum < 2 ^ 64

structure Tested (ITEMS_PER_THREAD : Nat) (program : Program NUM_THREADS) : Prop where
  alive : program.2.aborted = false
  sound : Sound program.1
  fits : ∀ thread, Fits ITEMS_PER_THREAD thread (view program thread)
  issues : Issues ITEMS_PER_THREAD (view program) program.1.pushes
  receipts : Receipts (view program) (program.1.returned.map Prod.snd) program.2.received
    program.2.total_consumed_sum

theorem view_update (phase : Phase Nat) (moved : next.1.phase = Function.update program.1.phase thread phase)
    (turned : next.2.client = Function.update program.2.client thread client) :
    view next = Function.update (view program) thread (client, phase.stage) := by
  funext each
  rw [view, moved, turned]
  by_cases here : each = thread
  · rw [here, Function.update_self, Function.update_self, Function.update_self]
  · rw [Function.update_of_ne here, Function.update_of_ne here, Function.update_of_ne here, view]

/-- A member whose weight does not change. -/
theorem census_same {weight : View → Nat} {views : Fin (NUM_THREADS + NUM_THREADS) → View} {now : View}
    (same : weight now = weight (views thread)) :
    census weight (Function.update views thread now) = census weight views := by
  have changed := census_update weight views thread now
  omega

/-! ### The items -/

theorem item_eq (small : TOTAL_ITEMS NUM_THREADS ITEMS_PER_THREAD < 2 ^ 64) (producer : thread.val < NUM_THREADS)
    {i : Nat} (less : i < ITEMS_PER_THREAD) :
    item ITEMS_PER_THREAD thread i = thread.val * ITEMS_PER_THREAD + i + 1 ∧
      thread.val * ITEMS_PER_THREAD + i + 1 ≤ TOTAL_ITEMS NUM_THREADS ITEMS_PER_THREAD := by
  have inside : thread.val * ITEMS_PER_THREAD + i + 1 ≤ TOTAL_ITEMS NUM_THREADS ITEMS_PER_THREAD :=
    calc thread.val * ITEMS_PER_THREAD + i + 1 ≤ (thread.val + 1) * ITEMS_PER_THREAD := by
          rw [Nat.succ_mul]
          omega
      _ ≤ NUM_THREADS * ITEMS_PER_THREAD := Nat.mul_le_mul_right _ producer
  exact ⟨Nat.mod_eq_of_lt (Nat.lt_of_le_of_lt inside small), inside⟩

/-- No two rounds of the producers push the same item. -/
theorem item_inj (small : TOTAL_ITEMS NUM_THREADS ITEMS_PER_THREAD < 2 ^ 64)
    {other : Fin (NUM_THREADS + NUM_THREADS)} {i j : Nat} (producer : thread.val < NUM_THREADS)
    (less : i < ITEMS_PER_THREAD) (otherProducer : other.val < NUM_THREADS) (otherLess : j < ITEMS_PER_THREAD)
    (same : item ITEMS_PER_THREAD thread i = item ITEMS_PER_THREAD other j) : thread = other ∧ i = j := by
  rw [(item_eq small producer less).1, (item_eq small otherProducer otherLess).1, Nat.add_right_cancel_iff,
    Nat.mul_comm, Nat.mul_comm other.val] at same
  have positive : 0 < ITEMS_PER_THREAD := Nat.lt_of_le_of_lt (Nat.zero_le i) less
  have threads : thread.val = other.val := by
    have quotients := congrArg (fun number => number / ITEMS_PER_THREAD) same
    simpa only [Nat.mul_add_div positive, Nat.div_eq_of_lt less, Nat.div_eq_of_lt otherLess, Nat.add_zero]
      using quotients
  rw [threads] at same
  exact ⟨Fin.ext threads, Nat.add_left_cancel same⟩

section Lists

variable {views : Fin (NUM_THREADS + NUM_THREADS) → View} {now : View} {returned : List Nat}
  {pushes : List (Fin (NUM_THREADS + NUM_THREADS) × Nat)} {received : Nat → Nat} {sum val : Nat}

namespace Issues

theorem grow (issues : Issues ITEMS_PER_THREAD views pushes) (more : issued (views thread) ≤ issued now) :
    ∀ push ∈ pushes, push.1.val < NUM_THREADS ∧ ∃ i < issued (Function.update views thread now push.1),
      i < ITEMS_PER_THREAD ∧ push.2 = item ITEMS_PER_THREAD push.1 i := by
  intro push member
  obtain ⟨producer, i, inside, less, same⟩ := issues.pushed push member
  refine ⟨producer, i, ?_, less, same⟩
  by_cases here : push.1 = thread
  · rw [here] at inside
    rw [here, Function.update_self]
    omega
  · rwa [Function.update_of_ne here]

theorem keep (issues : Issues ITEMS_PER_THREAD views pushes) (same : issued now = issued (views thread)) :
    Issues ITEMS_PER_THREAD (Function.update views thread now) pushes :=
  ⟨issues.grow same.ge, issues.counted.trans (census_same same).symm, issues.distinct⟩

/-- A producer takes a ticket for its next item. -/
theorem claim (issues : Issues ITEMS_PER_THREAD views pushes)
    (small : TOTAL_ITEMS NUM_THREADS ITEMS_PER_THREAD < 2 ^ 64) (producer : thread.val < NUM_THREADS) {i : Nat}
    (less : i < ITEMS_PER_THREAD) (before : issued (views thread) = i) (after : issued now = i + 1) :
    Issues ITEMS_PER_THREAD (Function.update views thread now)
      (pushes ++ [(thread, item ITEMS_PER_THREAD thread i)]) := by
  constructor
  · intro push member
    obtain earlier | last := List.mem_append.mp member
    · exact issues.grow (by omega) push earlier
    · cases List.mem_singleton.mp last
      exact ⟨producer, i, by rw [Function.update_self, after]; exact Nat.lt_succ_self i, less, rfl⟩
  · have changed := census_update issued views thread now
    rw [List.length_append, List.length_singleton, issues.counted]
    omega
  · rw [List.map_append, List.map_singleton, ← List.concat_eq_append]
    refine issues.distinct.concat ?_
    intro again
    obtain ⟨push, member, same⟩ := List.mem_map.mp again
    obtain ⟨otherProducer, j, inside, otherLess, value⟩ := issues.pushed push member
    obtain ⟨here, rounds⟩ := item_inj small otherProducer otherLess producer less (value.symm.trans same)
    rw [here] at inside
    omega

/-- Every item that is pushed is one of the test. -/
theorem range (issues : Issues ITEMS_PER_THREAD views pushes)
    (small : TOTAL_ITEMS NUM_THREADS ITEMS_PER_THREAD < 2 ^ 64) (member : val ∈ pushes.map Prod.snd) :
    1 ≤ val ∧ val ≤ TOTAL_ITEMS NUM_THREADS ITEMS_PER_THREAD := by
  obtain ⟨push, pushed, rfl⟩ := List.mem_map.mp member
  obtain ⟨producer, i, _, less, value⟩ := issues.pushed push pushed
  obtain ⟨same, inside⟩ := item_eq small producer less
  rw [value, same]
  exact ⟨Nat.le_add_left 1 _, inside⟩

end Issues

namespace Receipts

theorem keep (receipts : Receipts views returned received sum) (same : consumed now = consumed (views thread))
    (checked : ∀ val, unchecked val now = unchecked val (views thread)) (added : unadded now = unadded (views thread)) :
    Receipts (Function.update views thread now) returned received sum :=
  { receipts with
    taken := receipts.taken.trans (census_same same).symm
    received := fun val => (receipts.received val).trans (by rw [census_same (checked val)])
    summed := receipts.summed.trans (by rw [census_same added]) }

/-- A consumer pops a value. -/
theorem take {popped_count : Nat} (receipts : Receipts views returned received sum)
    (before : views thread = (.consuming popped_count, .taking)) (val : Nat) :
    Receipts (Function.update views thread (.checking (popped_count + 1) val, .idle)) (returned ++ [val]) received
      sum := by
  have taken := census_update consumed views thread (.checking (popped_count + 1) val, .idle)
  have added := census_update unadded views thread (.checking (popped_count + 1) val, .idle)
  simp only [before, consumed, unadded] at taken added
  constructor
  · rw [List.length_append, List.length_singleton, receipts.taken]
    omega
  · intro each
    have checked := census_update (unchecked each) views thread (.checking (popped_count + 1) val, .idle)
    simp only [before, unchecked] at checked
    rw [List.count_append, List.count_singleton, receipts.received each]
    simp only [beq_iff_eq]
    omega
  · have summed := receipts.summed
    rw [List.sum_append, List.sum_singleton]
    omega
  · exact receipts.reduced

/-- A consumer counts a value that nobody has counted. -/
theorem check {popped_count : Nat} (receipts : Receipts views returned received sum)
    (before : views thread = (.checking popped_count val, stage)) (first : received val = 0) :
    Receipts (Function.update views thread (.adding popped_count val, stage)) returned
      (Function.update received val ((received val + 1) % 2 ^ 8)) sum := by
  have taken := census_update consumed views thread (.adding popped_count val, stage)
  have added := census_update unadded views thread (.adding popped_count val, stage)
  simp only [before, consumed, unadded] at taken added
  constructor
  · rw [receipts.taken]
    omega
  · intro each
    have checked := census_update (unchecked each) views thread (.adding popped_count val, stage)
    simp only [before, unchecked] at checked
    rw [receipts.received each]
    by_cases here : each = val
    · rw [if_pos here.symm] at checked
      rw [here, Function.update_self, first]
      rw [here] at checked
      omega
    · rw [if_neg (Ne.symm here)] at checked
      rw [Function.update_of_ne here]
      omega
  · have summed := receipts.summed
    omega
  · exact receipts.reduced

/-- A consumer adds a value to the sum. -/
theorem add {popped_count : Nat} (receipts : Receipts views returned received sum)
    (before : views thread = (.adding popped_count val, stage)) :
    Receipts (Function.update views thread (.consuming popped_count, stage)) returned received
      ((sum + val) % 2 ^ 64) := by
  have taken := census_update consumed views thread (.consuming popped_count, stage)
  have added := census_update unadded views thread (.consuming popped_count, stage)
  simp only [before, consumed, unadded] at taken added
  constructor
  · rw [receipts.taken]
    omega
  · intro each
    have checked := census_update (unchecked each) views thread (.consuming popped_count, stage)
    simp only [before, unchecked] at checked
    rw [receipts.received each]
    omega
  · have summed := receipts.summed
    omega
  · exact Nat.mod_lt _ (by decide)

/-- A value under way was counted for no other consumer. -/
theorem first {popped_count : Nat} (receipts : Receipts views returned received sum) (distinct : returned.Nodup)
    (before : views thread = (.checking popped_count val, stage)) : val ∈ returned ∧ received val = 0 := by
  have counted := receipts.received val
  have once : returned.count val ≤ 1 := List.nodup_iff_count_le_one.mp distinct val
  have one := le_census (unchecked val) views thread
  simp only [before, unchecked, if_true] at one
  exact ⟨List.count_pos_iff.mp (by omega), by omega⟩

end Receipts

end Lists

theorem sum_halves (producers consumers : Nat) :
    ∑ thread : Fin (NUM_THREADS + NUM_THREADS), (if thread.val < NUM_THREADS then producers else consumers) =
      NUM_THREADS * producers + NUM_THREADS * consumers := by
  rw [Fin.sum_univ_add]
  simp

theorem issued_le {now : View} (fits : Fits ITEMS_PER_THREAD thread now) :
    issued now ≤ if thread.val < NUM_THREADS then ITEMS_PER_THREAD else 0 := by
  obtain ⟨client, stage⟩ := now
  cases client <;> cases stage <;> simp only [Fits, issued] at * <;> grind

theorem consumed_le {now : View} (fits : Fits ITEMS_PER_THREAD thread now) :
    consumed now ≤ if thread.val < NUM_THREADS then 0 else ITEMS_PER_THREAD := by
  obtain ⟨client, stage⟩ := now
  cases client <;> cases stage <;> simp only [Fits, consumed] at * <;> grind

theorem fits_offering {val : Nat} (fits : Fits ITEMS_PER_THREAD thread (client, .offering val)) :
    ∃ i, client = .producing i ∧ thread.val < NUM_THREADS ∧ i < ITEMS_PER_THREAD ∧
      val = item ITEMS_PER_THREAD thread i := by
  cases client with
  | producing i => exact ⟨i, rfl, fits⟩
  | _ => exact fits.elim

theorem fits_storing (fits : Fits ITEMS_PER_THREAD thread (client, .storing)) :
    ∃ i, client = .producing i ∧ thread.val < NUM_THREADS ∧ i < ITEMS_PER_THREAD := by
  cases client with
  | producing i => exact ⟨i, rfl, fits⟩
  | _ => exact fits.elim

theorem fits_seeking (fits : Fits ITEMS_PER_THREAD thread (client, .seeking)) :
    ∃ popped_count, client = .consuming popped_count ∧ NUM_THREADS ≤ thread.val ∧
      popped_count < ITEMS_PER_THREAD := by
  cases client with
  | consuming popped_count => exact ⟨popped_count, rfl, fits⟩
  | _ => exact fits.elim

theorem fits_taking (fits : Fits ITEMS_PER_THREAD thread (client, .taking)) :
    ∃ popped_count, client = .consuming popped_count ∧ NUM_THREADS ≤ thread.val ∧
      popped_count < ITEMS_PER_THREAD := by
  cases client with
  | consuming popped_count => exact ⟨popped_count, rfl, fits⟩
  | _ => exact fits.elim

theorem census_consumed {views : Fin (NUM_THREADS + NUM_THREADS) → View}
    (all : ∀ thread, consumed (views thread) = if thread.val < NUM_THREADS then 0 else ITEMS_PER_THREAD) :
    census consumed views = TOTAL_ITEMS NUM_THREADS ITEMS_PER_THREAD := by
  rw [census, Finset.sum_congr rfl fun thread _ => all thread, sum_halves, Nat.mul_zero, Nat.zero_add]

/-- When the consumers have everything, each has its share. -/
theorem consumed_of_census {views : Fin (NUM_THREADS + NUM_THREADS) → View}
    (fits : ∀ thread, Fits ITEMS_PER_THREAD thread (views thread))
    (all : census consumed views = TOTAL_ITEMS NUM_THREADS ITEMS_PER_THREAD)
    (thread : Fin (NUM_THREADS + NUM_THREADS)) :
    consumed (views thread) = if thread.val < NUM_THREADS then 0 else ITEMS_PER_THREAD := by
  have shares : ∑ thread : Fin (NUM_THREADS + NUM_THREADS), (if thread.val < NUM_THREADS then 0 else ITEMS_PER_THREAD) =
      TOTAL_ITEMS NUM_THREADS ITEMS_PER_THREAD := by
    rw [sum_halves, Nat.mul_zero, Nat.zero_add]
  exact (Finset.sum_eq_sum_iff_of_le fun thread _ => consumed_le (fits thread)).mp (all.trans shares.symm) thread
    (Finset.mem_univ thread)

theorem census_issued {views : Fin (NUM_THREADS + NUM_THREADS) → View}
    (all : ∀ thread, issued (views thread) = if thread.val < NUM_THREADS then ITEMS_PER_THREAD else 0) :
    census issued views = TOTAL_ITEMS NUM_THREADS ITEMS_PER_THREAD := by
  rw [census, Finset.sum_congr rfl fun thread _ => all thread, sum_halves, Nat.mul_zero, Nat.add_zero]

/-- What the producers may have issued, all together. -/
theorem census_issued_le {views : Fin (NUM_THREADS + NUM_THREADS) → View}
    (fits : ∀ thread, Fits ITEMS_PER_THREAD thread (views thread)) :
    census issued views ≤ TOTAL_ITEMS NUM_THREADS ITEMS_PER_THREAD :=
  calc census issued views
      ≤ ∑ thread : Fin (NUM_THREADS + NUM_THREADS), if thread.val < NUM_THREADS then ITEMS_PER_THREAD else 0 :=
        Finset.sum_le_sum fun thread _ => issued_le (fits thread)
    _ = TOTAL_ITEMS NUM_THREADS ITEMS_PER_THREAD := by rw [sum_halves, Nat.mul_zero, Nat.add_zero]

namespace Tested

/-- Every value that was popped was pushed, and none twice. -/
theorem returned (tested : Tested ITEMS_PER_THREAD program) :
    (program.1.returned.map Prod.snd).Nodup ∧
      ∀ val ∈ program.1.returned.map Prod.snd, val ∈ program.1.pushes.map Prod.snd := by
  have sound := tested.sound
  have value (exchange : Nat × Nat) (member : exchange ∈ program.1.returned) :
      (program.1.pushes.map Prod.snd)[exchange.1]? = some exchange.2 := by
    rw [List.getElem?_map]
    exact sound.returned exchange member
  constructor
  · rw [List.nodup_map_iff_inj_on (List.Nodup.of_map _ sound.once)]
    intro first inFirst second inSecond same
    have tickets : first.1 = second.1 := by
      have found := value first inFirst
      rw [same, ← value second inSecond] at found
      obtain ⟨inside, _⟩ := List.getElem?_eq_some_iff.mp (value first inFirst)
      exact (List.getElem?_inj inside tested.issues.distinct).mp found
    exact Prod.ext tickets same
  · intro val member
    obtain ⟨exchange, inReturned, rfl⟩ := List.mem_map.mp member
    exact List.mem_of_getElem? (value exchange inReturned)

/-- A tested queue is small, however often the threads have called it. -/
theorem load_lt (tested : Tested ITEMS_PER_THREAD program)
    (small : 2 * TOTAL_ITEMS NUM_THREADS ITEMS_PER_THREAD + 2 * NUM_THREADS < 2 ^ 63) : program.1.load < 2 ^ 63 := by
  have sound := tested.sound
  have ordered := sound.ordered
  have pending : ∑ thread, (program.1.phase thread).pending ≤ (NUM_THREADS + NUM_THREADS) * 1 := by
    have each : census Phase.pending program.1.phase ≤ Fintype.card (Fin (NUM_THREADS + NUM_THREADS)) * 1 :=
      census_le fun thread => by cases program.1.phase thread <;> simp [Phase.pending]
    rwa [Fintype.card_fin] at each
  have pushes : program.1.pushes.length ≤ TOTAL_ITEMS NUM_THREADS ITEMS_PER_THREAD := by
    rw [tested.issues.counted]
    exact census_issued_le tested.fits
  have counted := sound.pushes
  rw [State.load]
  omega

theorem initial_tested : Tested ITEMS_PER_THREAD (initial NUM_THREADS) := by
  have start (thread : Fin (NUM_THREADS + NUM_THREADS)) : view (initial NUM_THREADS) thread =
      (if thread.val < NUM_THREADS then .producing 0 else .consuming 0, .idle) := rfl
  have zero (weight : View → Nat) (producer : weight (.producing 0, .idle) = 0)
      (consumer : weight (.consuming 0, .idle) = 0) : census weight (view (initial NUM_THREADS)) = 0 := by
    rw [census_eq_zero]
    intro thread
    rw [start]
    split
    · exact producer
    · exact consumer
  constructor
  · rfl
  · exact initial_sound _
  · intro thread
    rw [start]
    split
    next producer => exact ⟨producer, Nat.zero_le _⟩
    next consumer => exact ⟨Nat.le_of_not_lt consumer, Nat.zero_le _⟩
  · exact ⟨nofun, (zero issued rfl rfl).symm, List.nodup_nil⟩
  · constructor
    · exact (zero consumed rfl rfl).symm
    · intro val
      rw [zero (unchecked val) rfl rfl]
      rfl
    · rw [zero unadded rfl rfl]
      rfl
    · exact Nat.two_pow_pos 64

/-- One thread moves. -/
theorem moved {now : View} (tested : Tested ITEMS_PER_THREAD program) (alive : next.2.aborted = false)
    (sound : Sound next.1) (views : view next = Function.update (view program) thread now)
    (fits : Fits ITEMS_PER_THREAD thread now)
    (issues : Issues ITEMS_PER_THREAD (Function.update (view program) thread now) next.1.pushes)
    (receipts : Receipts (Function.update (view program) thread now) (next.1.returned.map Prod.snd) next.2.received
      next.2.total_consumed_sum) : Tested ITEMS_PER_THREAD next := by
  rw [← views] at issues receipts
  refine ⟨alive, sound, ?_, issues, receipts⟩
  rw [views]
  exact (Function.forall_update_iff _ fun thread now => Fits ITEMS_PER_THREAD thread now).mpr
    ⟨fits, fun other _ => tested.fits other⟩

/-- A thread moves in its call only. -/
theorem phased (tested : Tested ITEMS_PER_THREAD program) {phase : Phase Nat} (sound : Sound next.1)
    (moved : next.1.phase = Function.update program.1.phase thread phase) (same : next.2 = program.2)
    (returned : next.1.returned = program.1.returned)
    (fits : Fits ITEMS_PER_THREAD thread (program.2.client thread, phase.stage))
    (issues : Issues ITEMS_PER_THREAD (Function.update (view program) thread (program.2.client thread, phase.stage))
      next.1.pushes) : Tested ITEMS_PER_THREAD next := by
  have views := view_update phase moved
    ((congrArg Globals.client same).trans (Function.update_eq_self thread program.2.client).symm)
  refine tested.moved (by rw [same]; exact tested.alive) sound views fits issues ?_
  rw [returned, same]
  refine tested.receipts.keep ?_ ?_ ?_
  · rw [view]
    cases program.2.client thread <;> rfl
  · intro val
    rw [view]
    cases program.2.client thread <;> rfl
  · rw [view]
    cases program.2.client thread <;> rfl

/-- A thread begins a call. -/
theorem called (tested : Tested ITEMS_PER_THREAD program) {after : State Nat (NUM_THREADS + NUM_THREADS)}
    {phase : Phase Nat} (sound : Sound after) (idle : program.1.phase thread = .idle)
    (begun : call program.1 thread phase = some after)
    (fits : Fits ITEMS_PER_THREAD thread (program.2.client thread, phase.stage))
    (same : issued (program.2.client thread, phase.stage) = issued (program.2.client thread, .idle)) :
    Tested ITEMS_PER_THREAD (after, program.2) := by
  simp only [call, idle, Option.some.injEq] at begun
  subst after
  have before : view program thread = (program.2.client thread, .idle) := by rw [view, idle]; rfl
  exact tested.phased sound rfl rfl rfl fits (tested.issues.keep (same.trans (congrArg issued before).symm))

/-- A step inside a call. -/
theorem inside (tested : Tested ITEMS_PER_THREAD program)
    (small : TOTAL_ITEMS NUM_THREADS ITEMS_PER_THREAD < 2 ^ 64) (sound : Sound next.1)
    (stepped : stepInside Globals.resume program thread spurious = some next) : Tested ITEMS_PER_THREAD next := by
  obtain ⟨phase, response, moved, progress, resumed⟩ := stepInside_progress stepped
  have fits := tested.fits thread
  rw [view] at fits
  cases progress with
  | goOn stage busy pushes returned =>
      refine tested.phased sound moved resumed returned (by rwa [stage]) ?_
      rw [pushes, stage]
      exact tested.issues.keep rfl
  | claimPush val offering storing pushes returned =>
      rw [offering] at fits
      obtain ⟨i, client, producer, less, same⟩ := fits_offering fits
      refine tested.phased sound moved resumed returned (by rw [client, storing]; exact ⟨producer, less⟩) ?_
      rw [pushes, client, storing, same]
      exact tested.issues.claim small producer less (by rw [view, client, offering]; rfl) rfl
  | stored storing idle pushes returned =>
      rw [storing] at fits
      obtain ⟨i, client, producer, less⟩ := fits_storing fits
      have before : view program thread = (.producing i, .storing) := by rw [view, client, storing]
      simp only [Option.elim, Globals.resume, Client.resume, client] at resumed
      have views := view_update phase moved (congrArg Globals.client resumed)
      rw [idle] at views
      refine tested.moved (by rw [resumed]; exact tested.alive) sound views ⟨producer, less⟩ ?_ ?_
      · rw [pushes]
        exact tested.issues.keep (congrArg issued before).symm
      · rw [returned, resumed]
        exact tested.receipts.keep (by rw [before]; rfl) (fun _ => by rw [before]; rfl) (by rw [before]; rfl)
  | refused val offering idle pushes returned =>
      rw [offering] at fits
      obtain ⟨i, client, producer, less, same⟩ := fits_offering fits
      simp only [Option.elim, Globals.resume, Client.resume, client] at resumed
      rw [← client, Globals.goto_self] at resumed
      refine tested.phased sound moved resumed returned (by rw [client, idle]; exact ⟨producer, Nat.le_of_lt less⟩) ?_
      rw [pushes, client, idle]
      exact tested.issues.keep (by rw [view, client, offering]; rfl)
  | claimPop seeking taking pushes returned =>
      rw [seeking] at fits
      obtain ⟨popped_count, client, consumer, less⟩ := fits_seeking fits
      refine tested.phased sound moved resumed returned (by rw [client, taking]; exact ⟨consumer, less⟩) ?_
      rw [pushes, client, taking]
      exact tested.issues.keep (by rw [view, client, seeking]; rfl)
  | taken pos val taking idle pushes returned =>
      rw [taking] at fits
      obtain ⟨popped_count, client, consumer, less⟩ := fits_taking fits
      have before : view program thread = (.consuming popped_count, .taking) := by rw [view, client, taking]
      simp only [Option.elim, Globals.resume, Client.resume, client] at resumed
      have views := view_update phase moved (congrArg Globals.client resumed)
      rw [idle] at views
      refine tested.moved (by rw [resumed]; exact tested.alive) sound views ⟨consumer, less⟩ ?_ ?_
      · rw [pushes]
        exact tested.issues.keep (congrArg issued before).symm
      · rw [returned, resumed, List.map_append, List.map_singleton]
        exact tested.receipts.take before val
  | nothing seeking idle pushes returned =>
      rw [seeking] at fits
      obtain ⟨popped_count, client, consumer, less⟩ := fits_seeking fits
      simp only [Option.elim, Globals.resume, Client.resume, client] at resumed
      rw [← client, Globals.goto_self] at resumed
      refine tested.phased sound moved resumed returned (by rw [client, idle]; exact ⟨consumer, Nat.le_of_lt less⟩) ?_
      rw [pushes, client, idle]
      exact tested.issues.keep (by rw [view, client, seeking]; rfl)

/-- The value that a consumer checks is one of the test, and counted by nobody else. -/
theorem checked (tested : Tested ITEMS_PER_THREAD program)
    (small : TOTAL_ITEMS NUM_THREADS ITEMS_PER_THREAD < 2 ^ 64) {popped_count val : Nat}
    (client : program.2.client thread = .checking popped_count val) :
    (1 ≤ val ∧ val ≤ TOTAL_ITEMS NUM_THREADS ITEMS_PER_THREAD) ∧ program.2.received val = 0 := by
  obtain ⟨distinct, pushed⟩ := tested.returned
  obtain ⟨member, first⟩ := tested.receipts.first distinct
    (show view program thread = (.checking popped_count val, _) by rw [view, client])
  exact ⟨tested.issues.range small (pushed val member), first⟩

end Tested

/-- Inside a call a thread steps as the queue does. -/
theorem advance_inside (alive : program.2.aborted = false) (busy : program.1.phase thread ≠ .idle)
    (calling : (∃ i, program.2.client thread = .producing i) ∨
      ∃ popped_count, program.2.client thread = .consuming popped_count) :
    advance ITEMS_PER_THREAD program (thread, spurious) = stepInside Globals.resume program thread spurious := by
  obtain ⟨i, client⟩ | ⟨popped_count, client⟩ := calling
  · cases at_ : program.1.phase thread with
    | idle => exact absurd at_ busy
    | _ => simp [advance, alive, client, at_]
  · cases at_ : program.1.phase thread with
    | idle => exact absurd at_ busy
    | _ => simp [advance, alive, client, at_]

theorem advance_checking {popped_count val : Nat} (alive : program.2.aborted = false)
    (client : program.2.client thread = .checking popped_count val)
    (range : 1 ≤ val ∧ val ≤ TOTAL_ITEMS NUM_THREADS ITEMS_PER_THREAD) :
    advance ITEMS_PER_THREAD program (thread, spurious) =
      some (program.1, { program.2.goto thread (.adding popped_count val) with
        received := Function.update program.2.received val ((program.2.received val + 1) % 2 ^ 8)
        aborted := decide (program.2.received val ≠ 0) }) := by
  simp only [advance, alive, client, Bool.false_eq_true, if_false, if_pos range]

theorem advance_adding {popped_count val : Nat} (alive : program.2.aborted = false)
    (client : program.2.client thread = .adding popped_count val) :
    advance ITEMS_PER_THREAD program (thread, spurious) =
      some (program.1, { program.2.goto thread (.consuming popped_count) with
        total_consumed_sum := (program.2.total_consumed_sum + val) % 2 ^ 64 }) := by
  simp only [advance, alive, client, Bool.false_eq_true, if_false]

theorem advance_tested {input : Fin (NUM_THREADS + NUM_THREADS) × Bool} (tested : Tested ITEMS_PER_THREAD program)
    (small : 2 * TOTAL_ITEMS NUM_THREADS ITEMS_PER_THREAD + 2 * NUM_THREADS < 2 ^ 63)
    (stepped : advance ITEMS_PER_THREAD program input = some next) : Tested ITEMS_PER_THREAD next := by
  obtain ⟨thread, spurious⟩ := input
  have few := tested.load_lt small
  have inside (calling : (∃ i, program.2.client thread = .producing i) ∨
      ∃ popped_count, program.2.client thread = .consuming popped_count) (busy : program.1.phase thread ≠ .idle) :
      Tested ITEMS_PER_THREAD next := by
    rw [advance_inside tested.alive busy calling] at stepped
    obtain ⟨after, moved, rfl⟩ := Option.map_eq_some_iff.mp stepped
    exact tested.inside (by omega) (tested.sound.step few moved) stepped
  have fits := tested.fits thread
  rw [view] at fits
  cases client : program.2.client thread with
  | producing i =>
      by_cases idle : program.1.phase thread = .idle
      · simp only [advance, tested.alive, client, idle, Bool.false_eq_true, if_false] at stepped
        split at stepped
        next less =>
          obtain ⟨after, begun, rfl⟩ := Option.map_eq_some_iff.mp stepped
          rw [client, idle] at fits
          exact tested.called (tested.sound.step few begun) idle begun (by rw [client]; exact ⟨fits.1, less, rfl⟩)
            (by rw [client]; rfl)
        next => cases stepped
      · exact inside (.inl ⟨i, client⟩) idle
  | consuming popped_count =>
      by_cases idle : program.1.phase thread = .idle
      · simp only [advance, tested.alive, client, idle, Bool.false_eq_true, if_false] at stepped
        split at stepped
        next less =>
          obtain ⟨after, begun, rfl⟩ := Option.map_eq_some_iff.mp stepped
          rw [client, idle] at fits
          exact tested.called (tested.sound.step few begun) idle begun (by rw [client]; exact ⟨fits.1, less⟩)
            (by rw [client]; rfl)
        next => cases stepped
      · exact inside (.inr ⟨popped_count, client⟩) idle
  | checking popped_count val =>
      obtain ⟨range, first⟩ := tested.checked (by omega) client
      have before : view program thread = (.checking popped_count val, (program.1.phase thread).stage) := by
        rw [view, client]
      rw [advance_checking tested.alive client range, Option.some.injEq] at stepped
      subst next
      refine tested.moved (decide_eq_false (not_not.mpr first)) tested.sound
        (view_update (program.1.phase thread) (Function.update_eq_self _ _).symm rfl) ?_
        (tested.issues.keep (congrArg issued before).symm) (tested.receipts.check before first)
      rw [client] at fits
      cases at_ : (program.1.phase thread).stage <;> rw [at_] at fits <;> exact fits
  | adding popped_count val =>
      have before : view program thread = (.adding popped_count val, (program.1.phase thread).stage) := by
        rw [view, client]
      rw [advance_adding tested.alive client, Option.some.injEq] at stepped
      subst next
      refine tested.moved tested.alive tested.sound
        (view_update (program.1.phase thread) (Function.update_eq_self _ _).symm rfl) ?_
        (tested.issues.keep (congrArg issued before).symm) (tested.receipts.add before)
      rw [client] at fits
      cases at_ : (program.1.phase thread).stage with
      | idle =>
          rw [at_] at fits
          exact fits
      | _ =>
          rw [at_] at fits
          exact fits.elim

theorem run_tested {inputs : List (Fin (NUM_THREADS + NUM_THREADS) × Bool)}
    (small : 2 * TOTAL_ITEMS NUM_THREADS ITEMS_PER_THREAD + 2 * NUM_THREADS < 2 ^ 63)
    (completed : run (advance ITEMS_PER_THREAD) (initial NUM_THREADS) inputs = some program) :
    Tested ITEMS_PER_THREAD program :=
  run_invariant (Tested ITEMS_PER_THREAD) (fun _ _ _ tested stepped => advance_tested tested small stepped)
    Tested.initial_tested completed

/-! ### The verdict -/

theorem sum_mod_foldl (values : List Nat) (start : Nat) (small : start < 2 ^ 64) :
    values.foldl (fun sum i => (sum + i) % 2 ^ 64) start = (start + values.sum) % 2 ^ 64 := by
  induction values generalizing start with
  | nil => exact (Nat.mod_eq_of_lt small).symm
  | cons value rest ih =>
      rw [List.foldl_cons, ih _ (Nat.mod_lt _ (by decide)), Nat.mod_add_mod, List.sum_cons, Nat.add_assoc]

namespace Tested

/-- All threads are joined: each item was popped once. -/
theorem returned_perm (tested : Tested ITEMS_PER_THREAD program)
    (small : TOTAL_ITEMS NUM_THREADS ITEMS_PER_THREAD < 2 ^ 64) (done : finished ITEMS_PER_THREAD program) :
    (program.1.returned.map Prod.snd).Perm (List.range' 1 (TOTAL_ITEMS NUM_THREADS ITEMS_PER_THREAD)) := by
  obtain ⟨distinct, pushed⟩ := tested.returned
  have all (thread : Fin (NUM_THREADS + NUM_THREADS)) :
      consumed (view program thread) = if thread.val < NUM_THREADS then 0 else ITEMS_PER_THREAD := by
    have fits := tested.fits thread
    rw [view] at fits ⊢
    obtain producer | consumer := done thread
    · rw [producer] at fits ⊢
      cases at_ : (program.1.phase thread).stage <;> rw [at_] at fits <;>
        first | exact (if_pos fits.1).symm | exact fits.elim
    · rw [consumer] at fits ⊢
      cases at_ : (program.1.phase thread).stage <;> rw [at_] at fits <;>
        first | exact (if_neg (Nat.not_lt.mpr fits.1)).symm | exact fits.elim
  have taken : (program.1.returned.map Prod.snd).length = TOTAL_ITEMS NUM_THREADS ITEMS_PER_THREAD := by
    rw [tested.receipts.taken, census_consumed all]
  refine (List.subperm_of_subset distinct ?_).perm_of_length_le (by rw [List.length_range', taken])
  intro val member
  have range := tested.issues.range small (pushed val member)
  exact List.mem_range'_1.mpr (by omega)

theorem verified (tested : Tested ITEMS_PER_THREAD program)
    (small : TOTAL_ITEMS NUM_THREADS ITEMS_PER_THREAD < 2 ^ 64) (done : finished ITEMS_PER_THREAD program) :
    verified ITEMS_PER_THREAD program := by
  have perm := tested.returned_perm small done
  have none (weight : View → Nat) (producing : ∀ i stage, weight (.producing i, stage) = 0)
      (consuming : ∀ popped_count stage, weight (.consuming popped_count, stage) = 0) :
      census weight (view program) = 0 := by
    rw [census_eq_zero]
    intro thread
    rw [view]
    obtain producer | consumer := done thread
    · rw [producer, producing]
    · rw [consumer, consuming]
  constructor
  · intro val member
    have counted := tested.receipts.received val
    rw [none (unchecked val) (fun _ _ => rfl) fun _ _ => rfl, perm.count_eq,
      List.count_eq_one_of_mem List.nodup_range' member] at counted
    exact counted.symm
  · have summed := tested.receipts.summed
    rw [none unadded (fun _ _ => rfl) fun _ _ => rfl, perm.sum_eq, Nat.add_zero,
      Nat.mod_eq_of_lt tested.receipts.reduced] at summed
    rw [expected_sum, sum_mod_foldl _ 0 (by decide), Nat.zero_add, summed]

end Tested

/-- No assert of the test ever fails, whatever the order of the steps and however long the threads spin. -/
theorem stress_test_passes (NUM_THREADS ITEMS_PER_THREAD : Nat)
    (small : 2 * TOTAL_ITEMS NUM_THREADS ITEMS_PER_THREAD + 2 * NUM_THREADS < 2 ^ 63)
    (inputs : List (Fin (NUM_THREADS + NUM_THREADS) × Bool)) (program : Program NUM_THREADS)
    (completed : run (advance ITEMS_PER_THREAD) (initial NUM_THREADS) inputs = some program) :
    program.2.aborted = false ∧ (finished ITEMS_PER_THREAD program → verified ITEMS_PER_THREAD program) :=
  have tested := run_tested small completed
  ⟨tested.alive, tested.verified (by omega)⟩

theorem stress_test_passes_one_item :
    ∃ program, run (advance 1) (initial 1)
        [(0, false), (0, false), (0, false), (0, true), (0, false), (0, false), (0, false), (0, false), (1, false),
          (1, false), (1, false), (1, false), (1, false), (1, false), (1, false), (1, false)] = some program ∧
      finished 1 program ∧ verified 1 program := by
  obtain ⟨program, completed, done⟩ : ∃ program, run (advance 1) (initial 1)
      [(0, false), (0, false), (0, false), (0, true), (0, false), (0, false), (0, false), (0, false), (1, false),
        (1, false), (1, false), (1, false), (1, false), (1, false), (1, false), (1, false)] = some program ∧
      finished 1 program := ⟨_, rfl, by decide⟩
  exact ⟨program, completed, done, (stress_test_passes 1 1 (by decide) _ _ completed).2 done⟩

/-! ### The end can be reached -/

/-- How much a thread still has to do, in rounds of a few steps. -/
def left (ITEMS_PER_THREAD : Nat) : View → Nat
  | (.producing i, .idle) => 4 * (ITEMS_PER_THREAD - i)
  | (.producing i, _) => 4 * (ITEMS_PER_THREAD - i) + 1
  | (.consuming popped_count, .idle) => 4 * (ITEMS_PER_THREAD - popped_count)
  | (.consuming popped_count, _) => 4 * (ITEMS_PER_THREAD - popped_count) + 1
  | (.checking popped_count _, _) => 4 * (ITEMS_PER_THREAD - popped_count) + 2
  | (.adding popped_count _, _) => 4 * (ITEMS_PER_THREAD - popped_count) + 1

/-- A program that some steps bring nearer to its end. -/
def Onward (ITEMS_PER_THREAD : Nat) (program : Program NUM_THREADS) : Prop :=
  ∃ inputs next, run (advance ITEMS_PER_THREAD) program inputs = some next ∧
    census (left ITEMS_PER_THREAD) (view next) < census (left ITEMS_PER_THREAD) (view program)

theorem census_lt {weight : View → Nat} {views : Fin (NUM_THREADS + NUM_THREADS) → View} {now : View}
    (less : weight now < weight (views thread)) :
    census weight (Function.update views thread now) < census weight views := by
  have changed := census_update weight views thread now
  omega

theorem left_producing {i : Nat} {response : Response Nat} (busy : stage ≠ .idle) :
    left ITEMS_PER_THREAD (Client.resume (.producing i) response, .idle) <
      left ITEMS_PER_THREAD (.producing i, stage) := by
  have now : left ITEMS_PER_THREAD (.producing i, stage) = 4 * (ITEMS_PER_THREAD - i) + 1 := by
    cases stage with
    | idle => exact absurd rfl busy
    | _ => rfl
  rw [now]
  obtain (_ | _) | val := response
  · exact Nat.lt_succ_self _
  · simp only [Client.resume, left]
    omega
  · exact Nat.lt_succ_self _

theorem left_consuming {popped_count : Nat} {response : Response Nat} (busy : stage ≠ .idle)
    (fits : Fits ITEMS_PER_THREAD thread (.consuming popped_count, stage)) :
    left ITEMS_PER_THREAD (Client.resume (.consuming popped_count) response, .idle) <
      left ITEMS_PER_THREAD (.consuming popped_count, stage) := by
  have now : left ITEMS_PER_THREAD (.consuming popped_count, stage) = 4 * (ITEMS_PER_THREAD - popped_count) + 1 ∧
      popped_count < ITEMS_PER_THREAD := by
    cases stage with
    | idle => exact absurd rfl busy
    | seeking => exact ⟨rfl, fits.2⟩
    | taking => exact ⟨rfl, fits.2⟩
    | _ => exact fits.elim
  rw [now.1]
  obtain done | (_ | val) := response
  · exact Nat.lt_succ_self _
  · exact Nat.lt_succ_self _
  · simp only [Client.resume, left]
    omega

theorem slot_of_idle {state other : State Nat (NUM_THREADS + NUM_THREADS)} {phase : Phase Nat}
    (idle : ∀ thread, state.phase thread = .idle) (phases : other.phase = Function.update state.phase thread phase)
    (free : phase.slot = none) (each : Fin (NUM_THREADS + NUM_THREADS)) : (other.phase each).slot = none := by
  rw [phases]
  by_cases here : each = thread
  · rw [here, Function.update_self, free]
  · rw [Function.update_of_ne here, idle each]
    rfl

namespace Tested

variable {response : Response Nat} {after : State Nat (NUM_THREADS + NUM_THREADS)}

/-- A thread that is alone returns from its call. -/
theorem alone (tested : Tested ITEMS_PER_THREAD program)
    (calling : (∃ i, program.2.client thread = .producing i) ∨
      ∃ popped_count, program.2.client thread = .consuming popped_count)
    (returns : Returns thread response program.1 after) :
    ∃ inputs next, run (advance ITEMS_PER_THREAD) program inputs = some next ∧
      view next = Function.update (view program) thread ((program.2.client thread).resume response, .idle) := by
  have goes (state : State Nat (NUM_THREADS + NUM_THREADS)) (busy : state.phase thread ≠ .idle) :
      advance ITEMS_PER_THREAD (state, program.2) (thread, false) =
        stepInside Globals.resume (state, program.2) thread false := advance_inside tested.alive busy calling
  obtain ⟨inputs, completed⟩ := returns.inside goes
  exact ⟨inputs, _, completed, view_update .idle returns.spec.1 rfl⟩

/-- A consumer that has popped a value goes on, and a thread in a call returns from it. -/
theorem settle (tested : Tested ITEMS_PER_THREAD program)
    (small : 2 * TOTAL_ITEMS NUM_THREADS ITEMS_PER_THREAD + 2 * NUM_THREADS < 2 ^ 63)
    (restless : program.1.phase thread ≠ .idle ∨
      (∃ popped_count val, program.2.client thread = .checking popped_count val) ∨
      ∃ popped_count val, program.2.client thread = .adding popped_count val) : Onward ITEMS_PER_THREAD program := by
  have fits := tested.fits thread
  have before : view program thread = (program.2.client thread, (program.1.phase thread).stage) := rfl
  cases client : program.2.client thread with
  | producing i =>
      have busy : (program.1.phase thread).stage ≠ .idle := by simpa [client] using restless
      obtain ⟨response, after, returns⟩ := tested.sound.returns (tested.load_lt small) busy
      obtain ⟨inputs, next, completed, views⟩ := tested.alone (.inl ⟨i, client⟩) returns
      refine ⟨inputs, next, completed, ?_⟩
      rw [views]
      apply census_lt
      rw [before, client]
      exact left_producing busy
  | consuming popped_count =>
      have busy : (program.1.phase thread).stage ≠ .idle := by simpa [client] using restless
      obtain ⟨response, after, returns⟩ := tested.sound.returns (tested.load_lt small) busy
      obtain ⟨inputs, next, completed, views⟩ := tested.alone (.inr ⟨popped_count, client⟩) returns
      refine ⟨inputs, next, completed, ?_⟩
      rw [views]
      apply census_lt
      rw [before, client] at fits ⊢
      exact left_consuming busy fits
  | checking popped_count val =>
      obtain ⟨range, first⟩ := tested.checked (by omega) client
      obtain ⟨next, stepped, views⟩ : ∃ next, advance ITEMS_PER_THREAD program (thread, false) = some next ∧
          view next =
            Function.update (view program) thread (.adding popped_count val, (program.1.phase thread).stage) :=
        ⟨_, advance_checking tested.alive client range,
          view_update (program.1.phase thread) (Function.update_eq_self _ _).symm rfl⟩
      refine ⟨[(thread, false)], next, run_cons_iff.mpr ⟨_, stepped, rfl⟩, ?_⟩
      rw [views]
      apply census_lt
      rw [before, client]
      exact Nat.lt_succ_self _
  | adding popped_count val =>
      obtain ⟨next, stepped, views⟩ : ∃ next, advance ITEMS_PER_THREAD program (thread, false) = some next ∧
          view next = Function.update (view program) thread (.consuming popped_count, (program.1.phase thread).stage) :=
        ⟨_, advance_adding tested.alive client,
          view_update (program.1.phase thread) (Function.update_eq_self _ _).symm rfl⟩
      refine ⟨[(thread, false)], next, run_cons_iff.mpr ⟨_, stepped, rfl⟩, ?_⟩
      rw [views]
      apply census_lt
      rw [before, client] at fits ⊢
      cases at_ : (program.1.phase thread).stage with
      | idle => exact Nat.lt_succ_self _
      | _ =>
          rw [at_] at fits
          exact fits.elim

/-- A thread calls the queue, alone, and is answered. -/
theorem call_alone (tested : Tested ITEMS_PER_THREAD program)
    (small : 2 * TOTAL_ITEMS NUM_THREADS ITEMS_PER_THREAD + 2 * NUM_THREADS < 2 ^ 63) {phase : Phase Nat}
    (calls : advance ITEMS_PER_THREAD program (thread, false) =
      (call program.1 thread phase).map fun after => (after, program.2))
    (calling : (∃ i, program.2.client thread = .producing i) ∨
      ∃ popped_count, program.2.client thread = .consuming popped_count)
    (idle : program.1.phase thread = .idle)
    (answered : ∀ state, Sound state → state.load < 2 ^ 63 → state.queue = program.1.queue →
      state.phase = Function.update program.1.phase thread phase → ∃ response after,
        Returns thread response state after ∧ left ITEMS_PER_THREAD ((program.2.client thread).resume response, .idle) <
          left ITEMS_PER_THREAD (program.2.client thread, .idle)) : Onward ITEMS_PER_THREAD program := by
  have before : view program thread = (program.2.client thread, .idle) := by rw [view, idle]; rfl
  obtain ⟨middle, begun, queue, phases⟩ : ∃ middle, call program.1 thread phase = some middle ∧
      middle.queue = program.1.queue ∧ middle.phase = Function.update program.1.phase thread phase :=
    ⟨_, call_idle idle phase, rfl, rfl⟩
  rw [begun, Option.map_some] at calls
  have testedMiddle := advance_tested tested small calls
  obtain ⟨response, after, returns, less⟩ :=
    answered middle testedMiddle.sound (testedMiddle.load_lt small) queue phases
  obtain ⟨inputs, next, completed, views⟩ := testedMiddle.alone calling returns
  have viewsMiddle : view (middle, program.2) =
      Function.update (view program) thread (program.2.client thread, phase.stage) :=
    view_update phase phases (Function.update_eq_self _ _).symm
  refine ⟨(thread, false) :: inputs, next, run_cons_iff.mpr ⟨_, calls, completed⟩, ?_⟩
  rw [views, viewsMiddle, Function.update_idem]
  apply census_lt
  rwa [before]

/-- When no thread is in a call, a producer pushes its next item to an empty queue. -/
theorem push_alone (tested : Tested ITEMS_PER_THREAD program)
    (small : 2 * TOTAL_ITEMS NUM_THREADS ITEMS_PER_THREAD + 2 * NUM_THREADS < 2 ^ 63)
    (idle : ∀ thread, program.1.phase thread = .idle) {i : Nat} (client : program.2.client thread = .producing i)
    (less : i < ITEMS_PER_THREAD) (empty : program.1.queue.head = program.1.queue.tail) :
    Onward ITEMS_PER_THREAD program := by
  have calls : advance ITEMS_PER_THREAD program (thread, false) =
      (call program.1 thread (.pushCalled (item ITEMS_PER_THREAD thread i))).map fun after => (after, program.2) := by
    simp only [advance, tested.alive, client, idle thread, Bool.false_eq_true, if_false, if_pos less, step]
  refine tested.call_alone small calls (.inl ⟨i, client⟩) (idle thread) ?_
  intro state sound few queue phases
  obtain ⟨after, returns⟩ := sound.returns_pushed few (slot_of_idle idle phases rfl)
    (by rw [queue, empty]; exact Nat.lt_add_of_pos_right (by decide)) (by rw [phases, Function.update_self])
  refine ⟨_, after, returns, ?_⟩
  rw [client]
  simp only [Client.resume, left]
  omega

/-- And a consumer pops from one that is not empty. -/
theorem pop_alone (tested : Tested ITEMS_PER_THREAD program)
    (small : 2 * TOTAL_ITEMS NUM_THREADS ITEMS_PER_THREAD + 2 * NUM_THREADS < 2 ^ 63)
    (idle : ∀ thread, program.1.phase thread = .idle) {popped_count : Nat}
    (client : program.2.client thread = .consuming popped_count) (less : popped_count < ITEMS_PER_THREAD)
    (filled : program.1.queue.head < program.1.queue.tail) : Onward ITEMS_PER_THREAD program := by
  have calls : advance ITEMS_PER_THREAD program (thread, false) =
      (call program.1 thread .popCalled).map fun after => (after, program.2) := by
    simp only [advance, tested.alive, client, idle thread, Bool.false_eq_true, if_false, if_pos less, step]
  refine tested.call_alone small calls (.inr ⟨popped_count, client⟩) (idle thread) ?_
  intro state sound few queue phases
  obtain ⟨val, after, returns⟩ := sound.returns_popped few (slot_of_idle idle phases rfl) (by rwa [queue])
    (by rw [phases, Function.update_self])
  refine ⟨_, after, returns, ?_⟩
  rw [client]
  simp only [Client.resume, left]
  omega

/-- Some thread can go on as long as one is not done. -/
theorem onward (tested : Tested ITEMS_PER_THREAD program)
    (small : 2 * TOTAL_ITEMS NUM_THREADS ITEMS_PER_THREAD + 2 * NUM_THREADS < 2 ^ 63)
    (undone : ¬ finished ITEMS_PER_THREAD program) : Onward ITEMS_PER_THREAD program := by
  by_cases restless : ∃ thread, program.1.phase thread ≠ .idle ∨
      (∃ popped_count val, program.2.client thread = .checking popped_count val) ∨
      ∃ popped_count val, program.2.client thread = .adding popped_count val
  · obtain ⟨thread, restless⟩ := restless
    exact tested.settle small restless
  · have idle (thread : Fin (NUM_THREADS + NUM_THREADS)) : program.1.phase thread = .idle := by
      by_contra busy
      exact restless ⟨thread, .inl busy⟩
    have calm (thread : Fin (NUM_THREADS + NUM_THREADS)) :
        (∃ i ≤ ITEMS_PER_THREAD, thread.val < NUM_THREADS ∧ program.2.client thread = .producing i) ∨
          ∃ popped_count ≤ ITEMS_PER_THREAD, NUM_THREADS ≤ thread.val ∧
            program.2.client thread = .consuming popped_count := by
      have fits := tested.fits thread
      rw [view, idle thread] at fits
      cases client : program.2.client thread with
      | producing i =>
          rw [client] at fits
          exact .inl ⟨i, fits.2, fits.1, rfl⟩
      | consuming popped_count =>
          rw [client] at fits
          exact .inr ⟨popped_count, fits.2, fits.1, rfl⟩
      | checking popped_count val => exact absurd ⟨thread, .inr (.inl ⟨popped_count, val, client⟩)⟩ restless
      | adding popped_count val => exact absurd ⟨thread, .inr (.inr ⟨popped_count, val, client⟩)⟩ restless
    have head : program.1.queue.head = census consumed (view program) := by
      rw [← tested.sound.quiet_returned fun thread => by rw [idle thread]; rfl, ← tested.receipts.taken,
        List.length_map]
    have tail : program.1.queue.tail = census issued (view program) := by
      rw [← tested.sound.pushes, tested.issues.counted]
    by_cases filled : program.1.queue.head < program.1.queue.tail
    · obtain ⟨thread, popped_count, client, less⟩ : ∃ thread popped_count,
          program.2.client thread = .consuming popped_count ∧ popped_count < ITEMS_PER_THREAD := by
        by_contra none
        have all : census consumed (view program) = TOTAL_ITEMS NUM_THREADS ITEMS_PER_THREAD := by
          refine census_consumed fun thread => ?_
          obtain ⟨i, _, producer, client⟩ | ⟨popped_count, most, consumer, client⟩ := calm thread
          · rw [view, client, if_pos producer, consumed]
          · rw [view, client, if_neg (Nat.not_lt.mpr consumer), consumed]
            exact Nat.le_antisymm most (Nat.le_of_not_lt fun less => none ⟨thread, popped_count, client, less⟩)
        have bounded := census_issued_le tested.fits
        omega
      exact tested.pop_alone small idle client less filled
    · have empty : program.1.queue.head = program.1.queue.tail :=
        Nat.le_antisymm tested.sound.ordered (Nat.le_of_not_lt filled)
      obtain ⟨thread, i, client, less⟩ : ∃ thread i, program.2.client thread = .producing i ∧ i < ITEMS_PER_THREAD := by
        by_contra none
        have through (thread : Fin (NUM_THREADS + NUM_THREADS)) {i : Nat} (most : i ≤ ITEMS_PER_THREAD)
            (client : program.2.client thread = .producing i) : i = ITEMS_PER_THREAD :=
          Nat.le_antisymm most (Nat.le_of_not_lt fun less => none ⟨thread, i, client, less⟩)
        have all : census issued (view program) = TOTAL_ITEMS NUM_THREADS ITEMS_PER_THREAD := by
          refine census_issued fun thread => ?_
          obtain ⟨i, most, producer, client⟩ | ⟨popped_count, _, consumer, client⟩ := calm thread
          · rw [view, client, idle thread, if_pos producer, through thread most client]
            rfl
          · rw [view, client, if_neg (Nat.not_lt.mpr consumer)]
            rfl
        have every := consumed_of_census tested.fits (head.symm.trans (empty.trans (tail.trans all)))
        refine undone fun thread => ?_
        obtain ⟨i, most, producer, client⟩ | ⟨popped_count, _, consumer, client⟩ := calm thread
        · exact .inl (client.trans (congrArg Client.producing (through thread most client)))
        · have here := every thread
          rw [view, client, if_neg (Nat.not_lt.mpr consumer), consumed] at here
          exact .inr (client.trans (congrArg Client.consuming here))
      exact tested.push_alone small idle client less empty

end Tested

/-- From every state that the test can reach, some order of steps ends it, with its verdict. -/
theorem stress_test_completes (NUM_THREADS ITEMS_PER_THREAD : Nat)
    (small : 2 * TOTAL_ITEMS NUM_THREADS ITEMS_PER_THREAD + 2 * NUM_THREADS < 2 ^ 63)
    (inputs : List (Fin (NUM_THREADS + NUM_THREADS) × Bool)) (program : Program NUM_THREADS)
    (completed : run (advance ITEMS_PER_THREAD) (initial NUM_THREADS) inputs = some program) :
    ∃ more last, run (advance ITEMS_PER_THREAD) program more = some last ∧ finished ITEMS_PER_THREAD last ∧
      verified ITEMS_PER_THREAD last := by
  have tested := run_tested small completed
  clear completed
  generalize amount : census (left ITEMS_PER_THREAD) (view program) = steps
  induction steps using Nat.strong_induction_on generalizing program with
  | _ steps ih =>
      by_cases done : finished ITEMS_PER_THREAD program
      · exact ⟨[], program, rfl, done, tested.verified (by omega) done⟩
      · obtain ⟨first, next, went, less⟩ := tested.onward small done
        have testedNext := run_invariant (Tested ITEMS_PER_THREAD)
          (fun _ _ _ tested stepped => advance_tested tested small stepped) tested went
        obtain ⟨more, last, ended, verdict⟩ := ih _ (amount ▸ less) next testedNext rfl
        exact ⟨first ++ more, last, run_append_iff.mpr ⟨next, went, ended⟩, verdict⟩

theorem stress_test_completes_four_threads :
    ∃ more last, run (advance 100000) (initial 4) more = some last ∧ finished 100000 last ∧ verified 100000 last :=
  stress_test_completes 4 100000 (by decide) [] _ rfl

end HundredDays.MpmcQueue.StressTest
