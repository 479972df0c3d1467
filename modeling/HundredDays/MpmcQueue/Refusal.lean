import HundredDays.MpmcQueue.Safety
import Mathlib.Data.List.Infix

namespace HundredDays.MpmcQueue

open HundredDays.Semantics

/-! What a push or a pop means by returning false.

A thread decides on a sequence that it has loaded.  It is right to refuse when no
other thread is between claiming the slot and publishing it.
-/

variable {T : Type} {threads : Nat} {state after start stop : State T threads} {thread other : Fin threads}
  {val : T} {pos seq : Nat} {spurious : Bool} {action call : Action T threads}
  {actions before during : List (Action T threads)}

/-- Every push that has returned true had its value claimed by a pop. -/
def Emptied (state : State T threads) : Prop :=
  ∀ ticket < state.pushes.length, (∀ thread, (state.phase thread).pushing ≠ some ticket) →
    ticket ∈ state.pops.map Prod.snd

instance (state : State T threads) : Decidable (Emptied state) := by
  unfold Emptied
  infer_instance

/-- As many pushes as the queue has slots were claimed and not yet claimed by a pop. -/
def Filled (state : State T threads) : Prop := state.pushes.length = state.pops.length + CAPACITY

/-- The thread that calls a push or a pop. -/
def Action.caller : Action T threads → Option (Fin threads)
  | push thread _ => some thread
  | pop thread => some thread
  | step _ _ => none

/-- This held at some instant of these steps. -/
def Sometime (start : State T threads) (during : List (Action T threads)) (holds : State T threads → Prop) : Prop :=
  ∃ first ∈ during.inits, ∃ middle ∈ run step start first, holds middle

/-- Every pop of the run that returned false was right, and every push. -/
structure TrueRefusals (data : Nat → T) (actions : List (Action T threads)) : Prop where
  pops : ∀ before during rest thread spurious start stop after pos seq,
    actions = before ++ .pop thread :: during ++ .step thread spurious :: rest →
    (∀ action ∈ during, action.caller ≠ some thread) →
    run step (State.initial threads data) before = some start →
    run step start (.pop thread :: during) = some stop → stop.phase thread = .popDeciding pos seq →
    step stop (.step thread spurious) = some after → after.phase thread = .idle →
    Sometime start (.pop thread :: during) Emptied
  pushes : ∀ before during rest thread spurious start stop after val pos seq,
    actions = before ++ .push thread val :: during ++ .step thread spurious :: rest →
    (∀ action ∈ during, action.caller ≠ some thread) →
    run step (State.initial threads data) before = some start →
    run step start (.push thread val :: during) = some stop → stop.phase thread = .pushDeciding val pos seq →
    step stop (.step thread spurious) = some after → after.phase thread = .idle →
    Sometime start (.push thread val :: during) Filled

/-- No pop looks at a slot that a push has claimed and not published, and no push at one
that a pop has claimed and not given back. -/
def Unobstructed (state : State T threads) : Action T threads → Prop
  | .step thread _ =>
      match state.phase thread with
      | .popLooking pos => ∀ other, (state.phase other).pushing ≠ some pos
      | .pushLooking _ pos => ∀ other ticket, (state.phase other).popping = some ticket → ticket + CAPACITY ≠ pos
      | _ => True
  | _ => True

/-- What a thread looked at that is about to decide: the phase in which it did, the ticket
and the sequence. -/
def Phase.looked : Phase T → Option (Phase T × Nat × Nat)
  | pushDeciding val pos seq => some (pushLooking val pos, pos, seq)
  | popDeciding pos seq => some (popLooking pos, pos, seq)
  | _ => none

theorem call_phase {phase : Phase T} (stepped : MpmcQueue.call state thread phase = some after) :
    after.phase = Function.update state.phase thread phase := by
  simp only [MpmcQueue.call] at stepped
  split at stepped <;> cases stepped
  rfl

/-- A thread comes to decide by looking. -/
theorem queuePush_phase (stepped : queuePush state thread spurious = some after) :
    ∃ phase, after.phase = Function.update state.phase thread phase ∧
      ∀ looking pos seq, phase.looked = some (looking, pos, seq) →
        state.phase thread = looking ∧ state.queue.sequence (pos % CAPACITY) = seq := by
  cases at_ : state.phase thread with
  | pushLooking val pos =>
      simp only [queuePush, at_, Option.some.injEq] at stepped
      subst after
      refine ⟨_, rfl, ?_⟩
      intro looking pos seq decides
      cases decides
      exact ⟨rfl, rfl⟩
  | pushDeciding val pos seq =>
      simp only [queuePush, at_] at stepped
      split at stepped
      · split at stepped <;> cases stepped <;> exact ⟨_, rfl, by simp [Phase.looked]⟩
      · split at stepped <;> cases stepped <;> exact ⟨_, rfl, by simp [Phase.looked]⟩
  | pushCalled val =>
      simp only [queuePush, at_, Option.some.injEq] at stepped
      subst after
      exact ⟨_, rfl, by simp [Phase.looked]⟩
  | pushClaimed val pos =>
      simp only [queuePush, at_, Option.some.injEq] at stepped
      subst after
      exact ⟨_, rfl, by simp [Phase.looked]⟩
  | pushWritten pos =>
      simp only [queuePush, at_, Option.some.injEq] at stepped
      subst after
      exact ⟨_, rfl, by simp [Phase.looked]⟩
  | _ => simp only [queuePush, at_, reduceCtorEq] at stepped

theorem queuePop_phase (stepped : queuePop state thread spurious = some after) :
    ∃ phase, after.phase = Function.update state.phase thread phase ∧
      ∀ looking pos seq, phase.looked = some (looking, pos, seq) →
        state.phase thread = looking ∧ state.queue.sequence (pos % CAPACITY) = seq := by
  cases at_ : state.phase thread with
  | popLooking pos =>
      simp only [queuePop, at_, Option.some.injEq] at stepped
      subst after
      refine ⟨_, rfl, ?_⟩
      intro looking pos seq decides
      cases decides
      exact ⟨rfl, rfl⟩
  | popDeciding pos seq =>
      simp only [queuePop, at_] at stepped
      split at stepped
      · split at stepped <;> cases stepped <;> exact ⟨_, rfl, by simp [Phase.looked]⟩
      · split at stepped <;> cases stepped <;> exact ⟨_, rfl, by simp [Phase.looked]⟩
  | popCalled =>
      simp only [queuePop, at_, Option.some.injEq] at stepped
      subst after
      exact ⟨_, rfl, by simp [Phase.looked]⟩
  | popClaimed pos =>
      simp only [queuePop, at_, Option.some.injEq] at stepped
      subst after
      exact ⟨_, rfl, by simp [Phase.looked]⟩
  | popRead pos val =>
      simp only [queuePop, at_, Option.some.injEq] at stepped
      subst after
      exact ⟨_, rfl, by simp [Phase.looked]⟩
  | _ => simp only [queuePop, at_, reduceCtorEq] at stepped

theorem step_phase (stepped : step state (.step thread spurious) = some after) :
    ∃ phase, after.phase = Function.update state.phase thread phase ∧
      ∀ looking pos seq, phase.looked = some (looking, pos, seq) →
        state.phase thread = looking ∧ state.queue.sequence (pos % CAPACITY) = seq := by
  obtain pushed | ⟨_, popped⟩ := Option.or_eq_some_iff.mp stepped
  · exact queuePush_phase pushed
  · exact queuePop_phase popped

/-- A thread that is about to decide has looked in its call. -/
theorem looked_in_call {looking : Phase T} (called : call.caller = some thread)
    (uncalled : ∀ action ∈ during, action.caller ≠ some thread)
    (ran : run step start (call :: during) = some stop)
    (decides : (stop.phase thread).looked = some (looking, pos, seq)) :
    ∃ first spurious rest middle, call :: during = first ++ .step thread spurious :: rest ∧
      run step start first = some middle ∧ middle.phase thread = looking ∧
      middle.queue.sequence (pos % CAPACITY) = seq := by
  induction during using List.reverseRecOn generalizing stop with
  | nil =>
      obtain ⟨next, stepped, finished⟩ := run_cons_iff.mp ran
      cases finished
      cases call with
      | push caller val =>
          cases called
          rw [call_phase stepped, Function.update_self] at decides
          cases decides
      | pop caller =>
          cases called
          rw [call_phase stepped, Function.update_self] at decides
          cases decides
      | step caller spurious => cases called
  | append_singleton during action ih =>
      rw [← List.cons_append, run_concat_iff] at ran
      obtain ⟨middle, ranEarlier, stepped⟩ := ran
      have earlier (same : stop.phase thread = middle.phase thread) := by
        rw [same] at decides
        exact ih (fun action inside => uncalled action (by simp [inside])) ranEarlier decides
      have uncalledNow := uncalled action (by simp)
      have later : (∃ first spurious rest middle, call :: during = first ++ .step thread spurious :: rest ∧
          run step start first = some middle ∧ middle.phase thread = looking ∧
          middle.queue.sequence (pos % CAPACITY) = seq) →
          ∃ first spurious rest middle, call :: (during ++ [action]) = first ++ .step thread spurious :: rest ∧
          run step start first = some middle ∧ middle.phase thread = looking ∧
          middle.queue.sequence (pos % CAPACITY) = seq := by
        intro ⟨first, spurious, rest, middle, split, found⟩
        exact ⟨first, spurious, rest ++ [action], middle, by rw [← List.cons_append, split]; simp, found⟩
      cases action with
      | push caller val =>
          have different : thread ≠ caller := fun same => uncalledNow (congrArg some same.symm)
          exact later (earlier (by rw [call_phase stepped, Function.update_of_ne different]))
      | pop caller =>
          have different : thread ≠ caller := fun same => uncalledNow (congrArg some same.symm)
          exact later (earlier (by rw [call_phase stepped, Function.update_of_ne different]))
      | step caller spurious =>
          obtain ⟨phase, phases, looks⟩ := step_phase stepped
          by_cases same : caller = thread
          · subst same
            rw [phases, Function.update_self] at decides
            exact ⟨call :: during, spurious, [], middle, by simp, ranEarlier, looks _ _ _ decides⟩
          · exact later (earlier (by rw [phases, Function.update_of_ne (Ne.symm same)]))

namespace Sound

/-- An unobstructed pop that finds its ticket unpublished has found the queue empty. -/
theorem emptied (sound : Sound state) (looking : state.phase thread = .popLooking pos)
    (free : ∀ other, (state.phase other).pushing ≠ some pos)
    (unpublished : state.queue.sequence (pos % CAPACITY) ≤ pos) : Emptied state := by
  have known := sound.threads thread
  rw [looking] at known
  have low : pos ≤ state.queue.head := known
  have ordered := sound.ordered
  have equal : state.queue.tail = state.queue.head := by
    cases sound.slots _ (Nat.mod_lt pos (by decide : 0 < CAPACITY)) with
    | free ticket here sequence unclaimed near empty => omega
    | full ticket here sequence unclaimed pushed kept => omega
    | busy other works =>
        obtain ⟨ticket, here, pushing | popping⟩ := (sound.threads other).at_work works
        · obtain ⟨at_work, claimed, high, sequence⟩ := pushing
          have same : ticket = pos := by omega
          exact absurd (same ▸ at_work) (free other)
        · obtain ⟨_, claimed, near, sequence⟩ := popping
          have lap : pos = ticket ∨ ticket + CAPACITY ≤ pos := by
            rcases Nat.lt_or_ge pos (ticket + CAPACITY) with close | far
            · exact .inl (ticket_eq here.symm (by omega) close)
            · exact .inr far
          omega
  intro ticket pushed _
  rw [sound.pops, List.mem_range, ← equal, ← sound.pushes]
  exact pushed

/-- An unobstructed push that finds its slot in use has found the queue full. -/
theorem filled (sound : Sound state) (looking : state.phase thread = .pushLooking val pos)
    (free : ∀ other ticket, (state.phase other).popping = some ticket → ticket + CAPACITY ≠ pos)
    (unpublished : state.queue.sequence (pos % CAPACITY) < pos) : Filled state := by
  have known := sound.threads thread
  rw [looking] at known
  have low : pos ≤ state.queue.tail := known
  have bounded := sound.bounded
  -- The ticket of the slot is an earlier one, hence by a lap or more.
  have lap : ∀ ticket, ticket % CAPACITY = pos % CAPACITY → ticket < pos → ticket + CAPACITY ≤ pos := by
    intro ticket here earlier
    by_contra close
    have same := ticket_eq here.symm (by omega) (by omega)
    omega
  have equal : state.queue.tail = state.queue.head + CAPACITY := by
    cases sound.slots _ (Nat.mod_lt pos (by decide : 0 < CAPACITY)) with
    | free ticket here sequence unclaimed near empty => omega
    | full ticket here sequence unclaimed pushed kept =>
        have far := lap ticket here (by omega)
        omega
    | busy other works =>
        obtain ⟨ticket, here, pushing | popping⟩ := (sound.threads other).at_work works
        · obtain ⟨_, claimed, high, sequence⟩ := pushing
          have far := lap ticket here (by omega)
          omega
        · obtain ⟨at_work, claimed, near, sequence⟩ := popping
          have far := lap ticket here (by omega)
          exact absurd (by omega) (free other ticket at_work)
  have popped : state.pops.length = state.queue.head := by
    rw [← List.length_map Prod.snd, sound.pops, List.length_range]
  rw [Filled, sound.pushes, popped, equal]

end Sound

theorem run_operations (ran : run step state actions = some after) : state.operations ≤ after.operations := by
  induction actions generalizing state with
  | nil =>
      cases ran
      exact Nat.le_refl _
  | cons action rest ih =>
      obtain ⟨next, stepped, remaining⟩ := run_cons_iff.mp ran
      exact (step_operations stepped).trans (ih remaining)

/-- A pop refuses when the sequence that it loaded is not past its ticket. -/
theorem pop_refuses (sound : Sound state) (few : state.operations < 2 ^ 63)
    (decides : state.phase thread = .popDeciding pos seq) (stepped : step state (.step thread spurious) = some after)
    (idle : after.phase thread = .idle) : seq ≤ pos := by
  have known := sound.threads thread
  rw [decides] at known
  obtain ⟨low, seen⟩ := known
  have small := sound.sequence_lt few pos
  have operations := sound.operations
  have ordered := sound.ordered
  have pushed : queuePush state thread spurious = none := by simp only [queuePush, decides]
  simp only [step, pushed, Option.none_or, queuePop, decides,
    Nat.mod_eq_of_lt (show pos + 1 < 2 ^ 64 by omega), intptr_of_lt (show seq < 2 ^ 63 by omega),
    intptr_of_lt (show pos + 1 < 2 ^ 63 by omega)] at stepped
  split at stepped
  · split at stepped <;> cases stepped <;> simp at idle
  · split at stepped
    · omega
    · cases stepped
      simp at idle

/-- A push refuses when the sequence that it loaded is before its ticket. -/
theorem push_refuses (sound : Sound state) (few : state.operations < 2 ^ 63)
    (decides : state.phase thread = .pushDeciding val pos seq) (stepped : step state (.step thread spurious) = some after)
    (idle : after.phase thread = .idle) : seq < pos := by
  have known := sound.threads thread
  rw [decides] at known
  obtain ⟨low, seen⟩ := known
  have small := sound.sequence_lt few pos
  have operations := sound.operations
  have popped : queuePop state thread spurious = none := by simp only [queuePop, decides]
  simp only [step, popped, Option.or_none, queuePush, decides, intptr_of_lt (show seq < 2 ^ 63 by omega),
    intptr_of_lt (show pos < 2 ^ 63 by omega)] at stepped
  split at stepped
  · split at stepped <;> cases stepped <;> simp at idle
  · split at stepped
    · omega
    · cases stepped
      simp at idle

/-- The instant at which a refusing thread looked. -/
theorem instant {data : Nat → T} {rest : List (Action T threads)} {looking : Phase T}
    (completed : run step (State.initial threads data) actions = some state) (few : state.operations < 2 ^ 63)
    (meets : Meets step Unobstructed (State.initial threads data) actions)
    (split : actions = before ++ call :: during ++ rest) (called : call.caller = some thread)
    (uncalled : ∀ action ∈ during, action.caller ≠ some thread)
    (started : run step (State.initial threads data) before = some start)
    (ran : run step start (call :: during) = some stop)
    (decides : (stop.phase thread).looked = some (looking, pos, seq)) :
    Sound stop ∧ stop.operations < 2 ^ 63 ∧ ∃ first ∈ (call :: during).inits, ∃ middle ∈ run step start first,
      Sound middle ∧ middle.phase thread = looking ∧ middle.queue.sequence (pos % CAPACITY) = seq ∧
      ∃ spurious, Unobstructed middle (.step thread spurious) := by
  have whole : run step (State.initial threads data) (before ++ call :: during) = some stop :=
    run_append_iff.mpr ⟨start, started, ran⟩
  rw [split] at completed meets
  obtain ⟨_, ranWhole, remaining⟩ := run_append_iff.mp completed
  cases whole.symm.trans ranWhole
  have fewStop : stop.operations < 2 ^ 63 := Nat.lt_of_le_of_lt (run_operations remaining) few
  refine ⟨run_sound whole fewStop, fewStop, ?_⟩
  obtain ⟨first, spurious, later, middle, shape, ranFirst, looks, loaded⟩ :=
    looked_in_call called uncalled ran decides
  have prefixRan : run step (State.initial threads data) (before ++ first) = some middle :=
    run_append_iff.mpr ⟨start, started, ranFirst⟩
  have unobstructed := (meets.append whole).1
  rw [shape] at ran unobstructed
  rw [← List.append_assoc] at unobstructed
  obtain ⟨_, again, toStop⟩ := run_append_iff.mp ran
  cases ranFirst.symm.trans again
  have fewMiddle : middle.operations < 2 ^ 63 := Nat.lt_of_le_of_lt (run_operations toStop) fewStop
  refine ⟨first, ?_, middle, ranFirst, run_sound prefixRan fewMiddle, looks, loaded, spurious,
    (unobstructed.append prefixRan).2.1⟩
  rw [List.mem_inits, shape]
  exact List.prefix_append _ _

/-- In every run without obstruction a false result means what it says. -/
theorem refusals_true (data : Nat → T) (actions : List (Action T threads))
    (completed : run step (State.initial threads data) actions = some state) (few : state.operations < 2 ^ 63)
    (meets : Meets step Unobstructed (State.initial threads data) actions) : TrueRefusals data actions where
  pops := by
    intro before during rest thread spurious start stop after pos seq split uncalled started ran decides stepped idle
    obtain ⟨sound, fewStop, first, inits, middle, ranFirst, soundMiddle, looks, loaded, _, free⟩ :=
      instant completed few meets split rfl uncalled started ran (by rw [decides]; rfl)
    simp only [Unobstructed, looks] at free
    exact ⟨first, inits, middle, ranFirst,
      soundMiddle.emptied looks free (loaded ▸ pop_refuses sound fewStop decides stepped idle)⟩
  pushes := by
    intro before during rest thread spurious start stop after val pos seq split uncalled started ran decides stepped idle
    obtain ⟨sound, fewStop, first, inits, middle, ranFirst, soundMiddle, looks, loaded, _, free⟩ :=
      instant completed few meets split rfl uncalled started ran (by rw [decides]; rfl)
    simp only [Unobstructed, looks] at free
    exact ⟨first, inits, middle, ranFirst,
      soundMiddle.filled looks free (loaded ▸ push_refuses sound fewStop decides stepped idle)⟩

theorem refusals_true_empty_queue :
    ∃ state : State Nat 1, run step (State.initial 1 fun _ => 0)
        [.pop 0, .step 0 false, .step 0 false, .step 0 false] = some state ∧
      TrueRefusals (fun _ => 0) ([.pop 0, .step 0 false, .step 0 false, .step 0 false] : List (Action Nat 1)) := by
  refine ⟨_, rfl, refusals_true (fun _ => 0) _ rfl (by decide) ?_⟩
  refine ⟨trivial, fun next called => ?_⟩
  cases called
  refine ⟨trivial, fun next loaded => ?_⟩
  cases loaded
  refine ⟨?_, fun next looked => ?_⟩
  · show ∀ other : Fin 1, _
    decide
  · cases looked
    exact ⟨trivial, fun _ _ => trivial⟩

/-- The first push claims its slot and stalls, the second one returns, and the pop refuses. -/
def stalledPush : List (Action Nat 3) :=
  [.push 0 7, .step 0 false, .step 0 false, .step 0 false, .push 1 8, .step 1 false, .step 1 false, .step 1 false,
    .step 1 false, .step 1 false]

def refusedPop : List (Action Nat 3) := [.pop 2, .step 2 false, .step 2 false]

/-- The queue was never empty while the pop ran, and the pop says that it was. -/
theorem refusal_overtakes_stalled_push :
    ∃ state : State Nat 3, run step (State.initial 3 fun _ => 0) (stalledPush ++ refusedPop ++ [.step 2 false]) =
        some state ∧ state.operations < 2 ^ 63 ∧
      ¬ TrueRefusals (fun _ => 0) (stalledPush ++ refusedPop ++ [.step 2 false]) := by
  refine ⟨_, rfl, by decide, ?_⟩
  intro honest
  obtain ⟨first, inits, middle, ran, emptied⟩ := honest.pops stalledPush [.step 2 false, .step 2 false] [] 2 false
    _ _ _ 0 0 rfl (by decide) rfl rfl rfl rfl rfl
  have never : ∀ first ∈ refusedPop.inits,
      ∀ middle ∈ run step (State.initial 3 fun _ => 0) stalledPush >>= fun start => run step start first,
        ¬ Emptied middle := by
    decide +kernel
  exact never first inits middle ran emptied

end HundredDays.MpmcQueue
