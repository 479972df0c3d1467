import HundredDays.MpmcQueue.Safety

namespace HundredDays.MpmcQueue

open HundredDays.Semantics

/-! What a program sees that uses the queue: the stages of its calls and what they return.

A call that goes on alone returns, whatever the others have begun; when they have begun
nothing, a push fails only on a full queue and a pop only on an empty one.
-/

variable {T : Type} {threads : Nat} {state middle after : State T threads} {thread : Fin threads} {val : T}
  {pos seq : Nat} {spurious : Bool}

inductive Response (T : Type) where
  | pushed (done : Bool)
  | popped (val : Option T)

/-- What a call returns with the step from one phase to the other. -/
def Phase.response : Phase T → Phase T → Option (Response T)
  | .pushDeciding _ _ _, .idle => some (.pushed false)
  | .pushWritten _, .idle => some (.pushed true)
  | .popDeciding _ _, .idle => some (.popped none)
  | .popRead _ val, .idle => some (.popped (some val))
  | _, _ => none

inductive Stage (T : Type) where
  | idle
  /-- In a push that has no ticket yet. -/
  | offering (val : T)
  | storing
  /-- In a pop that has no ticket yet. -/
  | seeking
  | taking

/-- Whether a response is that of a push. -/
def Response.pushes : Response T → Bool
  | pushed _ => true
  | popped _ => false

def Stage.pushes : Stage T → Bool
  | offering _ => true
  | storing => true
  | _ => false

def Stage.busy : Stage T → Bool
  | idle => false
  | _ => true

def Phase.stage : Phase T → Stage T
  | .idle => .idle
  | .pushCalled val => .offering val
  | .pushLooking val _ => .offering val
  | .pushDeciding val _ _ => .offering val
  | .pushClaimed _ _ => .storing
  | .pushWritten _ => .storing
  | .popCalled => .seeking
  | .popLooking _ => .seeking
  | .popDeciding _ _ => .seeking
  | .popClaimed _ => .taking
  | .popRead _ _ => .taking

theorem Stage.busy_iff {stage : Stage T} : stage.busy = true ↔ stage ≠ .idle := by
  cases stage <;> simp [busy]

@[simp] theorem Phase.stage_eq_idle {phase : Phase T} : phase.stage = .idle ↔ phase = .idle := by
  cases phase <;> simp [stage]

/-- What a step of a thread inside a call may do, that takes it from one phase to another. -/
inductive Progress (state : State T threads) (thread : Fin threads) (before now : Phase T) (after : State T threads) :
    Option (Response T) → Prop where
  | goOn (stage : now.stage = before.stage) (busy : before.stage ≠ .idle) (pushes : after.pushes = state.pushes)
      (returned : after.returned = state.returned) : Progress state thread before now after none
  | claimPush (val : T) (offering : before.stage = .offering val) (storing : now.stage = .storing)
      (pushes : after.pushes = state.pushes ++ [(thread, val)]) (returned : after.returned = state.returned) :
      Progress state thread before now after none
  | stored (storing : before.stage = .storing) (idle : now.stage = .idle) (pushes : after.pushes = state.pushes)
      (returned : after.returned = state.returned) : Progress state thread before now after (some (.pushed true))
  | refused (val : T) (offering : before.stage = .offering val) (idle : now.stage = .idle)
      (pushes : after.pushes = state.pushes) (returned : after.returned = state.returned) :
      Progress state thread before now after (some (.pushed false))
  | claimPop (seeking : before.stage = .seeking) (taking : now.stage = .taking) (pushes : after.pushes = state.pushes)
      (returned : after.returned = state.returned) : Progress state thread before now after none
  | taken (pos : Nat) (val : T) (taking : before.stage = .taking) (idle : now.stage = .idle)
      (pushes : after.pushes = state.pushes) (returned : after.returned = state.returned ++ [(pos, val)]) :
      Progress state thread before now after (some (.popped (some val)))
  | nothing (seeking : before.stage = .seeking) (idle : now.stage = .idle) (pushes : after.pushes = state.pushes)
      (returned : after.returned = state.returned) : Progress state thread before now after (some (.popped none))

theorem queuePush_progress (stepped : queuePush state thread spurious = some after) :
    ∃ phase, after.phase = Function.update state.phase thread phase ∧
      Progress state thread (state.phase thread) phase after ((state.phase thread).response phase) := by
  cases at_ : state.phase thread with
  | pushCalled val =>
      simp only [queuePush, at_, Option.some.injEq] at stepped
      subst after
      exact ⟨_, rfl, .goOn rfl (by simp [Phase.stage]) rfl rfl⟩
  | pushLooking val pos =>
      simp only [queuePush, at_, Option.some.injEq] at stepped
      subst after
      exact ⟨_, rfl, .goOn rfl (by simp [Phase.stage]) rfl rfl⟩
  | pushDeciding val pos seq =>
      simp only [queuePush, at_] at stepped
      split at stepped
      next =>
        split at stepped
        next =>
          cases stepped
          exact ⟨_, rfl, .claimPush val rfl rfl rfl rfl⟩
        next =>
          cases stepped
          exact ⟨_, rfl, .goOn rfl (by simp [Phase.stage]) rfl rfl⟩
      next =>
        split at stepped
        next =>
          cases stepped
          exact ⟨_, rfl, .refused val rfl rfl rfl rfl⟩
        next =>
          cases stepped
          exact ⟨_, rfl, .goOn rfl (by simp [Phase.stage]) rfl rfl⟩
  | pushClaimed val pos =>
      simp only [queuePush, at_, Option.some.injEq] at stepped
      subst after
      exact ⟨_, rfl, .goOn rfl (by simp [Phase.stage]) rfl rfl⟩
  | pushWritten pos =>
      simp only [queuePush, at_, Option.some.injEq] at stepped
      subst after
      exact ⟨_, rfl, .stored rfl rfl rfl rfl⟩
  | _ => simp only [queuePush, at_, reduceCtorEq] at stepped

theorem queuePop_progress (stepped : queuePop state thread spurious = some after) :
    ∃ phase, after.phase = Function.update state.phase thread phase ∧
      Progress state thread (state.phase thread) phase after ((state.phase thread).response phase) := by
  cases at_ : state.phase thread with
  | popCalled =>
      simp only [queuePop, at_, Option.some.injEq] at stepped
      subst after
      exact ⟨_, rfl, .goOn rfl (by simp [Phase.stage]) rfl rfl⟩
  | popLooking pos =>
      simp only [queuePop, at_, Option.some.injEq] at stepped
      subst after
      exact ⟨_, rfl, .goOn rfl (by simp [Phase.stage]) rfl rfl⟩
  | popDeciding pos seq =>
      simp only [queuePop, at_] at stepped
      split at stepped
      next =>
        split at stepped
        next =>
          cases stepped
          exact ⟨_, rfl, .claimPop rfl rfl rfl rfl⟩
        next =>
          cases stepped
          exact ⟨_, rfl, .goOn rfl (by simp [Phase.stage]) rfl rfl⟩
      next =>
        split at stepped
        next =>
          cases stepped
          exact ⟨_, rfl, .nothing rfl rfl rfl rfl⟩
        next =>
          cases stepped
          exact ⟨_, rfl, .goOn rfl (by simp [Phase.stage]) rfl rfl⟩
  | popClaimed pos =>
      simp only [queuePop, at_, Option.some.injEq] at stepped
      subst after
      exact ⟨_, rfl, .goOn rfl (by simp [Phase.stage]) rfl rfl⟩
  | popRead pos val =>
      simp only [queuePop, at_, Option.some.injEq] at stepped
      subst after
      exact ⟨_, rfl, .taken pos val rfl rfl rfl rfl⟩
  | _ => simp only [queuePop, at_, reduceCtorEq] at stepped

/-- Every step inside a call is one of these. -/
theorem step_progress (stepped : step state (.step thread spurious) = some after) :
    ∃ phase, after.phase = Function.update state.phase thread phase ∧
      Progress state thread (state.phase thread) phase after ((state.phase thread).response phase) := by
  obtain pushed | ⟨_, popped⟩ := Option.or_eq_some_iff.mp stepped
  · exact queuePush_progress pushed
  · exact queuePop_progress popped

/-- A call that responds is over. -/
theorem Progress.idle {phase next : Phase T} {response : Response T}
    (progress : Progress state thread phase next after (some response)) : next = .idle := by
  have ended : next.stage = .idle := by cases progress <;> assumption
  exact Phase.stage_eq_idle.mp ended

theorem Progress.busy {phase next : Phase T} {response : Option (Response T)}
    (progress : Progress state thread phase next after response) : phase ≠ .idle := by
  rw [Ne, ← Phase.stage_eq_idle]
  cases progress with
  | goOn stage busy pushes returned => exact busy
  | claimPush val offering storing pushes returned => exact fun idle => by cases idle.symm.trans offering
  | stored storing idle pushes returned => exact fun none => by cases none.symm.trans storing
  | refused val offering idle pushes returned => exact fun none => by cases none.symm.trans offering
  | claimPop seeking taking pushes returned => exact fun idle => by cases idle.symm.trans seeking
  | taken pos val taking idle pushes returned => exact fun none => by cases none.symm.trans taking
  | nothing seeking idle pushes returned => exact fun none => by cases none.symm.trans seeking

/-- A call goes on as what it is. -/
theorem Progress.pushes {phase next : Phase T} {response : Option (Response T)}
    (progress : Progress state thread phase next after response) :
    response.elim next.stage.pushes Response.pushes = phase.stage.pushes := by
  cases progress with
  | goOn stage busy pushes returned => exact congrArg Stage.pushes stage
  | claimPush val offering storing pushes returned => rw [offering, storing]; rfl
  | stored storing idle pushes returned => rw [storing]; rfl
  | refused val offering idle pushes returned => rw [offering]; rfl
  | claimPop seeking taking pushes returned => rw [seeking, taking]; rfl
  | taken pos val taking idle pushes returned => rw [taking]; rfl
  | nothing seeking idle pushes returned => rw [seeking]; rfl

theorem busy_of_step (stepped : step state (.step thread spurious) = some after) : state.phase thread ≠ .idle := by
  obtain ⟨phase, _, progress⟩ := step_progress stepped
  exact progress.busy

theorem inside_operations (stepped : step state (.step thread spurious) = some after) :
    after.operations = state.operations := by
  obtain pushed | ⟨_, popped⟩ := Option.or_eq_some_iff.mp stepped
  · exact queuePush_operations pushed
  · exact queuePop_operations popped

/-! ### A thread alone -/

/-- The steps of one thread up to the one with which its call returns. -/
inductive Returns (thread : Fin threads) (response : Response T) : State T threads → State T threads → Prop where
  | last {state after : State T threads} {phase : Phase T} (stepped : step state (.step thread false) = some after)
      (moved : after.phase = Function.update state.phase thread phase)
      (answers : (state.phase thread).response phase = some response) : Returns thread response state after
  | more {state middle after : State T threads} {phase : Phase T}
      (stepped : step state (.step thread false) = some middle)
      (moved : middle.phase = Function.update state.phase thread phase)
      (silent : (state.phase thread).response phase = none) (later : Returns thread response middle after) :
      Returns thread response state after

def State.goto (state : State T threads) (thread : Fin threads) (phase : Phase T) : State T threads :=
  { state with phase := Function.update state.phase thread phase }

namespace State

variable {phase next : Phase T}

@[simp] theorem goto_phase : (state.goto thread phase).phase thread = phase := Function.update_self ..

@[simp] theorem goto_goto : (state.goto thread phase).goto thread next = state.goto thread next := by
  simp [goto]

theorem goto_self : state.goto thread (state.phase thread) = state := by
  simp [goto]

end State

theorem step_of_push (pushed : queuePush state thread spurious = some after) :
    step state (.step thread spurious) = some after := by
  rw [step, pushed, Option.some_or]

theorem step_of_pop (popped : queuePop state thread spurious = some after) :
    step state (.step thread spurious) = some after := by
  have none : queuePush state thread spurious = none := by
    cases at_ : state.phase thread with
    | pushCalled val => simp only [queuePop, at_, reduceCtorEq] at popped
    | pushLooking val pos => simp only [queuePop, at_, reduceCtorEq] at popped
    | pushDeciding val pos seq => simp only [queuePop, at_, reduceCtorEq] at popped
    | pushClaimed val pos => simp only [queuePop, at_, reduceCtorEq] at popped
    | pushWritten pos => simp only [queuePop, at_, reduceCtorEq] at popped
    | _ => simp only [queuePush, at_]
  rw [step, none, Option.none_or, popped]

namespace Sound

theorem tail_lt (sound : Sound state) (few : state.operations < 2 ^ 63) : state.queue.tail < 2 ^ 63 := by
  have operations := sound.operations
  omega

theorem head_lt (sound : Sound state) (few : state.operations < 2 ^ 63)
    (seeking : (state.phase thread).stage = .seeking) :
    state.queue.head + 1 < 2 ^ 63 := by
  have operations := sound.operations
  have pending := pending_le state.phase thread
  have one : (state.phase thread).pending = 1 := by
    cases at_ : state.phase thread <;> simp_all [Phase.stage, Phase.pending]
  omega

end Sound

namespace Returns

variable {response : Response T}

/-- A step of a push that only goes to another phase. -/
theorem push {phase next : Phase T} (stepped : queuePush state thread false = some (state.goto thread next))
    (at_ : state.phase thread = phase) (silent : phase.response next = none)
    (later : ∃ after, Returns thread response (state.goto thread next) after) :
    ∃ after, Returns thread response state after := by
  obtain ⟨after, returns⟩ := later
  exact ⟨after, .more (step_of_push stepped) rfl (by rw [at_, silent]) returns⟩

theorem pop {phase next : Phase T} (stepped : queuePop state thread false = some (state.goto thread next))
    (at_ : state.phase thread = phase) (silent : phase.response next = none)
    (later : ∃ after, Returns thread response (state.goto thread next) after) :
    ∃ after, Returns thread response state after := by
  obtain ⟨after, returns⟩ := later
  exact ⟨after, .more (step_of_pop stepped) rfl (by rw [at_, silent]) returns⟩

/-- A push with a ticket returns. -/
theorem written (at_ : state.phase thread = .pushWritten pos) : ∃ after, Returns thread (.pushed true) state after :=
  ⟨_, .last (step_of_push (by rw [queuePush, at_])) rfl (by rw [at_]; rfl)⟩

theorem claimedPush (at_ : state.phase thread = .pushClaimed val pos) :
    ∃ after, Returns thread (.pushed true) state after := by
  have stepped : step state (.step thread false) = some _ := step_of_push (by rw [queuePush, at_])
  generalize moved : State.mk _ _ _ _ _ _ _ = middle at stepped
  have here : middle.phase = Function.update state.phase thread (.pushWritten pos) := moved ▸ rfl
  obtain ⟨after, returns⟩ := written (show middle.phase thread = .pushWritten pos by rw [here, Function.update_self])
  exact ⟨after, .more stepped here (by rw [at_]; rfl) returns⟩

/-- A push that looked at the tail takes the ticket when the slot waits for it. -/
theorem decidedPush (at_ : state.phase thread = .pushDeciding val state.queue.tail state.queue.tail) :
    ∃ after, Returns thread (.pushed true) state after := by
  have stepped : step state (.step thread false) = some _ :=
    step_of_push (by rw [queuePush, at_]; simp only [sub_self, and_self, if_true]; rfl)
  generalize moved : State.mk _ _ _ _ _ _ _ = middle at stepped
  have here : middle.phase = Function.update state.phase thread (.pushClaimed val state.queue.tail) := moved ▸ rfl
  obtain ⟨after, returns⟩ :=
    claimedPush (show middle.phase thread = .pushClaimed val state.queue.tail by rw [here, Function.update_self])
  exact ⟨after, .more stepped here (by rw [at_]; rfl) returns⟩

/-- A push that saw a sequence from before its ticket is refused. -/
theorem refusedPush (at_ : state.phase thread = .pushDeciding val pos seq) (behind : seq < pos)
    (small : pos < 2 ^ 63) : ∃ after, Returns thread (.pushed false) state after := by
  have refuses : queuePush state thread false = some (state.goto thread .idle) := by
    rw [queuePush, at_]
    simp only [intptr_of_lt (Nat.lt_trans behind small), intptr_of_lt small]
    rw [if_neg (by omega), if_pos (by omega)]
    rfl
  exact ⟨_, .last (step_of_push refuses) rfl (by rw [at_]; rfl)⟩

/-- A push that looks at the tail is done when the slot waits for the ticket, and refused when not. -/
theorem lookingPush (sound : Sound state) (few : state.operations < 2 ^ 63)
    (at_ : state.phase thread = .pushLooking val state.queue.tail) :
    ∃ after, Returns thread
      (.pushed (decide (state.queue.sequence (state.queue.tail % CAPACITY) = state.queue.tail))) state after := by
  have small := sound.tail_lt few
  have looked : queuePush state thread false = some (state.goto thread
      (.pushDeciding val state.queue.tail (state.queue.sequence (state.queue.tail % CAPACITY)))) := by
    rw [queuePush, at_]
    rfl
  refine push looked at_ rfl ?_
  by_cases ready : state.queue.sequence (state.queue.tail % CAPACITY) = state.queue.tail
  · rw [decide_eq_true ready]
    exact decidedPush (by rw [State.goto_phase, ready]; rfl)
  · have behind : state.queue.sequence (state.queue.tail % CAPACITY) < state.queue.tail := by
      by_contra ahead
      exact ready (sound.push_free (Nat.le_of_not_lt ahead)).1
    rw [decide_eq_false ready]
    exact refusedPush State.goto_phase behind small

/-- A push that has loaded the tail again returns. -/
theorem freshPush (sound : Sound state) (few : state.operations < 2 ^ 63)
    (offering : (state.phase thread).stage = .offering val) :
    ∃ done after, Returns thread (.pushed done) (state.goto thread (.pushLooking val state.queue.tail)) after := by
  have free : (state.phase thread).slot = none := by
    cases at_ : state.phase thread <;> simp_all [Phase.stage, Phase.slot]
  have one : (state.phase thread).pending = 1 := by
    cases at_ : state.phase thread <;> simp_all [Phase.stage, Phase.pending]
  have soundFresh : Sound (state.goto thread (.pushLooking val state.queue.tail)) :=
    sound.goto (.pushLooking val state.queue.tail) free rfl (Nat.le_refl _) (by rw [one]; exact Nat.le_refl _)
  exact ⟨_, lookingPush soundFresh few State.goto_phase⟩

theorem decidingPush (sound : Sound state) (few : state.operations < 2 ^ 63)
    (at_ : state.phase thread = .pushDeciding val pos seq) :
    ∃ done after, Returns thread (.pushed done) state after := by
  have known := sound.threads thread
  rw [at_] at known
  obtain ⟨low, seen⟩ := known
  have small := sound.tail_lt few
  have near := sound.sequence_lt few pos
  obtain ⟨done, again⟩ := freshPush sound few (congrArg Phase.stage at_)
  by_cases ready : seq = pos
  · by_cases current : state.queue.tail = pos
    · subst ready
      rw [← current] at at_
      exact ⟨true, decidedPush at_⟩
    · refine ⟨done, push ?_ at_ rfl again⟩
      rw [queuePush, at_, ready]
      simp only [sub_self, if_true]
      exact if_neg fun won => current won.1
  · by_cases behind : seq < pos
    · exact ⟨false, refusedPush at_ behind (by omega)⟩
    · refine ⟨done, push ?_ at_ rfl again⟩
      rw [queuePush, at_]
      simp only [intptr_of_lt (show seq < 2 ^ 63 by omega), intptr_of_lt (show pos < 2 ^ 63 by omega)]
      rw [if_neg (by omega), if_neg (by omega)]
      rfl

/-- Every push returns. -/
theorem offering (sound : Sound state) (few : state.operations < 2 ^ 63)
    (begun : (state.phase thread).stage = .offering val) :
    ∃ done after, Returns thread (.pushed done) state after := by
  cases at_ : state.phase thread with
  | pushCalled other =>
      obtain ⟨done, again⟩ := freshPush sound few (congrArg Phase.stage at_)
      exact ⟨done, push (by rw [queuePush, at_]; rfl) at_ rfl again⟩
  | pushLooking other pos =>
      have looks : queuePush state thread false =
          some (state.goto thread (.pushDeciding other pos (state.queue.sequence (pos % CAPACITY)))) := by
        rw [queuePush, at_]
        rfl
      have soundNext := queuePush_sound sound few looks
      obtain ⟨done, returns⟩ := decidingPush soundNext few State.goto_phase
      exact ⟨done, push looks at_ rfl returns⟩
  | pushDeciding other pos seq => exact decidingPush sound few at_
  | _ => simp [at_, Phase.stage] at begun

/-- A pop with a ticket returns. -/
theorem readPop (at_ : state.phase thread = .popRead pos val) :
    ∃ after, Returns thread (.popped (some val)) state after :=
  ⟨_, .last (step_of_pop (by rw [queuePop, at_])) rfl (by rw [at_]; rfl)⟩

theorem claimedPop (at_ : state.phase thread = .popClaimed pos) :
    ∃ val after, Returns thread (.popped (some val)) state after := by
  have stepped : step state (.step thread false) = some _ := step_of_pop (by rw [queuePop, at_])
  generalize moved : State.mk _ _ _ _ _ _ _ = middle at stepped
  have here : middle.phase = Function.update state.phase thread (.popRead pos (state.queue.data (pos % CAPACITY))) :=
    moved ▸ rfl
  obtain ⟨after, returns⟩ := readPop
    (show middle.phase thread = .popRead pos (state.queue.data (pos % CAPACITY)) by rw [here, Function.update_self])
  exact ⟨_, after, .more stepped here (by rw [at_]; rfl) returns⟩

/-- A pop that looked at the head takes the ticket when the slot holds its value. -/
theorem decidedPop (small : state.queue.head + 1 < 2 ^ 63)
    (at_ : state.phase thread = .popDeciding state.queue.head (state.queue.head + 1)) :
    ∃ val after, Returns thread (.popped (some val)) state after := by
  have wide : state.queue.head + 1 < 2 ^ 64 := Nat.lt_trans small (by decide)
  have stepped : step state (.step thread false) = some _ :=
    step_of_pop (by rw [queuePop, at_]; simp only [Nat.mod_eq_of_lt wide, sub_self, and_self, if_true]; rfl)
  generalize moved : State.mk _ _ _ _ _ _ _ = middle at stepped
  have here : middle.phase = Function.update state.phase thread (.popClaimed state.queue.head) := moved ▸ rfl
  obtain ⟨val, after, returns⟩ :=
    claimedPop (show middle.phase thread = .popClaimed state.queue.head by rw [here, Function.update_self])
  exact ⟨val, after, .more stepped here (by rw [at_]; rfl) returns⟩

/-- A pop that saw a sequence from before its value is refused. -/
theorem refusedPop (at_ : state.phase thread = .popDeciding pos seq) (behind : seq < pos + 1)
    (small : pos + 1 < 2 ^ 63) : ∃ after, Returns thread (.popped none) state after := by
  have refuses : queuePop state thread false = some (state.goto thread .idle) := by
    rw [queuePop, at_]
    simp only [Nat.mod_eq_of_lt (Nat.lt_trans small (by decide : 2 ^ 63 < 2 ^ 64)),
      intptr_of_lt (Nat.lt_trans behind small), intptr_of_lt small]
    rw [if_neg (by omega), if_pos (by omega)]
    rfl
  exact ⟨_, .last (step_of_pop refuses) rfl (by rw [at_]; rfl)⟩

/-- A pop that looks at the head finds a value when the slot holds that of the ticket. -/
theorem lookingPop (sound : Sound state) (few : state.operations < 2 ^ 63)
    (at_ : state.phase thread = .popLooking state.queue.head) :
    ∃ val after, Returns thread (.popped val) state after ∧
      (val.isSome ↔ state.queue.sequence (state.queue.head % CAPACITY) = state.queue.head + 1) := by
  have small := sound.head_lt few (congrArg Phase.stage at_)
  have looked : queuePop state thread false = some (state.goto thread
      (.popDeciding state.queue.head (state.queue.sequence (state.queue.head % CAPACITY)))) := by
    rw [queuePop, at_]
    rfl
  by_cases ready : state.queue.sequence (state.queue.head % CAPACITY) = state.queue.head + 1
  · obtain ⟨val, later⟩ : ∃ val after, Returns thread (.popped (some val)) (state.goto thread
        (.popDeciding state.queue.head (state.queue.sequence (state.queue.head % CAPACITY)))) after :=
      decidedPop small (by rw [State.goto_phase, ready]; rfl)
    obtain ⟨after, returns⟩ := pop looked at_ rfl later
    exact ⟨some val, after, returns, fun _ => ready, fun _ => rfl⟩
  · have behind : state.queue.sequence (state.queue.head % CAPACITY) < state.queue.head + 1 := by
      by_contra ahead
      exact ready (sound.pop_full (Nat.le_of_not_lt ahead)).1
    obtain ⟨after, returns⟩ := pop looked at_ rfl (refusedPop State.goto_phase behind small)
    exact ⟨none, after, returns, fun found => absurd found (by simp), fun same => absurd same ready⟩

/-- A pop that has loaded the head again returns. -/
theorem freshPop (sound : Sound state) (few : state.operations < 2 ^ 63)
    (seeking : (state.phase thread).stage = .seeking) :
    ∃ val after, Returns thread (.popped val) (state.goto thread (.popLooking state.queue.head)) after := by
  have free : (state.phase thread).slot = none := by
    cases at_ : state.phase thread <;> simp_all [Phase.stage, Phase.slot]
  have one : (state.phase thread).pending = 1 := by
    cases at_ : state.phase thread <;> simp_all [Phase.stage, Phase.pending]
  have soundFresh : Sound (state.goto thread (.popLooking state.queue.head)) :=
    sound.goto (.popLooking state.queue.head) free rfl (Nat.le_refl _) (by rw [one]; exact Nat.le_refl _)
  obtain ⟨val, after, returns, _⟩ := lookingPop soundFresh few State.goto_phase
  exact ⟨val, after, returns⟩

theorem decidingPop (sound : Sound state) (few : state.operations < 2 ^ 63)
    (at_ : state.phase thread = .popDeciding pos seq) :
    ∃ val after, Returns thread (.popped val) state after := by
  have known := sound.threads thread
  rw [at_] at known
  obtain ⟨low, seen⟩ := known
  have small := sound.head_lt few (congrArg Phase.stage at_)
  have near := sound.sequence_lt few pos
  obtain ⟨val, again⟩ := freshPop sound few (congrArg Phase.stage at_)
  have wide : pos + 1 < 2 ^ 64 := Nat.lt_of_le_of_lt (Nat.succ_le_succ low) (Nat.lt_trans small (by decide))
  by_cases ready : seq = pos + 1
  · by_cases current : state.queue.head = pos
    · subst ready
      rw [← current] at at_
      obtain ⟨val, returns⟩ := decidedPop small at_
      exact ⟨some val, returns⟩
    · refine ⟨val, pop ?_ at_ rfl again⟩
      rw [queuePop, at_, ready]
      simp only [Nat.mod_eq_of_lt wide, sub_self, if_true]
      exact if_neg fun won => current won.1
  · by_cases behind : seq < pos + 1
    · exact ⟨none, refusedPop at_ behind (by omega)⟩
    · refine ⟨val, pop ?_ at_ rfl again⟩
      rw [queuePop, at_]
      simp only [Nat.mod_eq_of_lt wide, intptr_of_lt (show seq < 2 ^ 63 by omega),
        intptr_of_lt (show pos + 1 < 2 ^ 63 by omega)]
      rw [if_neg (by omega), if_neg (by omega)]
      rfl

/-- Every pop returns. -/
theorem seeking (sound : Sound state) (few : state.operations < 2 ^ 63)
    (begun : (state.phase thread).stage = .seeking) :
    ∃ val after, Returns thread (.popped val) state after := by
  cases at_ : state.phase thread with
  | popCalled =>
      obtain ⟨val, again⟩ := freshPop sound few (congrArg Phase.stage at_)
      exact ⟨val, pop (by rw [queuePop, at_]; rfl) at_ rfl again⟩
  | popLooking pos =>
      have looks : queuePop state thread false =
          some (state.goto thread (.popDeciding pos (state.queue.sequence (pos % CAPACITY)))) := by
        rw [queuePop, at_]
        rfl
      have soundNext := queuePop_sound sound few looks
      obtain ⟨val, returns⟩ := decidingPop soundNext few State.goto_phase
      exact ⟨val, pop looks at_ rfl returns⟩
  | popDeciding pos seq => exact decidingPop sound few at_
  | _ => simp [at_, Phase.stage] at begun

/-- Every call returns when its thread goes on alone. -/
theorem always (sound : Sound state) (few : state.operations < 2 ^ 63) (busy : (state.phase thread).stage ≠ .idle) :
    ∃ response after, Returns thread response state after := by
  cases at_ : (state.phase thread).stage with
  | idle => exact absurd at_ busy
  | offering val =>
      obtain ⟨done, returns⟩ := offering sound few at_
      exact ⟨_, returns⟩
  | storing =>
      cases phase : state.phase thread with
      | pushClaimed val pos => exact ⟨_, claimedPush phase⟩
      | pushWritten pos => exact ⟨_, written phase⟩
      | _ => simp [phase, Phase.stage] at at_
  | seeking =>
      obtain ⟨val, returns⟩ := seeking sound few at_
      exact ⟨_, returns⟩
  | taking =>
      cases phase : state.phase thread with
      | popClaimed pos =>
          obtain ⟨val, returns⟩ := claimedPop phase
          exact ⟨_, returns⟩
      | popRead pos val => exact ⟨_, readPop phase⟩
      | _ => simp [phase, Phase.stage] at at_

theorem spec (returns : Returns thread response state after) :
    after.phase = Function.update state.phase thread .idle ∧ after.operations = state.operations := by
  induction returns with
  | last stepped moved answers =>
      obtain ⟨phase, same, progress⟩ := step_progress stepped
      rw [moved] at same
      cases Function.update_injective _ thread same
      rw [answers] at progress
      exact ⟨by rw [moved, progress.idle], inside_operations stepped⟩
  | more stepped moved silent later ih =>
      obtain ⟨final, kept⟩ := ih
      exact ⟨by rw [final, moved, Function.update_idem], kept.trans (inside_operations stepped)⟩

/-- A push answers a push, and a pop a pop. -/
theorem response_pushes (returns : Returns thread response state after) :
    response.pushes = (state.phase thread).stage.pushes := by
  induction returns with
  | last stepped moved answers =>
      obtain ⟨phase, same, progress⟩ := step_progress stepped
      rw [moved] at same
      cases Function.update_injective _ thread same
      rw [answers] at progress
      exact progress.pushes
  | more stepped moved silent later ih =>
      obtain ⟨phase, same, progress⟩ := step_progress stepped
      rw [moved] at same
      cases Function.update_injective _ thread same
      rw [silent] at progress
      rw [ih, moved, Function.update_self]
      exact progress.pushes

end Returns

namespace Sound

/-- When no thread works on a slot, the slot of the tail waits for its push. -/
theorem quiet_tail (sound : Sound state) (quiet : ∀ thread, (state.phase thread).slot = none)
    (room : state.queue.tail < state.queue.head + CAPACITY) :
    state.queue.sequence (state.queue.tail % CAPACITY) = state.queue.tail := by
  cases sound.slots _ (Nat.mod_lt state.queue.tail (by decide : 0 < CAPACITY)) with
  | busy thread works =>
      rw [quiet] at works
      cases works
  | free ticket here sequence unclaimed near empty =>
      rw [sequence]
      exact ticket_eq here unclaimed (Nat.lt_of_lt_of_le near (Nat.add_le_add_right sound.ordered CAPACITY))
  | full ticket here sequence unclaimed pushed kept =>
      have same : state.queue.tail = ticket := ticket_eq here.symm (Nat.le_of_lt pushed) (by omega)
      omega

/-- And the slot of the head, of a queue that is not empty, holds its value. -/
theorem quiet_head (sound : Sound state) (quiet : ∀ thread, (state.phase thread).slot = none)
    (filled : state.queue.head < state.queue.tail) :
    state.queue.sequence (state.queue.head % CAPACITY) = state.queue.head + 1 := by
  have bounded := sound.bounded
  cases sound.slots _ (Nat.mod_lt state.queue.head (by decide : 0 < CAPACITY)) with
  | busy thread works =>
      rw [quiet] at works
      cases works
  | free ticket here sequence unclaimed near empty =>
      have same : ticket = state.queue.head := ticket_eq here (by omega) near
      omega
  | full ticket here sequence unclaimed pushed kept =>
      have same : ticket = state.queue.head := ticket_eq here unclaimed (by omega)
      rw [sequence, same]

/-- The pops that are not under way have returned. -/
theorem quiet_returned (sound : Sound state) (quiet : ∀ thread, (state.phase thread).popping = none) :
    state.returned.length = state.queue.head := by
  have tickets : (state.returned.map Prod.fst).toFinset = Finset.range state.queue.head := by
    ext ticket
    rw [List.mem_toFinset, Finset.mem_range, sound.accounted ticket]
    refine (or_iff_left ?_).symm
    rintro ⟨thread, popping⟩
    cases (quiet thread).symm.trans popping
  rw [← List.length_map Prod.fst, ← List.toFinset_card_of_nodup sound.once, tickets, Finset.card_range]

/-- A consumer that is the only one pops the tickets in their order. -/
theorem pop_inOrder (sound : Sound state) (quiet : ∀ thread, (state.phase thread).popping = none) {served : Nat}
    (tickets : state.returned.map Prod.fst = List.range served ++ [pos]) : pos = served := by
  have once := sound.once
  have accounted (ticket : Nat) : ticket < state.queue.head ↔ ticket ∈ List.range served ++ [pos] := by
    rw [sound.accounted ticket, tickets]
    refine or_iff_left ?_
    rintro ⟨thread, popping⟩
    cases (quiet thread).symm.trans popping
  rw [tickets] at once
  have fresh : pos ∉ List.range served := fun member =>
    (List.nodup_append.mp once).2.2 pos member pos (List.mem_singleton_self pos) rfl
  have inside := (accounted pos).mpr (by simp)
  rw [List.mem_range] at fresh
  by_contra different
  have skipped := (accounted served).mp (by omega)
  rw [List.mem_append, List.mem_range, List.mem_singleton] at skipped
  omega

/-- And their values. -/
theorem served (sound : Sound state) (inOrder : state.returned.map Prod.fst = List.range state.returned.length) :
    state.returned.map Prod.snd = (state.pushes.map Prod.snd).take state.returned.length := by
  apply List.ext_getElem?
  intro index
  by_cases inside : index < state.returned.length
  · have ticket : state.returned[index].1 = index := by
      have here := congrArg (fun tickets => tickets[index]?) inOrder
      simpa [List.getElem?_eq_getElem inside, List.getElem?_range inside] using here
    have value := sound.returned _ (List.getElem_mem inside)
    rw [ticket, valueOf] at value
    rw [List.getElem?_take_of_lt inside, List.getElem?_map, List.getElem?_map, value,
      List.getElem?_eq_getElem inside, Option.map_some]
  · rw [List.getElem?_eq_none (by simpa using inside), List.getElem?_eq_none (by simp; omega)]

/-- The slot of the tail of a full queue is that of the head, a lap behind. -/
theorem full_tail (sound : Sound state) (quiet : ∀ thread, (state.phase thread).slot = none)
    (full : state.queue.tail = state.queue.head + CAPACITY) :
    state.queue.sequence (state.queue.tail % CAPACITY) ≠ state.queue.tail := by
  have filled : state.queue.head < state.queue.tail := by
    rw [full]
    exact Nat.lt_add_of_pos_right (by decide)
  have head := sound.quiet_head quiet filled
  rw [full, Nat.add_mod_right, head]
  simp only [CAPACITY]
  omega

/-- The slot of the head of an empty queue waits for its push. -/
theorem empty_head (sound : Sound state) (quiet : ∀ thread, (state.phase thread).slot = none)
    (empty : state.queue.head = state.queue.tail) :
    state.queue.sequence (state.queue.head % CAPACITY) ≠ state.queue.head + 1 := by
  have tail := sound.quiet_tail quiet (by rw [empty]; exact Nat.lt_add_of_pos_right (by decide))
  rw [empty, tail]
  exact (Nat.succ_ne_self _).symm

/-- A push alone in the queue is refused when the queue is full, and only then. -/
theorem quiet_push (sound : Sound state) (few : state.operations < 2 ^ 63)
    (quiet : ∀ thread, (state.phase thread).slot = none) (called : state.phase thread = .pushCalled val) :
    ∃ after, Returns thread (.pushed (decide (state.queue.tail < state.queue.head + CAPACITY))) state after := by
  have loads : queuePush state thread false = some (state.goto thread (.pushLooking val state.queue.tail)) := by
    rw [queuePush, called]
    rfl
  have ready : state.queue.tail < state.queue.head + CAPACITY ↔
      state.queue.sequence (state.queue.tail % CAPACITY) = state.queue.tail :=
    ⟨sound.quiet_tail quiet, fun same => Nat.lt_of_le_of_ne sound.bounded fun full => sound.full_tail quiet full same⟩
  rw [decide_eq_decide.mpr ready]
  exact Returns.push loads called rfl (Returns.lookingPush (queuePush_sound sound few loads) few State.goto_phase)

/-- And a pop finds a value when the queue is not empty, and only then. -/
theorem quiet_pop (sound : Sound state) (few : state.operations < 2 ^ 63)
    (quiet : ∀ thread, (state.phase thread).slot = none) (called : state.phase thread = .popCalled) :
    ∃ val after, Returns thread (.popped val) state after ∧ (val.isSome ↔ state.queue.head < state.queue.tail) := by
  have loads : queuePop state thread false = some (state.goto thread (.popLooking state.queue.head)) := by
    rw [queuePop, called]
    rfl
  obtain ⟨val, later, returns, found⟩ := Returns.lookingPop (queuePop_sound sound few loads) few State.goto_phase
  obtain ⟨after, returned⟩ := Returns.pop loads called rfl ⟨later, returns⟩
  refine ⟨val, after, returned, found.trans ⟨fun same => ?_, sound.quiet_head quiet⟩⟩
  exact Nat.lt_of_le_of_ne sound.ordered fun empty => sound.empty_head quiet empty same

end Sound

/-! ### The first lap -/

namespace Sound

theorem le_sequence (sound : Sound state) {slot : Nat} (inside : slot < CAPACITY) :
    slot ≤ state.queue.sequence slot := by
  cases sound.slots slot inside with
  | busy thread works =>
      obtain ⟨ticket, here, ⟨_, _, _, sequence⟩ | ⟨_, _, _, sequence⟩⟩ := (sound.threads thread).at_work works
      · rw [sequence, ← here]
        exact Nat.mod_le _ _
      · rw [sequence, ← here]
        exact Nat.le_succ_of_le (Nat.mod_le _ _)
  | free ticket here sequence unclaimed near empty =>
      rw [sequence, ← here]
      exact Nat.mod_le _ _
  | full ticket here sequence unclaimed pushed kept =>
      rw [sequence, ← here]
      exact Nat.le_succ_of_le (Nat.mod_le _ _)

end Sound

/-- What a push has seen of a slot is no less than on the first lap. -/
def Looked (state : State T threads) : Prop :=
  ∀ thread val pos seq, state.phase thread = .pushDeciding val pos seq → pos % CAPACITY ≤ seq

theorem queuePush_deciding {seq : Nat} (stepped : queuePush state thread spurious = some after)
    (at_ : after.phase thread = .pushDeciding val pos seq) : seq = state.queue.sequence (pos % CAPACITY) := by
  cases here : state.phase thread with
  | pushLooking other place =>
      simp only [queuePush, here, Option.some.injEq] at stepped
      subst after
      simp only [Function.update_self, Phase.pushDeciding.injEq] at at_
      obtain ⟨_, rfl, rfl⟩ := at_
      rfl
  | pushDeciding other place saw =>
      simp only [queuePush, here] at stepped
      split at stepped <;> split at stepped <;> cases stepped <;> simp at at_
  | _ =>
      simp only [queuePush, here, Option.some.injEq, reduceCtorEq] at stepped
      try subst after
      try simp at at_

theorem queuePop_deciding {seq : Nat} (stepped : queuePop state thread spurious = some after) :
    after.phase thread ≠ .pushDeciding val pos seq := by
  intro at_
  cases here : state.phase thread with
  | popDeciding place saw =>
      simp only [queuePop, here] at stepped
      split at stepped <;> split at stepped <;> cases stepped <;> simp at at_
  | _ =>
      simp only [queuePop, here, Option.some.injEq, reduceCtorEq] at stepped
      try subst after
      try simp at at_

namespace Looked

theorem other {phase : Phase T} (looked : Looked state) (moved : after.phase = Function.update state.phase thread phase)
    (mine : ∀ val pos seq, after.phase thread = .pushDeciding val pos seq → pos % CAPACITY ≤ seq) : Looked after := by
  intro each val pos seq at_
  by_cases here : each = thread
  · rw [here] at at_
    exact mine val pos seq at_
  · rw [moved, Function.update_of_ne here] at at_
    exact looked each val pos seq at_

theorem call {phase : Phase T} (looked : Looked state) (called : call state thread phase = some after)
    (begun : ∀ val pos seq, phase ≠ .pushDeciding val pos seq) : Looked after := by
  cases at_ : state.phase thread with
  | idle =>
      simp only [MpmcQueue.call, at_, Option.some.injEq] at called
      subst after
      refine looked.other rfl fun val pos seq here => ?_
      exact absurd ((Function.update_self thread phase state.phase).symm.trans here) (begun val pos seq)
  | _ => simp only [MpmcQueue.call, at_, reduceCtorEq] at called

theorem step {action : Action T threads} (looked : Looked state) (sound : Sound state)
    (stepped : step state action = some after) : Looked after := by
  cases action with
  | push thread val => exact looked.call stepped nofun
  | pop thread => exact looked.call stepped nofun
  | step thread spurious =>
      obtain ⟨phase, moved, _⟩ := step_progress stepped
      refine looked.other moved fun val pos seq at_ => ?_
      obtain pushed | ⟨_, popped⟩ := Option.or_eq_some_iff.mp stepped
      · rw [queuePush_deciding pushed at_]
        exact sound.le_sequence (Nat.mod_lt pos (by decide))
      · exact absurd at_ (queuePop_deciding popped)

end Looked

/-! ### The count of operations

It is no part of the program: what keeps the counters small may as well be that few
operations succeed.
-/

def State.counting (state : State T threads) (count : Nat) : State T threads := { state with operations := count }

/-- The tickets that are given and those that may still be asked for. -/
def State.load (state : State T threads) : Nat :=
  state.queue.head + state.queue.tail + ∑ thread, (state.phase thread).pending

section Counting

variable {count : Nat} {action : Action T threads} {response : Response T}

@[simp] theorem State.counting_load : (state.counting count).load = state.load := rfl

@[simp] theorem State.counting_self : state.counting state.operations = state := rfl

theorem queuePush_counting (state : State T threads) (thread : Fin threads) (spurious : Bool) (count : Nat) :
    queuePush (state.counting count) thread spurious =
      (queuePush state thread spurious).map fun after => after.counting count := by
  have same : (state.counting count).phase thread = state.phase thread := rfl
  unfold queuePush
  rw [same]
  cases state.phase thread with
  | pushDeciding val pos seq => simp only [apply_ite (Option.map _)]; rfl
  | _ => rfl

theorem queuePop_counting (state : State T threads) (thread : Fin threads) (spurious : Bool) (count : Nat) :
    queuePop (state.counting count) thread spurious =
      (queuePop state thread spurious).map fun after => after.counting count := by
  have same : (state.counting count).phase thread = state.phase thread := rfl
  unfold queuePop
  rw [same]
  cases state.phase thread with
  | popDeciding pos seq => simp only [apply_ite (Option.map _)]; rfl
  | _ => rfl

theorem inside_counting (stepped : step state (.step thread spurious) = some after) (count : Nat) :
    step (state.counting count) (.step thread spurious) = some (after.counting count) := by
  rw [step] at stepped ⊢
  rw [queuePush_counting, queuePop_counting, ← Option.map_or, stepped, Option.map_some]

theorem call_idle (idle : state.phase thread = .idle) (phase : Phase T) :
    call state thread phase = some { state with
      phase := Function.update state.phase thread phase, operations := state.operations + 1 } := by
  rw [call, idle]

theorem call_counting {phase : Phase T} (called : call state thread phase = some after) (count : Nat) :
    call (state.counting count) thread phase = some (after.counting (count + 1)) ∧
      after.operations = state.operations + 1 := by
  have same : (state.counting count).phase thread = state.phase thread := rfl
  unfold call at called ⊢
  rw [same]
  cases at_ : state.phase thread with
  | idle =>
      simp only [at_, Option.some.injEq] at called
      subst after
      exact ⟨rfl, rfl⟩
  | _ => simp only [at_, reduceCtorEq] at called

theorem step_counting (stepped : step state action = some after) (count : Nat) :
    ∃ more, step (state.counting count) action = some (after.counting more) ∧
      more + state.operations = count + after.operations := by
  cases action with
  | push thread val =>
      obtain ⟨called, counted⟩ := call_counting stepped count
      exact ⟨_, called, by omega⟩
  | pop thread =>
      obtain ⟨called, counted⟩ := call_counting stepped count
      exact ⟨_, called, by omega⟩
  | step thread spurious => exact ⟨_, inside_counting stepped count, by rw [inside_operations stepped]⟩

namespace Sound

theorem load_le (sound : Sound state) : state.load ≤ state.operations := sound.operations

theorem counting (sound : Sound state) (enough : state.load ≤ count) : Sound (state.counting count) :=
  { sound with operations := enough }

/-- However many operations failed, a small queue stays sound. -/
theorem step (sound : Sound state) (few : state.load < 2 ^ 63) (stepped : step state action = some after) :
    Sound after := by
  obtain ⟨more, recounted, same⟩ := step_counting stepped state.load
  have kept : Sound (after.counting more) := step_sound (sound.counting (Nat.le_refl _)) few recounted
  have loaded : after.load ≤ more := kept.load_le
  have before := sound.load_le
  have again : Sound ((after.counting more).counting after.operations) :=
    kept.counting (by rw [State.counting_load]; omega)
  exact again

end Sound

namespace Returns

theorem counting (returns : Returns thread response state after) (count : Nat) :
    Returns thread response (state.counting count) (after.counting count) := by
  induction returns with
  | last stepped moved answers => exact .last (inside_counting stepped count) moved answers
  | more stepped moved silent later ih => exact .more (inside_counting stepped count) moved silent ih

/-- What returns from a state with few operations returns from the same state with more. -/
theorem uncounted (counted : Returns thread response (state.counting count) after) :
    ∃ after, Returns thread response state after :=
  ⟨_, counted.counting state.operations⟩

end Returns

namespace Sound

/-- A call that is alone returns, however many operations failed before it. -/
theorem returns (sound : Sound state) (few : state.load < 2 ^ 63) (busy : (state.phase thread).stage ≠ .idle) :
    ∃ response after, Returns thread response state after := by
  obtain ⟨response, after, returns⟩ := Returns.always (sound.counting (Nat.le_refl _)) few busy
  exact ⟨response, returns.uncounted⟩

theorem returns_pushed (sound : Sound state) (few : state.load < 2 ^ 63)
    (quiet : ∀ thread, (state.phase thread).slot = none) (room : state.queue.tail < state.queue.head + CAPACITY)
    (called : state.phase thread = .pushCalled val) : ∃ after, Returns thread (.pushed true) state after := by
  obtain ⟨after, returns⟩ := (sound.counting (Nat.le_refl _)).quiet_push few quiet called
  have done : Returns thread (.pushed true) (state.counting state.load) after := decide_eq_true room ▸ returns
  exact done.uncounted

theorem returns_popped (sound : Sound state) (few : state.load < 2 ^ 63)
    (quiet : ∀ thread, (state.phase thread).slot = none) (filled : state.queue.head < state.queue.tail)
    (called : state.phase thread = .popCalled) : ∃ val after, Returns thread (.popped (some val)) state after := by
  obtain ⟨val, after, returns, found⟩ := (sound.counting (Nat.le_refl _)).quiet_pop few quiet called
  obtain ⟨val, rfl⟩ := Option.isSome_iff_exists.mp (found.mpr filled)
  exact ⟨val, returns.uncounted⟩

end Sound

end Counting

/-- No push is refused on the first lap. -/
theorem Looked.accepted {phase : Phase T} (looked : Looked state) (sound : Sound state) (few : state.load < 2 ^ 63)
    (first : state.queue.tail < CAPACITY) (stepped : MpmcQueue.step state (.step thread spurious) = some after)
    (moved : after.phase = Function.update state.phase thread phase) :
    (state.phase thread).response phase ≠ some (.pushed false) := by
  intro refused
  cases at_ : state.phase thread with
  | pushDeciding val pos seq =>
      have known := sound.threads thread
      rw [at_] at known
      obtain ⟨low, seen⟩ := known
      have below := looked thread val pos seq at_
      have small := (sound.counting (Nat.le_refl _)).sequence_lt few pos
      have idle : phase = .idle := by
        rw [at_] at refused
        cases phase <;> simp_all [Phase.response]
      simp only [State.counting] at small
      simp only [CAPACITY] at first below
      obtain pushed | ⟨_, popped⟩ := Option.or_eq_some_iff.mp stepped
      · simp only [queuePush, at_, intptr_of_lt (show seq < 2 ^ 63 by omega), intptr_of_lt (show pos < 2 ^ 63 by omega)]
          at pushed
        rw [idle] at moved
        have here := congrFun moved thread
        split at pushed
        next =>
          split at pushed <;> cases pushed <;> simp at here
        next =>
          rw [if_neg (by omega)] at pushed
          cases pushed
          simp at here
      · simp only [queuePop, at_, reduceCtorEq] at popped
  | _ =>
      rw [at_] at refused
      cases phase <;> simp_all [Phase.response]

/-! ### Programs -/

section Programs

variable {σ ι : Type} {resume : σ → Fin threads → Response T → σ} {rest : σ} {response : Response T}

/-- A step inside a call, and what the program makes of the response if there is one. -/
def stepInside (resume : σ → Fin threads → Response T → σ) (program : State T threads × σ) (thread : Fin threads)
    (spurious : Bool) : Option (State T threads × σ) :=
  (step program.1 (.step thread spurious)).map fun after =>
    (after, ((program.1.phase thread).response (after.phase thread)).elim program.2 (resume program.2 thread))

/-- A thread goes on alone in a program. -/
theorem Returns.inside {advance : State T threads × σ → ι → Option (State T threads × σ)} {input : ι}
    (goes : ∀ state, state.phase thread ≠ .idle →
      advance (state, rest) input = stepInside resume (state, rest) thread false)
    (returns : Returns thread response state after) :
    ∃ inputs, run advance (state, rest) inputs = some (after, resume rest thread response) := by
  induction returns with
  | last stepped moved answers =>
      refine ⟨[input], run_cons_iff.mpr ⟨_, ?_, rfl⟩⟩
      rw [goes _ (busy_of_step stepped), stepInside, stepped, Option.map_some, moved, Function.update_self, answers]
      rfl
  | more stepped moved silent later ih =>
      obtain ⟨inputs, completed⟩ := ih
      refine ⟨input :: inputs, run_cons_iff.mpr ⟨_, ?_, completed⟩⟩
      rw [goes _ (busy_of_step stepped), stepInside, stepped, Option.map_some, moved, Function.update_self, silent]
      rfl

/-- A program passes on what it is told by a call that returns. -/
theorem stepInside_response {program next : State T threads × σ}
    (stepped : stepInside resume program thread spurious = some next) :
    step program.1 (.step thread spurious) = some next.1 ∧
      next.2 = ((program.1.phase thread).response (next.1.phase thread)).elim program.2 (resume program.2 thread) := by
  obtain ⟨after, inside, rfl⟩ := Option.map_eq_some_iff.mp stepped
  exact ⟨inside, rfl⟩

/-- What a step inside a call does to a program. -/
theorem stepInside_progress {program next : State T threads × σ}
    (stepped : stepInside resume program thread spurious = some next) :
    ∃ phase response, next.1.phase = Function.update program.1.phase thread phase ∧
      Progress program.1 thread (program.1.phase thread) phase next.1 response ∧
      next.2 = response.elim program.2 (resume program.2 thread) := by
  obtain ⟨after, inside, rfl⟩ := Option.map_eq_some_iff.mp stepped
  obtain ⟨phase, moved, progress⟩ := step_progress inside
  exact ⟨phase, _, moved, progress, by rw [moved, Function.update_self]⟩

end Programs

/-! ### The calls of a thread alone -/

theorem slot_of_others (idle : ∀ other ≠ thread, state.phase other = .idle) (free : (state.phase thread).slot = none)
    (each : Fin threads) : (state.phase each).slot = none := by
  by_cases here : each = thread
  · rw [here, free]
  · rw [idle each here]
    rfl

/-- In every state that fewer than `2 ^ 63` operations lead to, a call returns when its thread goes on alone, whatever
the others have begun.  When they have begun nothing, a push fails on a full queue only, and a pop on an empty one
only. -/
theorem queue_obstruction_free (data : Nat → T) (actions : List (Action T threads)) (state : State T threads)
    (completed : run step (State.initial threads data) actions = some state) (few : state.operations < 2 ^ 63)
    (thread : Fin threads) :
    (state.phase thread ≠ .idle → ∃ response after, Returns thread response state after) ∧
      ((∀ other ≠ thread, state.phase other = .idle) →
        (∀ val, state.phase thread = .pushCalled val → ∃ after,
          Returns thread (.pushed (decide (state.queue.tail < state.queue.head + CAPACITY))) state after) ∧
        (state.phase thread = .popCalled → ∃ val after, Returns thread (.popped val) state after ∧
          (val.isSome ↔ state.queue.head < state.queue.tail))) := by
  have sound := run_sound completed few
  refine ⟨fun busy => Returns.always sound few (by simpa using busy), fun alone =>
    ⟨fun val called => ?_, fun called => ?_⟩⟩
  · exact sound.quiet_push few (slot_of_others alone (by rw [called]; rfl)) called
  · exact sound.quiet_pop few (slot_of_others alone (by rw [called]; rfl)) called

/-- A pop while a push holds the only slot, and the push. -/
theorem queue_obstruction_free_two_threads :
    ∃ state, run step (State.initial 2 fun _ => 0)
        [.push 0 7, .step 0 false, .step 0 false, .step 0 false, .pop 1] = some state ∧
      (∃ response after, Returns 1 response state after) ∧ ∃ response after, Returns 0 response state after := by
  obtain ⟨state, completed, few, first, second⟩ : ∃ state, run step (State.initial 2 fun _ => 0)
      [.push 0 7, .step 0 false, .step 0 false, .step 0 false, .pop 1] = some state ∧ state.operations < 2 ^ 63 ∧
      state.phase 0 ≠ .idle ∧ state.phase 1 ≠ .idle := ⟨_, rfl, by decide, nofun, nofun⟩
  exact ⟨state, completed, (queue_obstruction_free _ _ state completed few 1).1 second,
    (queue_obstruction_free _ _ state completed few 0).1 first⟩

end HundredDays.MpmcQueue
