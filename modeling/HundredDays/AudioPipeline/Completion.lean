import HundredDays.AudioPipeline.Lossless

namespace HundredDays.AudioPipeline

open HundredDays.Data HundredDays.Semantics

/-! The pipeline moves until all stages have returned, and only spurious wakeups can make a run longer. -/

variable {Sample : Type} {arithmetic : Arithmetic Sample} {frame : Frame Sample} {position next : Position Sample}

/-- What a stage has to do apart from its pushes and pops. -/
def Position.effort : Position Sample → Nat
  | pop | push _ => 1
  | waitPop | waitPush _ => 0
  | popped _ | pushed _ => 3
  | returned => 0

@[simp] theorem effort_pop : (Position.pop : Position Sample).effort = 1 := rfl

@[simp] theorem effort_push : (Position.push frame).effort = 1 := rfl

@[simp] theorem effort_waitPop : (Position.waitPop : Position Sample).effort = 0 := rfl

@[simp] theorem effort_waitPush : (Position.waitPush frame).effort = 0 := rfl

@[simp] theorem effort_popped : (Position.popped frame).effort = 3 := rfl

@[simp] theorem effort_pushed : (Position.pushed frame).effort = 3 := rfl

@[simp] theorem effort_returned : (Position.returned : Position Sample).effort = 0 := rfl

theorem notEmpty_effort : position.notEmpty.effort ≤ position.effort + 1 := by
  cases position <;> simp [Position.notEmpty, Position.effort]

theorem notFull_effort : position.notFull.effort ≤ position.effort + 1 := by
  cases position <;> simp [Position.notFull, Position.effort]

theorem woken_effort (woken : position.woken = some next) : next.effort = position.effort + 1 := by
  cases position <;> cases woken <;> rfl

namespace Pipeline

variable {pipeline after : Pipeline Sample} {language : Language} {stage : Stage}

/-- Ten for each push and pop that is to come. -/
def effort (pipeline : Pipeline Sample) : Nat :=
  40 * (pipeline.stage1.left pipeline.arithmetic pipeline.total_frames).length + 30 * pipeline.q1.count +
    20 * (pipeline.stage2.hand pipeline.arithmetic).length + 10 * pipeline.q2.count +
    pipeline.stage1.position.effort + pipeline.stage2.effort + pipeline.stage3.effort

theorem signal_effort (stepped : pipeline.signal stage = some after) : after.effort < pipeline.effort := by
  cases stage with
  | producer =>
      simp only [signal] at stepped
      split at stepped <;> cases stepped
      next frame position =>
        have woken : pipeline.stage2.notEmpty.effort ≤ pipeline.stage2.effort + 1 := notEmpty_effort
        have less : (pipeline.stage1.proceed pipeline.arithmetic pipeline.total_frames frame).position.effort ≤ 1 := by
          rcases proceed_position with ends | ⟨next, goes⟩
          · rw [ends]
            exact Nat.zero_le 1
          · rw [goes]
            exact Nat.le_refl 1
        simp only [effort, proceed_left position, Position.notEmpty_hand, position, effort_pushed]
        omega
  | filter =>
      simp only [signal] at stepped
      split at stepped <;> cases stepped
      next frame position =>
        have woken : pipeline.stage1.position.notFull.effort ≤ pipeline.stage1.position.effort + 1 := notFull_effort
        have same : ({ pipeline.stage1 with position := pipeline.stage1.position.notFull } : Producer Sample).left
            pipeline.arithmetic pipeline.total_frames =
              pipeline.stage1.left pipeline.arithmetic pipeline.total_frames := by
          unfold Producer.left
          cases pipeline.stage1.position <;> rfl
        simp only [effort, same, position, Position.hand, effort_popped, effort_push, List.length_singleton]
        omega
      next frame position =>
        have woken : pipeline.stage3.notEmpty.effort ≤ pipeline.stage3.effort + 1 := notEmpty_effort
        cases last : frame.is_last with
        | true =>
            simp only [effort, position, Position.hand, effort_pushed, effort_returned, if_true]
            omega
        | false =>
            simp only [effort, position, Position.hand, effort_pushed, effort_pop, Bool.false_eq_true, if_false]
            omega
  | consumer =>
      simp only [signal] at stepped
      split at stepped <;> cases stepped
      next frame position =>
        have woken : pipeline.stage2.notFull.effort ≤ pipeline.stage2.effort + 1 := notFull_effort
        cases last : frame.is_last with
        | true =>
            simp only [effort, position, Position.notFull_hand, effort_popped, effort_returned, if_true]
            omega
        | false =>
            simp only [effort, position, Position.notFull_hand, effort_popped, effort_pop, Bool.false_eq_true, if_false]
            omega

theorem critical_effort (flow : Flow pipeline) (stepped : pipeline.critical language stage = some after) :
    after.effort < pipeline.effort := by
  cases stage with
  | producer =>
      simp only [critical] at stepped
      split at stepped
      next frame position =>
        split at stepped <;> cases stepped
        next q1 done =>
          obtain ⟨room, rfl⟩ := queuePush_some flow.ring1.bounded done
          simp only [effort, Producer.left, position, effort_push, effort_pushed, RingBuffer.enqueue, List.length_cons]
          omega
        next waits =>
          simp only [effort, Producer.left, position, effort_push, effort_waitPush]
          omega
      next => cases stepped
  | filter =>
      simp only [critical] at stepped
      split at stepped
      next position =>
        split at stepped <;> cases stepped
        next frame q1 done =>
          obtain ⟨filled, rfl, rfl⟩ := queuePop_some done
          simp only [effort, position, effort_pop, effort_popped, RingBuffer.dequeue, Position.hand, List.length_singleton,
            List.length_nil]
          omega
        next waits =>
          simp only [effort, position, effort_pop, effort_waitPop, Position.hand]
          omega
      next frame position =>
        split at stepped <;> cases stepped
        next q2 done =>
          obtain ⟨room, rfl⟩ := queuePush_some flow.ring2.bounded done
          simp only [effort, position, effort_push, effort_pushed, RingBuffer.enqueue, Position.hand, List.length_singleton,
            List.length_nil]
          omega
        next waits =>
          simp only [effort, position, effort_push, effort_waitPush, Position.hand]
          omega
      next => cases stepped
  | consumer =>
      simp only [critical] at stepped
      split at stepped
      next position =>
        split at stepped <;> cases stepped
        next frame q2 done =>
          obtain ⟨filled, rfl, rfl⟩ := queuePop_some done
          simp only [effort, position, effort_pop, effort_popped, RingBuffer.dequeue]
          omega
        next waits =>
          simp only [effort, position, effort_pop, effort_waitPop]
          omega
      next => cases stepped

theorem go_effort (flow : Flow pipeline) (stepped : pipeline.go language stage = some after) :
    after.effort < pipeline.effort := by
  simp only [go] at stepped
  split at stepped
  next next signalled =>
    cases stepped
    exact signal_effort signalled
  next =>
    obtain ⟨middle, entered, rfl⟩ := Option.map_eq_some_iff.mp stepped
    have less := critical_effort flow entered
    cases language with
    | cpp => exact less
    | c =>
        show ((middle.signal stage).getD middle).effort < pipeline.effort
        cases signalled : middle.signal stage with
        | none => exact less
        | some last => exact Nat.lt_trans (signal_effort signalled) less

theorem wake_effort (flow : Flow pipeline) (stepped : pipeline.wake stage = some after) :
    after.effort = pipeline.effort + 1 := by
  cases stage with
  | producer =>
      obtain ⟨next, woken, rfl⟩ := Option.map_eq_some_iff.mp stepped
      have more := woken_effort woken
      have pushes := flow.pushes
      have same : ({ pipeline.stage1 with position := next } : Producer Sample).left pipeline.arithmetic
          pipeline.total_frames = pipeline.stage1.left pipeline.arithmetic pipeline.total_frames := by
        unfold Producer.left
        cases before : pipeline.stage1.position <;> rw [before] at woken <;> cases woken <;> rfl
      simp only [effort, same]
      omega
  | filter =>
      obtain ⟨next, woken, rfl⟩ := Option.map_eq_some_iff.mp stepped
      have more := woken_effort woken
      have same : next.hand pipeline.arithmetic = pipeline.stage2.hand pipeline.arithmetic := by
        cases before : pipeline.stage2 <;> rw [before] at woken <;> cases woken <;> rfl
      simp only [effort, same]
      omega
  | consumer =>
      obtain ⟨next, woken, rfl⟩ := Option.map_eq_some_iff.mp stepped
      have more := woken_effort woken
      simp only [effort]
      omega

def Action.spurious : Action → Bool
  | .wake _ => true
  | .go _ => false

theorem run_effort {actions : List Action} (flow : Flow pipeline)
    (reached : run (step language) pipeline actions = some after) :
    actions.length + after.effort ≤ pipeline.effort + 2 * actions.countP Action.spurious := by
  induction actions generalizing pipeline with
  | nil =>
      cases reached
      simp
  | cons action rest ih =>
      obtain ⟨next, stepped, remaining⟩ := run_cons_iff.mp reached
      have shorter := ih (flow.step stepped) remaining
      cases action with
      | go stage =>
          have less := go_effort flow stepped
          rw [List.length_cons, List.countP_cons_of_neg Bool.false_ne_true]
          omega
      | wake stage =>
          have more := wake_effort flow stepped
          rw [List.length_cons, List.countP_cons_of_pos rfl]
          omega

theorem initial_effort (capacity total_frames : Nat) (buffer1 buffer2 : Nat → Frame Sample) :
    (initial arithmetic capacity total_frames buffer1 buffer2).effort = 40 * (total_frames + 1) + 3 := by
  have whole : (Producer.begin arithmetic total_frames 0 arithmetic.zero).left arithmetic total_frames =
      arithmetic.stream total_frames arithmetic.zero := begin_left
  obtain ⟨frame, pushes⟩ : ∃ frame,
      (Producer.begin arithmetic total_frames 0 arithmetic.zero).position = .push frame := begin_position
  simp only [effort, initial, whole, pushes, effort_push, effort_pop, Position.hand, RingBuffer.empty, Arithmetic.stream,
    List.length_append, frames_length, List.length_singleton, List.length_nil]

/-- All stages have returned. -/
def Finished (pipeline : Pipeline Sample) : Prop :=
  pipeline.stage1.position = .returned ∧ pipeline.stage2 = .returned ∧ pipeline.stage3 = .returned

theorem go_of_signal (language : Language) (signals : pipeline.signal stage = some after) :
    ∃ after, pipeline.go language stage = some after :=
  ⟨after, by simp only [go, signals]⟩

theorem go_of_critical (enters : pipeline.critical language stage = some after) :
    ∃ after, pipeline.go language stage = some after := by
  unfold go
  cases pipeline.signal stage with
  | some signalled => exact ⟨signalled, rfl⟩
  | none => exact ⟨_, by rw [enters]; rfl⟩

/-- Unless all stages have returned, one of them has a step to take. -/
theorem progress (flow : Flow pipeline) (unfinished : ¬ Finished pipeline) :
    ∃ stage after, pipeline.go language stage = some after := by
  by_contra stuck
  have halts : ∀ stage after, pipeline.go language stage ≠ some after := by
    intro stage after goes
    exact stuck ⟨stage, after, goes⟩
  have quiet : ∀ stage after, pipeline.signal stage ≠ some after := by
    intro stage after signals
    obtain ⟨_, goes⟩ := go_of_signal language signals
    exact halts _ _ goes
  have outside : ∀ stage after, pipeline.critical language stage ≠ some after := by
    intro stage after enters
    obtain ⟨_, goes⟩ := go_of_critical enters
    exact halts _ _ goes
  apply unfinished
  have pushes := flow.pushes
  have pops := flow.pops
  refine flow.not_blocked ?_ ?_ ?_
  · have quiet1 := quiet .producer
    have outside1 := outside .producer
    simp only [signal] at quiet1
    simp only [critical] at outside1
    cases position : pipeline.stage1.position with
    | returned => exact .inl rfl
    | waitPush frame => exact .inr ⟨frame, rfl⟩
    | pushed frame =>
        simp only [position] at quiet1
        exact absurd rfl (quiet1 _)
    | push frame =>
        simp only [position] at outside1
        split at outside1
        · exact absurd rfl (outside1 _)
        · exact absurd rfl (outside1 _)
    | _ =>
        rw [position] at pushes
        exact pushes.elim
  · have quiet2 := quiet .filter
    have outside2 := outside .filter
    simp only [signal] at quiet2
    simp only [critical] at outside2
    cases position : pipeline.stage2 with
    | returned => exact .inl rfl
    | waitPop => exact .inr (.inl rfl)
    | waitPush frame => exact .inr (.inr ⟨frame, rfl⟩)
    | popped frame =>
        simp only [position] at quiet2
        exact absurd rfl (quiet2 _)
    | pushed frame =>
        simp only [position] at quiet2
        exact absurd rfl (quiet2 _)
    | pop =>
        simp only [position] at outside2
        split at outside2
        · exact absurd rfl (outside2 _)
        · exact absurd rfl (outside2 _)
    | push frame =>
        simp only [position] at outside2
        split at outside2
        · exact absurd rfl (outside2 _)
        · exact absurd rfl (outside2 _)
  · have quiet3 := quiet .consumer
    have outside3 := outside .consumer
    simp only [signal] at quiet3
    simp only [critical] at outside3
    cases position : pipeline.stage3 with
    | returned => exact .inl rfl
    | waitPop => exact .inr rfl
    | popped frame =>
        simp only [position] at quiet3
        exact absurd rfl (quiet3 _)
    | pop =>
        simp only [position] at outside3
        split at outside3
        · exact absurd rfl (outside3 _)
        · exact absurd rfl (outside3 _)
    | _ =>
        rw [position] at pops
        exact pops.elim

/-- The rings are sound, and the consumer receives the output from its start on. -/
structure Lossless (pipeline : Pipeline Sample) : Prop where
  ring1 : pipeline.q1.count ≤ pipeline.capacity ∧
    pipeline.q1.tail = (pipeline.q1.head + pipeline.q1.count) % pipeline.capacity
  ring2 : pipeline.q2.count ≤ pipeline.capacity ∧
    pipeline.q2.tail = (pipeline.q2.head + pipeline.q2.count) % pipeline.capacity
  received : pipeline.popped2 <+: pipeline.output
  whole : pipeline.stage3 = .returned → pipeline.popped2 = pipeline.output ∧ pipeline.count = pipeline.total_frames

theorem Flow.lossless (flow : Flow pipeline) : Lossless pipeline :=
  ⟨⟨flow.ring1.bounded, flow.ring1.tail⟩, ⟨flow.ring2.bounded, flow.ring2.tail⟩, flow.received,
    fun returned => ⟨(flow.closed2 (by rw [returned]; rfl)).1, flow.counted_all returned⟩⟩

/-- In either language and whatever the order of the steps, the consumer receives every frame, amplified
and in order, and then the last one; and apart from spurious wakeups a run comes to its end. -/
theorem pipeline_lossless {capacity : Nat} (language : Language) (arithmetic : Arithmetic Sample)
    (room : 0 < capacity) (total_frames : Nat) (buffer1 buffer2 : Nat → Frame Sample) {actions : List Action}
    (reached : run (step language) (initial arithmetic capacity total_frames buffer1 buffer2) actions = some pipeline) :
    Lossless pipeline ∧ (¬ Finished pipeline → ∃ stage after, pipeline.go language stage = some after) ∧
      actions.length ≤ 40 * (total_frames + 1) + 3 + 2 * actions.countP Action.spurious := by
  have start := initial_flow arithmetic room total_frames buffer1 buffer2
  have flow : Flow pipeline := run_invariant Flow (fun _ _ _ flow stepped => flow.step stepped) start reached
  have bound := run_effort start reached
  rw [initial_effort] at bound
  exact ⟨flow.lossless, progress flow, Nat.le_trans (Nat.le_add_right _ _) bound⟩

set_option maxRecDepth 4000 in
/-- The filter is there first, and waits for the only frame. -/
theorem pipeline_lossless_one_frame :
    ∃ pipeline, run (step .cpp) (initial { zero := 0, sinf := id, advance := (· + 1), amplify := (2 * ·) } 1 1
        (fun _ => { data := [], is_last := false }) (fun _ => { data := [], is_last := false }))
      [.go .filter, .go .producer, .go .producer, .go .filter] = some pipeline ∧
      Lossless (pipeline : Pipeline Nat) := by
  have reached : run (step .cpp) (initial { zero := 0, sinf := id, advance := (· + 1), amplify := (2 * ·) } 1 1
      (fun _ => { data := [], is_last := false }) (fun _ => { data := [], is_last := false }))
      [.go .filter, .go .producer, .go .producer, .go .filter] = some (_ : Pipeline Nat) := rfl
  exact ⟨_, reached, (pipeline_lossless .cpp _ (by decide) 1 _ _ reached).1⟩

end Pipeline

end HundredDays.AudioPipeline
