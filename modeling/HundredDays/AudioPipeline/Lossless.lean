import HundredDays.AudioPipeline.Model
import HundredDays.Semantics.Run

namespace HundredDays.AudioPipeline

open HundredDays.Data HundredDays.Semantics

/-! Every frame goes through both queues, in order, and no stage waits for nothing. -/

variable {Sample : Type} {arithmetic : Arithmetic Sample} {frame : Frame Sample} {position : Position Sample}

/-- The frames of so many rounds of the producer's loop. -/
def Arithmetic.frames (arithmetic : Arithmetic Sample) : Nat → Sample → List (Frame Sample)
  | 0, _ => []
  | rounds + 1, phase =>
      { data := (arithmetic.fill FRAME_SIZE phase).1, is_last := false } ::
        frames arithmetic rounds (arithmetic.fill FRAME_SIZE phase).2

/-- The frames with the one that closes them. -/
def Arithmetic.stream (arithmetic : Arithmetic Sample) (rounds : Nat) (phase : Sample) : List (Frame Sample) :=
  arithmetic.frames rounds phase ++ [arithmetic.poison_pill]

theorem frames_not_last {rounds : Nat} {phase : Sample} :
    ∀ frame ∈ arithmetic.frames rounds phase, ¬ frame.is_last = true := by
  induction rounds generalizing phase with
  | zero => simp [Arithmetic.frames]
  | succ rounds ih =>
      intro frame inside
      rcases List.mem_cons.mp inside with rfl | later
      · exact Bool.false_ne_true
      · exact ih frame later

theorem frames_length {rounds : Nat} {phase : Sample} : (arithmetic.frames rounds phase).length = rounds := by
  induction rounds generalizing phase with
  | zero => rfl
  | succ rounds ih => rw [Arithmetic.frames, List.length_cons, ih]

@[simp] theorem filter_is_last : (arithmetic.filter frame).is_last = frame.is_last := by
  unfold Arithmetic.filter
  split <;> rfl

namespace Position

/-- What the filter is yet to pass on. -/
def hand (arithmetic : Arithmetic Sample) : Position Sample → List (Frame Sample)
  | popped frame => [arithmetic.filter frame]
  | push frame | waitPush frame => [frame]
  | _ => []

/-- Whether the stage has popped the last frame. -/
def ended : Position Sample → Bool
  | pop | waitPop => false
  | popped frame | push frame | waitPush frame | pushed frame => frame.is_last
  | returned => true

/-- The frame that the consumer has popped but not counted. -/
def uncounted : Position Sample → Nat
  | popped frame => if frame.is_last then 0 else 1
  | _ => 0

/-- A position in a stage that only pushes. -/
def pushing : Position Sample → Prop
  | push _ | waitPush _ | pushed _ | returned => True
  | _ => False

/-- A position in a stage that only pops. -/
def popping : Position Sample → Prop
  | pop | waitPop | popped _ | returned => True
  | _ => False

@[simp] theorem notEmpty_hand : position.notEmpty.hand arithmetic = position.hand arithmetic := by
  cases position <;> rfl

@[simp] theorem notFull_hand : position.notFull.hand arithmetic = position.hand arithmetic := by
  cases position <;> rfl

@[simp] theorem notEmpty_ended : position.notEmpty.ended = position.ended := by
  cases position <;> rfl

@[simp] theorem notFull_ended : position.notFull.ended = position.ended := by
  cases position <;> rfl

@[simp] theorem notEmpty_uncounted : position.notEmpty.uncounted = position.uncounted := by
  cases position <;> rfl

theorem notEmpty_ne : position.notEmpty ≠ waitPop := by
  cases position <;> simp [notEmpty]

theorem notFull_ne : position.notFull ≠ waitPush frame := by
  cases position <;> simp [notFull]

@[simp] theorem notEmpty_eq_pushed : position.notEmpty = pushed frame ↔ position = pushed frame := by
  cases position <;> simp [notEmpty]

@[simp] theorem notFull_eq_popped : position.notFull = popped frame ↔ position = popped frame := by
  cases position <;> simp [notFull]

@[simp] theorem notEmpty_eq_waitPush : position.notEmpty = waitPush frame ↔ position = waitPush frame := by
  cases position <;> simp [notEmpty]

@[simp] theorem notFull_eq_pushed : position.notFull = pushed frame ↔ position = pushed frame := by
  cases position <;> simp [notFull]

@[simp] theorem notFull_eq_waitPop : position.notFull = waitPop ↔ position = waitPop := by
  cases position <;> simp [notFull]

theorem notFull_pushing (pushes : position.pushing) : position.notFull.pushing := by
  cases position <;> trivial

theorem notEmpty_popping (pops : position.popping) : position.notEmpty.popping := by
  cases position <;> trivial

end Position

/-- What the producer is yet to push. -/
def Producer.left (arithmetic : Arithmetic Sample) (total_frames : Nat) (producer : Producer Sample) :
    List (Frame Sample) :=
  let later (frame : Frame Sample) :=
    if frame.is_last then [] else arithmetic.stream (total_frames - (producer.index + 1)) producer.phase
  match producer.position with
  | .push frame | .waitPush frame => frame :: later frame
  | .pushed frame => later frame
  | _ => []

section Producers

variable {total_frames index : Nat} {phase : Sample} {producer : Producer Sample}

theorem begin_left :
    (Producer.begin arithmetic total_frames index phase).left arithmetic total_frames =
      arithmetic.stream (total_frames - index) phase := by
  unfold Producer.begin
  by_cases more : index < total_frames
  · have rounds : total_frames - index = total_frames - (index + 1) + 1 := by omega
    rw [if_pos more, rounds]
    simp only [Producer.left, Bool.false_eq_true, if_false, Arithmetic.stream, Arithmetic.frames, List.cons_append]
  · have none : total_frames - index = 0 := by omega
    rw [if_neg more, none]
    rfl

theorem begin_position :
    ∃ frame, (Producer.begin arithmetic total_frames index phase).position = .push frame := by
  unfold Producer.begin
  split
  · exact ⟨_, rfl⟩
  · exact ⟨_, rfl⟩

theorem proceed_left (done : producer.position = .pushed frame) :
    (producer.proceed arithmetic total_frames frame).left arithmetic total_frames =
      producer.left arithmetic total_frames := by
  unfold Producer.proceed
  by_cases last : frame.is_last
  · simp [Producer.left, done, last]
  · rw [if_neg last, begin_left]
    simp [Producer.left, done, last]

theorem proceed_position :
    (producer.proceed arithmetic total_frames frame).position = .returned ∨
      ∃ next, (producer.proceed arithmetic total_frames frame).position = .push next := by
  unfold Producer.proceed
  split
  · exact .inl rfl
  · exact .inr begin_position

end Producers

namespace Pipeline

variable {pipeline after : Pipeline Sample} {language : Language} {stage : Stage} {q other : RingBuffer (Frame Sample)}

theorem queuePush_some (bounded : q.count ≤ pipeline.capacity)
    (done : pipeline.queuePush language q frame = some other) :
    q.count < pipeline.capacity ∧ other = q.enqueue pipeline.capacity frame := by
  unfold queuePush at done
  split at done <;> cases done
  next room =>
    refine ⟨?_, rfl⟩
    cases language with
    | c => exact Nat.lt_of_le_of_ne bounded (by simpa [Language.full] using room)
    | cpp => simpa [Language.full] using room

theorem queuePush_none (bounded : q.count ≤ pipeline.capacity) (waits : pipeline.queuePush language q frame = none) :
    q.count = pipeline.capacity := by
  unfold queuePush at waits
  split at waits <;> cases waits
  next full =>
    cases language with
    | c => simpa [Language.full] using full
    | cpp => exact Nat.le_antisymm bounded (by simpa [Language.full] using full)

theorem queuePop_some (done : pipeline.queuePop language q = some (frame, other)) :
    0 < q.count ∧ frame = q.buffer q.head ∧ other = q.dequeue pipeline.capacity := by
  unfold queuePop at done
  split at done <;> cases done
  next filled =>
    refine ⟨?_, rfl, rfl⟩
    cases language with
    | c => exact Nat.pos_of_ne_zero (by simpa [Language.drained] using filled)
    | cpp => exact Nat.pos_of_ne_zero (by simpa [Language.drained] using filled)

theorem queuePop_none (waits : pipeline.queuePop language q = none) : q.count = 0 := by
  unfold queuePop at waits
  split at waits <;> cases waits
  next drained =>
    cases language with
    | c => simpa [Language.drained] using drained
    | cpp => simpa [Language.drained] using drained

/-- Where the frames are, and why a stage waits. -/
structure Flow (pipeline : Pipeline Sample) : Prop where
  room : 0 < pipeline.capacity
  ring1 : pipeline.q1.WellFormed pipeline.capacity
  ring2 : pipeline.q2.WellFormed pipeline.capacity
  first : pipeline.popped1 ++ pipeline.q1.contents pipeline.capacity ++
      pipeline.stage1.left pipeline.arithmetic pipeline.total_frames =
    pipeline.arithmetic.stream pipeline.total_frames pipeline.arithmetic.zero
  second : pipeline.popped2 ++ pipeline.q2.contents pipeline.capacity ++ pipeline.stage2.hand pipeline.arithmetic =
    pipeline.popped1.map pipeline.arithmetic.filter
  pushes : pipeline.stage1.position.pushing
  pops : pipeline.stage3.popping
  ended2 : pipeline.popped1.any Frame.is_last = pipeline.stage2.ended
  ended3 : pipeline.popped2.any Frame.is_last = pipeline.stage3.ended
  counted : pipeline.count + pipeline.stage3.uncounted = pipeline.popped2.countP fun frame => !frame.is_last
  /-- The last push before a wait has yet to signal, or the last pop. -/
  empty1 : pipeline.stage2 = .waitPop → pipeline.q1.count = 0 ∨ ∃ frame, pipeline.stage1.position = .pushed frame
  empty2 : pipeline.stage3 = .waitPop → pipeline.q2.count = 0 ∨ ∃ frame, pipeline.stage2 = .pushed frame
  full1 : ∀ frame, pipeline.stage1.position = .waitPush frame →
    pipeline.q1.count = pipeline.capacity ∨ ∃ frame, pipeline.stage2 = .popped frame
  full2 : ∀ frame, pipeline.stage2 = .waitPush frame →
    pipeline.q2.count = pipeline.capacity ∨ ∃ frame, pipeline.stage3 = .popped frame

theorem initial_flow {capacity : Nat} (arithmetic : Arithmetic Sample) (room : 0 < capacity) (total_frames : Nat)
    (buffer1 buffer2 : Nat → Frame Sample) :
    Flow (initial arithmetic capacity total_frames buffer1 buffer2) := by
  have whole : (Producer.begin arithmetic total_frames 0 arithmetic.zero).left arithmetic total_frames =
      arithmetic.stream total_frames arithmetic.zero := begin_left
  obtain ⟨frame, pushes⟩ : ∃ frame,
      (Producer.begin arithmetic total_frames 0 arithmetic.zero).position = .push frame := begin_position
  refine ⟨room, RingBuffer.empty_wellFormed room _, RingBuffer.empty_wellFormed room _, whole, rfl, ?_, trivial, rfl,
    rfl, rfl, ?_, ?_, ?_, ?_⟩
  · rw [initial, pushes]
    trivial
  · intro waits
    cases waits
  · intro waits
    cases waits
  · intro frame waits
    rw [initial, pushes] at waits
    cases waits
  · intro frame waits
    cases waits

namespace Flow

theorem push1 (flow : Flow pipeline) (position : pipeline.stage1.position = .push frame)
    (room : pipeline.q1.count < pipeline.capacity) :
    Flow { pipeline with
      q1 := pipeline.q1.enqueue pipeline.capacity frame
      stage1 := { pipeline.stage1 with position := .pushed frame } } := by
  refine { flow with
    ring1 := flow.ring1.enqueue room frame, first := ?_, pushes := trivial
    empty1 := fun _ => .inr ⟨frame, rfl⟩, full1 := ?_ }
  · have first := flow.first
    simp only [Producer.left, position] at first
    rw [RingBuffer.enqueue_contents flow.ring1 room, ← first]
    simp only [Producer.left, List.append_assoc, List.singleton_append]
  · intro frame waits
    cases waits

theorem wait1 (flow : Flow pipeline) (position : pipeline.stage1.position = .push frame)
    (full : pipeline.q1.count = pipeline.capacity) :
    Flow { pipeline with stage1 := { pipeline.stage1 with position := .waitPush frame } } := by
  refine { flow with first := ?_, pushes := trivial, empty1 := ?_, full1 := fun _ _ => .inl full }
  · have first := flow.first
    simp only [Producer.left, position] at first
    simpa only [Producer.left] using first
  · intro waits
    rcases flow.empty1 waits with none | ⟨frame, other⟩
    · exact .inl none
    · rw [position] at other
      cases other

theorem signal1 (flow : Flow pipeline) (position : pipeline.stage1.position = .pushed frame) :
    Flow { pipeline with
      stage1 := pipeline.stage1.proceed pipeline.arithmetic pipeline.total_frames frame
      stage2 := pipeline.stage2.notEmpty } := by
  refine { flow with
    first := ?_, second := ?_, pushes := ?_, ended2 := ?_
    empty1 := fun waits => absurd waits Position.notEmpty_ne, empty2 := ?_, full1 := ?_, full2 := ?_ }
  · rw [proceed_left position]
    exact flow.first
  · rw [Position.notEmpty_hand]
    exact flow.second
  · show Position.pushing (Producer.position _)
    rcases proceed_position with ends | ⟨next, goes⟩
    · rw [ends]
      trivial
    · rw [goes]
      trivial
  · rw [Position.notEmpty_ended]
    exact flow.ended2
  · simp only [Position.notEmpty_eq_pushed]
    exact flow.empty2
  · intro next waits
    rcases proceed_position with ends | ⟨next, goes⟩
    · rw [ends] at waits
      cases waits
    · rw [goes] at waits
      cases waits
  · simp only [Position.notEmpty_eq_waitPush]
    exact flow.full2

theorem pop2 (flow : Flow pipeline) (position : pipeline.stage2 = .pop) (filled : 0 < pipeline.q1.count) :
    Flow { pipeline with
      q1 := pipeline.q1.dequeue pipeline.capacity
      stage2 := .popped (pipeline.q1.buffer pipeline.q1.head)
      popped1 := pipeline.popped1 ++ [pipeline.q1.buffer pipeline.q1.head] } := by
  refine { flow with
    ring1 := flow.ring1.dequeue filled, first := ?_, second := ?_, ended2 := ?_, empty1 := ?_, empty2 := ?_
    full1 := fun _ _ => .inr ⟨_, rfl⟩, full2 := ?_ }
  · have first := flow.first
    rw [RingBuffer.dequeue_contents flow.ring1 filled] at first
    rw [← first]
    simp only [List.append_assoc, List.cons_append, List.nil_append]
  · have second := flow.second
    rw [position] at second
    simp only [Position.hand, List.append_nil] at second
    simp only [Position.hand, List.map_append, List.map_singleton, second]
  · have ended := flow.ended2
    rw [position] at ended
    simp only [Position.ended] at ended
    simp only [Position.ended, List.any_append, ended, List.any_cons, List.any_nil, Bool.or_false, Bool.false_or]
  · intro waits
    cases waits
  · intro waits
    rcases flow.empty2 waits with none | ⟨frame, other⟩
    · exact .inl none
    · rw [position] at other
      cases other
  · intro frame waits
    cases waits

theorem wait2 (flow : Flow pipeline) (position : pipeline.stage2 = .pop) (drained : pipeline.q1.count = 0) :
    Flow { pipeline with stage2 := .waitPop } := by
  refine { flow with second := ?_, ended2 := ?_, empty1 := fun _ => .inl drained, empty2 := ?_, full1 := ?_, full2 := ?_ }
  · have second := flow.second
    rwa [position] at second
  · have ended := flow.ended2
    rwa [position] at ended
  · intro waits
    rcases flow.empty2 waits with none | ⟨frame, other⟩
    · exact .inl none
    · rw [position] at other
      cases other
  · intro frame waits
    rcases flow.full1 frame waits with full | ⟨frame, other⟩
    · exact .inl full
    · rw [position] at other
      cases other
  · intro frame waits
    cases waits

theorem signal2_popped (flow : Flow pipeline) (position : pipeline.stage2 = .popped frame) :
    Flow { pipeline with
      stage1 := { pipeline.stage1 with position := pipeline.stage1.position.notFull }
      stage2 := .push (pipeline.arithmetic.filter frame) } := by
  refine { flow with
    first := ?_, second := ?_, pushes := Position.notFull_pushing flow.pushes, ended2 := ?_, empty1 := ?_
    empty2 := ?_, full1 := fun _ waits => absurd waits Position.notFull_ne, full2 := ?_ }
  · have first := flow.first
    rw [← first]
    congr 1
    unfold Producer.left
    cases pipeline.stage1.position <;> rfl
  · have second := flow.second
    rwa [position] at second
  · have ended := flow.ended2
    rw [position] at ended
    rw [ended]
    exact filter_is_last.symm
  · intro waits
    cases waits
  · intro waits
    rcases flow.empty2 waits with none | ⟨frame, other⟩
    · exact .inl none
    · rw [position] at other
      cases other
  · intro frame waits
    cases waits

theorem push2 (flow : Flow pipeline) (position : pipeline.stage2 = .push frame)
    (room : pipeline.q2.count < pipeline.capacity) :
    Flow { pipeline with q2 := pipeline.q2.enqueue pipeline.capacity frame, stage2 := .pushed frame } := by
  refine { flow with
    ring2 := flow.ring2.enqueue room frame, second := ?_, ended2 := ?_, empty1 := ?_
    empty2 := fun _ => .inr ⟨frame, rfl⟩, full1 := ?_, full2 := ?_ }
  · have second := flow.second
    rw [position] at second
    rw [RingBuffer.enqueue_contents flow.ring2 room, ← second]
    simp only [Position.hand, List.append_assoc, List.append_nil]
  · have ended := flow.ended2
    rwa [position] at ended
  · intro waits
    cases waits
  · intro next waits
    rcases flow.full1 next waits with full | ⟨frame, other⟩
    · exact .inl full
    · rw [position] at other
      cases other
  · intro frame waits
    cases waits

theorem wait2_push (flow : Flow pipeline) (position : pipeline.stage2 = .push frame)
    (full : pipeline.q2.count = pipeline.capacity) : Flow { pipeline with stage2 := .waitPush frame } := by
  refine { flow with
    second := ?_, ended2 := ?_, empty1 := ?_, empty2 := ?_, full1 := ?_, full2 := fun _ _ => .inl full }
  · have second := flow.second
    rwa [position] at second
  · have ended := flow.ended2
    rwa [position] at ended
  · intro waits
    cases waits
  · intro waits
    rcases flow.empty2 waits with none | ⟨frame, other⟩
    · exact .inl none
    · rw [position] at other
      cases other
  · intro next waits
    rcases flow.full1 next waits with full | ⟨frame, other⟩
    · exact .inl full
    · rw [position] at other
      cases other

theorem signal2_pushed (flow : Flow pipeline) (position : pipeline.stage2 = .pushed frame) :
    Flow { pipeline with
      stage2 := if frame.is_last then .returned else .pop
      stage3 := pipeline.stage3.notEmpty } := by
  have ended := flow.ended2
  rw [position] at ended
  have second := flow.second
  rw [position] at second
  have full1 : ∀ next, pipeline.stage1.position = .waitPush next → pipeline.q1.count = pipeline.capacity := by
    intro next waits
    rcases flow.full1 next waits with full | ⟨frame, other⟩
    · exact full
    · rw [position] at other
      cases other
  cases last : frame.is_last with
  | true =>
      refine { flow with
        second := second, pops := Position.notEmpty_popping flow.pops, ended2 := ended.trans last
        ended3 := flow.ended3.trans Position.notEmpty_ended.symm, counted := ?_, empty1 := ?_
        empty2 := fun waits => absurd waits Position.notEmpty_ne
        full1 := fun next waits => .inl (full1 next waits), full2 := ?_ }
      · rw [Position.notEmpty_uncounted]
        exact flow.counted
      · intro waits
        cases waits
      · intro frame waits
        cases waits
  | false =>
      refine { flow with
        second := second, pops := Position.notEmpty_popping flow.pops, ended2 := ended.trans last
        ended3 := flow.ended3.trans Position.notEmpty_ended.symm, counted := ?_, empty1 := ?_
        empty2 := fun waits => absurd waits Position.notEmpty_ne
        full1 := fun next waits => .inl (full1 next waits), full2 := ?_ }
      · rw [Position.notEmpty_uncounted]
        exact flow.counted
      · intro waits
        cases waits
      · intro frame waits
        cases waits

theorem pop3 (flow : Flow pipeline) (position : pipeline.stage3 = .pop) (filled : 0 < pipeline.q2.count) :
    Flow { pipeline with
      q2 := pipeline.q2.dequeue pipeline.capacity
      stage3 := .popped (pipeline.q2.buffer pipeline.q2.head)
      popped2 := pipeline.popped2 ++ [pipeline.q2.buffer pipeline.q2.head] } := by
  refine { flow with
    ring2 := flow.ring2.dequeue filled, second := ?_, pops := trivial, ended3 := ?_, counted := ?_, empty2 := ?_
    full2 := fun _ _ => .inr ⟨_, rfl⟩ }
  · have second := flow.second
    rw [RingBuffer.dequeue_contents flow.ring2 filled] at second
    rw [← second]
    simp only [List.append_assoc, List.cons_append, List.nil_append]
  · have ended := flow.ended3
    rw [position] at ended
    simp only [Position.ended] at ended
    simp only [Position.ended, List.any_append, ended, List.any_cons, List.any_nil, Bool.or_false, Bool.false_or]
  · have counted := flow.counted
    rw [position] at counted
    simp only [Position.uncounted, Nat.add_zero] at counted
    rw [List.countP_append, ← counted]
    simp only [Position.uncounted, List.countP_singleton]
    cases (pipeline.q2.buffer pipeline.q2.head).is_last <;> rfl
  · intro waits
    cases waits

theorem wait3 (flow : Flow pipeline) (position : pipeline.stage3 = .pop) (drained : pipeline.q2.count = 0) :
    Flow { pipeline with stage3 := .waitPop } := by
  refine { flow with
    pops := trivial, ended3 := ?_, counted := ?_, empty2 := fun _ => .inl drained, full2 := ?_ }
  · have ended := flow.ended3
    rwa [position] at ended
  · have counted := flow.counted
    rwa [position] at counted
  · intro frame waits
    rcases flow.full2 frame waits with full | ⟨frame, other⟩
    · exact .inl full
    · rw [position] at other
      cases other

theorem signal3 (flow : Flow pipeline) (position : pipeline.stage3 = .popped frame) :
    Flow { pipeline with
      stage2 := pipeline.stage2.notFull
      stage3 := if frame.is_last then .returned else .pop
      count := if frame.is_last then pipeline.count else pipeline.count + 1 } := by
  have ended := flow.ended3
  rw [position] at ended
  have counted := flow.counted
  rw [position] at counted
  refine { flow with
    second := ?_, pops := ?_, ended2 := flow.ended2.trans Position.notFull_ended.symm, ended3 := ?_, counted := ?_
    empty1 := ?_, empty2 := ?_, full1 := ?_, full2 := fun _ waits => absurd waits Position.notFull_ne }
  · rw [Position.notFull_hand]
    exact flow.second
  · dsimp only
    split <;> trivial
  · rw [ended]
    cases last : frame.is_last with
    | true => exact last
    | false => exact last
  · rw [← counted]
    cases last : frame.is_last with
    | true => simp [Position.uncounted, last]
    | false => simp [Position.uncounted, last]
  · simp only [Position.notFull_eq_waitPop]
    exact flow.empty1
  · intro waits
    dsimp only at waits
    split at waits <;> cases waits
  · simp only [Position.notFull_eq_popped]
    exact flow.full1

theorem wake1 (flow : Flow pipeline) (position : pipeline.stage1.position = .waitPush frame) :
    Flow { pipeline with stage1 := { pipeline.stage1 with position := .push frame } } := by
  refine { flow with first := ?_, pushes := trivial, empty1 := ?_, full1 := ?_ }
  · have first := flow.first
    simp only [Producer.left, position] at first
    simpa only [Producer.left] using first
  · intro waits
    rcases flow.empty1 waits with none | ⟨next, other⟩
    · exact .inl none
    · rw [position] at other
      cases other
  · intro next waits
    cases waits

theorem wake2 (flow : Flow pipeline) (woken : pipeline.stage2.woken = some position) :
    Flow { pipeline with stage2 := position } := by
  have second := flow.second
  have ended := flow.ended2
  cases before : pipeline.stage2 with
  | waitPop =>
      rw [before] at woken second ended
      cases woken
      refine { flow with second := second, ended2 := ended, empty1 := ?_, empty2 := ?_, full1 := ?_, full2 := ?_ }
      · intro waits
        cases waits
      · simpa only [before, reduceCtorEq] using flow.empty2
      · simpa only [before, reduceCtorEq] using flow.full1
      · intro next waits
        cases waits
  | waitPush frame =>
      rw [before] at woken second ended
      cases woken
      refine { flow with second := second, ended2 := ended, empty1 := ?_, empty2 := ?_, full1 := ?_, full2 := ?_ }
      · intro waits
        cases waits
      · simpa only [before, reduceCtorEq] using flow.empty2
      · simpa only [before, reduceCtorEq] using flow.full1
      · intro next waits
        cases waits
  | _ =>
      rw [before] at woken
      cases woken

theorem wake3 (flow : Flow pipeline) (position : pipeline.stage3 = .waitPop) :
    Flow { pipeline with stage3 := .pop } := by
  refine { flow with pops := trivial, ended3 := ?_, counted := ?_, empty2 := ?_, full2 := ?_ }
  · have ended := flow.ended3
    rwa [position] at ended
  · have counted := flow.counted
    rwa [position] at counted
  · intro waits
    cases waits
  · simpa only [position, reduceCtorEq] using flow.full2

theorem wake (flow : Flow pipeline) (stepped : pipeline.wake stage = some after) : Flow after := by
  cases stage with
  | producer =>
      obtain ⟨next, woken, rfl⟩ := Option.map_eq_some_iff.mp stepped
      have pushes := flow.pushes
      cases position : pipeline.stage1.position with
      | waitPush frame =>
          rw [position] at woken
          cases woken
          exact flow.wake1 position
      | waitPop =>
          rw [position] at pushes
          exact pushes.elim
      | _ =>
          rw [position] at woken
          cases woken
  | filter =>
      obtain ⟨next, woken, rfl⟩ := Option.map_eq_some_iff.mp stepped
      exact flow.wake2 woken
  | consumer =>
      obtain ⟨next, woken, rfl⟩ := Option.map_eq_some_iff.mp stepped
      have pops := flow.pops
      cases position : pipeline.stage3 with
      | waitPop =>
          rw [position] at woken
          cases woken
          exact flow.wake3 position
      | waitPush frame =>
          rw [position] at pops
          exact pops.elim
      | _ =>
          rw [position] at woken
          cases woken

theorem signal (flow : Flow pipeline) (stepped : pipeline.signal stage = some after) : Flow after := by
  cases stage with
  | producer =>
      simp only [Pipeline.signal] at stepped
      split at stepped <;> cases stepped
      next position => exact flow.signal1 position
  | filter =>
      simp only [Pipeline.signal] at stepped
      split at stepped <;> cases stepped
      next position => exact flow.signal2_popped position
      next position => exact flow.signal2_pushed position
  | consumer =>
      simp only [Pipeline.signal] at stepped
      split at stepped <;> cases stepped
      next position => exact flow.signal3 position

theorem critical (flow : Flow pipeline) (stepped : pipeline.critical language stage = some after) : Flow after := by
  cases stage with
  | producer =>
      simp only [Pipeline.critical] at stepped
      split at stepped
      next frame position =>
        split at stepped <;> cases stepped
        next q1 done =>
          obtain ⟨room, rfl⟩ := queuePush_some flow.ring1.bounded done
          exact flow.push1 position room
        next waits => exact flow.wait1 position (queuePush_none flow.ring1.bounded waits)
      next => cases stepped
  | filter =>
      simp only [Pipeline.critical] at stepped
      split at stepped
      next position =>
        split at stepped <;> cases stepped
        next frame q1 done =>
          obtain ⟨filled, rfl, rfl⟩ := queuePop_some done
          exact flow.pop2 position filled
        next waits => exact flow.wait2 position (queuePop_none waits)
      next frame position =>
        split at stepped <;> cases stepped
        next q2 done =>
          obtain ⟨room, rfl⟩ := queuePush_some flow.ring2.bounded done
          exact flow.push2 position room
        next waits => exact flow.wait2_push position (queuePush_none flow.ring2.bounded waits)
      next => cases stepped
  | consumer =>
      simp only [Pipeline.critical] at stepped
      split at stepped
      next position =>
        split at stepped <;> cases stepped
        next frame q2 done =>
          obtain ⟨filled, rfl, rfl⟩ := queuePop_some done
          exact flow.pop3 position filled
        next waits => exact flow.wait3 position (queuePop_none waits)
      next => cases stepped

theorem step {action : Action} (flow : Flow pipeline) (stepped : pipeline.step language action = some after) :
    Flow after := by
  cases action with
  | wake stage => exact flow.wake stepped
  | go stage =>
      simp only [Pipeline.step, go] at stepped
      split at stepped
      next next signalled =>
        cases stepped
        exact flow.signal signalled
      next =>
        obtain ⟨middle, entered, rfl⟩ := Option.map_eq_some_iff.mp stepped
        have flows := flow.critical entered
        cases language with
        | cpp => exact flows
        | c =>
            show Flow ((middle.signal stage).getD middle)
            cases signalled : middle.signal stage with
            | none => exact flows
            | some last => exact flows.signal signalled

/-- Once the filter has the last frame, it has them all. -/
theorem closed1 (flow : Flow pipeline) (ended : pipeline.stage2.ended = true) :
    pipeline.popped1 = pipeline.arithmetic.stream pipeline.total_frames pipeline.arithmetic.zero ∧
      pipeline.q1.contents pipeline.capacity = [] ∧
      pipeline.stage1.left pipeline.arithmetic pipeline.total_frames = [] := by
  have seen : ∃ frame ∈ pipeline.popped1, frame.is_last = true := by
    rw [← List.any_eq_true, flow.ended2]
    exact ended
  have first := flow.first
  rw [List.append_assoc] at first
  obtain ⟨all, nothing⟩ := append_eq_of_marked frames_not_last first seen
  exact ⟨all, List.append_eq_nil_iff.mp nothing⟩

end Flow

/-- What the consumer is to receive. -/
def output (pipeline : Pipeline Sample) : List (Frame Sample) :=
  (pipeline.arithmetic.frames pipeline.total_frames pipeline.arithmetic.zero).map
    (fun frame => { frame with data := frame.data.map pipeline.arithmetic.amplify }) ++ [pipeline.arithmetic.poison_pill]

theorem stream_map_filter (pipeline : Pipeline Sample) :
    (pipeline.arithmetic.stream pipeline.total_frames pipeline.arithmetic.zero).map pipeline.arithmetic.filter =
      pipeline.output := by
  rw [Arithmetic.stream, output, List.map_append]
  congr 1
  refine List.map_congr_left fun frame inside => ?_
  rw [Arithmetic.filter, if_neg (frames_not_last frame inside)]

namespace Flow

theorem received (flow : Flow pipeline) : pipeline.popped2 <+: pipeline.output := by
  have taken : pipeline.popped1 <+: pipeline.arithmetic.stream pipeline.total_frames pipeline.arithmetic.zero := by
    rw [← flow.first, List.append_assoc]
    exact List.prefix_append _ _
  rw [← stream_map_filter]
  refine List.IsPrefix.trans ?_ (taken.map pipeline.arithmetic.filter)
  rw [← flow.second, List.append_assoc]
  exact List.prefix_append _ _

/-- Once the consumer has the last frame, it has them all. -/
theorem closed2 (flow : Flow pipeline) (ended : pipeline.stage3.ended = true) :
    pipeline.popped2 = pipeline.output ∧ pipeline.stage2.hand pipeline.arithmetic = [] ∧
      pipeline.stage2.ended = true := by
  have seen : ∃ frame ∈ pipeline.popped2, frame.is_last = true := by
    rw [← List.any_eq_true, flow.ended3]
    exact ended
  have passed : pipeline.stage2.ended = true := by
    obtain ⟨frame, inside, last⟩ := seen
    have sent : frame ∈ pipeline.popped1.map pipeline.arithmetic.filter := by
      rw [← flow.second]
      exact List.mem_append_left _ (List.mem_append_left _ inside)
    obtain ⟨source, before, rfl⟩ := List.mem_map.mp sent
    rw [← flow.ended2, List.any_eq_true]
    exact ⟨source, before, filter_is_last.symm.trans last⟩
  have second := flow.second
  rw [(flow.closed1 passed).1, stream_map_filter, output, List.append_assoc] at second
  have unmarked : ∀ frame ∈ (pipeline.arithmetic.frames pipeline.total_frames pipeline.arithmetic.zero).map
      (fun frame => { frame with data := frame.data.map pipeline.arithmetic.amplify }), ¬ frame.is_last = true := by
    intro frame inside
    obtain ⟨source, before, rfl⟩ := List.mem_map.mp inside
    exact frames_not_last source before
  obtain ⟨all, nothing⟩ := append_eq_of_marked unmarked second seen
  exact ⟨all, (List.append_eq_nil_iff.mp nothing).2, passed⟩

theorem counted_all (flow : Flow pipeline) (returned : pipeline.stage3 = .returned) :
    pipeline.count = pipeline.total_frames := by
  have counted := flow.counted
  rw [returned, (flow.closed2 (by rw [returned]; rfl)).1, output, List.countP_append, List.countP_map] at counted
  have all : (pipeline.arithmetic.frames pipeline.total_frames pipeline.arithmetic.zero).countP
      ((fun frame : Frame Sample => !frame.is_last) ∘
        fun frame => { frame with data := frame.data.map pipeline.arithmetic.amplify }) = pipeline.total_frames := by
    rw [List.countP_eq_length.mpr, frames_length]
    intro frame inside
    simpa using frames_not_last frame inside
  rw [all] at counted
  exact counted

/-- A stage that waits has another one to wait for. -/
theorem not_blocked (flow : Flow pipeline)
    (blocked1 : pipeline.stage1.position = .returned ∨ ∃ frame, pipeline.stage1.position = .waitPush frame)
    (blocked2 : pipeline.stage2 = .returned ∨ pipeline.stage2 = .waitPop ∨ ∃ frame, pipeline.stage2 = .waitPush frame)
    (blocked3 : pipeline.stage3 = .returned ∨ pipeline.stage3 = .waitPop) :
    pipeline.stage1.position = .returned ∧ pipeline.stage2 = .returned ∧ pipeline.stage3 = .returned := by
  have room := flow.room
  have finish1 : pipeline.stage2.ended = true → pipeline.stage1.position = .returned := by
    intro ended
    rcases blocked1 with returned | ⟨frame, waits⟩
    · exact returned
    · have left := (flow.closed1 ended).2.2
      simp only [Producer.left, waits] at left
      cases left
  have finish2 : pipeline.stage2 = .returned := by
    rcases blocked2 with returned | waits | ⟨frame, waits⟩
    · exact returned
    · have unended : pipeline.stage2.ended = false := by rw [waits]; rfl
      rcases flow.empty1 waits with drained | ⟨frame, pushed⟩
      · rcases blocked1 with returned | ⟨frame, full⟩
        · have first := flow.first
          have empty : pipeline.q1.contents pipeline.capacity = [] :=
            List.length_eq_zero_iff.mp (RingBuffer.contents_length.trans drained)
          have left : pipeline.stage1.left pipeline.arithmetic pipeline.total_frames = [] := by
            simp only [Producer.left, returned]
          rw [empty, left, List.append_nil, List.append_nil] at first
          have ended : pipeline.stage2.ended = true := by
            rw [← flow.ended2, first, List.any_eq_true]
            exact ⟨_, List.mem_append_right _ List.mem_cons_self, rfl⟩
          rw [unended] at ended
          cases ended
        · rcases flow.full1 frame full with count | ⟨frame, popped⟩
          · omega
          · rw [waits] at popped
            cases popped
      · rcases blocked1 with returned | ⟨next, full⟩
        · rw [returned] at pushed
          cases pushed
        · rw [full] at pushed
          cases pushed
    · rcases flow.full2 frame waits with full | ⟨next, popped⟩
      · rcases blocked3 with returned | waiting
        · have hand := (flow.closed2 (by rw [returned]; rfl)).2.1
          rw [waits] at hand
          cases hand
        · rcases flow.empty2 waiting with drained | ⟨next, pushed⟩
          · omega
          · rw [waits] at pushed
            cases pushed
      · rcases blocked3 with returned | waiting
        · rw [returned] at popped
          cases popped
        · rw [waiting] at popped
          cases popped
  have ended : pipeline.stage2.ended = true := by rw [finish2]; rfl
  refine ⟨finish1 ended, finish2, ?_⟩
  rcases blocked3 with returned | waiting
  · exact returned
  · rcases flow.empty2 waiting with drained | ⟨frame, pushed⟩
    · have second := flow.second
      have empty : pipeline.q2.contents pipeline.capacity = [] :=
        List.length_eq_zero_iff.mp (RingBuffer.contents_length.trans drained)
      rw [empty, finish2, (flow.closed1 ended).1, stream_map_filter] at second
      simp only [Position.hand, List.append_nil] at second
      have last : pipeline.stage3.ended = true := by
        rw [← flow.ended3, second, List.any_eq_true]
        exact ⟨_, List.mem_append_right _ List.mem_cons_self, rfl⟩
      rw [waiting] at last
      cases last
    · rw [finish2] at pushed
      cases pushed

end Flow

end Pipeline

end HundredDays.AudioPipeline
