import HundredDays.Data.Ring

namespace HundredDays.AudioPipeline

open HundredDays.Data

/-! Three stages with a bounded queue between each two, in C and in C++.

What a thread does between locking a mutex and unlocking it, or waiting, is one step. Each queue has one
thread that pushes and one that pops, so a condition variable has one thread at most that waits for it.
-/

variable {Sample : Type}

/-- What the stages do with samples. -/
structure Arithmetic (Sample : Type) where
  zero : Sample
  sinf : Sample → Sample
  /-- `phase += 0.05f` -/
  advance : Sample → Sample
  /-- `*= gain` -/
  amplify : Sample → Sample

structure Frame (Sample : Type) where
  data : List Sample
  is_last : Bool

def FRAME_SIZE : Nat := 256

namespace Arithmetic

/-- The samples that the producer writes from this phase on, and the phase after them. -/
def fill (arithmetic : Arithmetic Sample) : Nat → Sample → List Sample × Sample
  | 0, phase => ([], phase)
  | size + 1, phase =>
      let (rest, after) := fill arithmetic size (arithmetic.advance phase)
      (arithmetic.sinf phase :: rest, after)

def poison_pill (arithmetic : Arithmetic Sample) : Frame Sample :=
  { data := List.replicate FRAME_SIZE arithmetic.zero, is_last := true }

/-- What the filter passes on. -/
def filter (arithmetic : Arithmetic Sample) (frame : Frame Sample) : Frame Sample :=
  if frame.is_last then frame else { frame with data := frame.data.map arithmetic.amplify }

end Arithmetic

inductive Language where
  /-- Signals before it unlocks the mutex. -/
  | c
  /-- Notifies after it has unlocked the mutex. -/
  | cpp
deriving DecidableEq

/-- Whether a push waits, in the words of either language. -/
def Language.full : Language → Nat → Nat → Bool
  | c, count, capacity => count == capacity
  | cpp, count, capacity => !decide (count < capacity)

def Language.drained : Language → Nat → Bool
  | c, count => count == 0
  | cpp, count => !decide (0 < count)

/-- How far a stage is with its queues. -/
inductive Position (Sample : Type) where
  /-- Before the mutex: just called, or woken. -/
  | pop
  /-- Blocked on `not_empty`. -/
  | waitPop
  /-- Has the frame, and is about to signal `not_full`. -/
  | popped (frame : Frame Sample)
  | push (frame : Frame Sample)
  /-- Blocked on `not_full`. -/
  | waitPush (frame : Frame Sample)
  /-- Has pushed the frame, and is about to signal `not_empty`. -/
  | pushed (frame : Frame Sample)
  | returned

namespace Position

/-- A signal on `not_empty`. -/
def notEmpty : Position Sample → Position Sample
  | waitPop => pop
  | position => position

/-- A signal on `not_full`. -/
def notFull : Position Sample → Position Sample
  | waitPush frame => push frame
  | position => position

/-- Wakes up without a signal. -/
def woken : Position Sample → Option (Position Sample)
  | waitPop => some pop
  | waitPush frame => some (push frame)
  | _ => none

end Position

structure Producer (Sample : Type) where
  index : Nat
  phase : Sample
  position : Position Sample

/-- From the head of the loop to the next push. -/
def Producer.begin (arithmetic : Arithmetic Sample) (total_frames index : Nat) (phase : Sample) : Producer Sample :=
  if index < total_frames then
    let (data, after) := arithmetic.fill FRAME_SIZE phase
    { index, phase := after, position := .push { data, is_last := false } }
  else { index, phase, position := .push arithmetic.poison_pill }

/-- From the return of a push on. -/
def Producer.proceed (arithmetic : Arithmetic Sample) (total_frames : Nat) (producer : Producer Sample)
    (frame : Frame Sample) : Producer Sample :=
  if frame.is_last then { producer with position := .returned }
  else .begin arithmetic total_frames (producer.index + 1) producer.phase

structure Pipeline (Sample : Type) where
  arithmetic : Arithmetic Sample
  capacity : Nat
  total_frames : Nat
  q1 : RingBuffer (Frame Sample)
  q2 : RingBuffer (Frame Sample)
  stage1 : Producer Sample
  stage2 : Position Sample
  stage3 : Position Sample
  /-- The frames that the consumer has counted. -/
  count : Nat
  /-- What was popped from each queue. -/
  popped1 : List (Frame Sample)
  popped2 : List (Frame Sample)

namespace Pipeline

def initial (arithmetic : Arithmetic Sample) (capacity total_frames : Nat) (buffer1 buffer2 : Nat → Frame Sample) :
    Pipeline Sample :=
  { arithmetic, capacity, total_frames, q1 := .empty buffer1, q2 := .empty buffer2
    stage1 := .begin arithmetic total_frames 0 arithmetic.zero, stage2 := .pop, stage3 := .pop, count := 0
    popped1 := [], popped2 := [] }

inductive Stage where
  | producer
  | filter
  | consumer
deriving DecidableEq

variable (pipeline : Pipeline Sample)

def queuePush (language : Language) (q : RingBuffer (Frame Sample)) (frame : Frame Sample) : Option (RingBuffer (Frame Sample)) :=
  if language.full q.count pipeline.capacity then none else some (q.enqueue pipeline.capacity frame)

def queuePop (language : Language) (q : RingBuffer (Frame Sample)) : Option (Frame Sample × RingBuffer (Frame Sample)) :=
  if language.drained q.count then none else some (q.buffer q.head, q.dequeue pipeline.capacity)

/-- The critical section of a stage, without the signal. -/
def critical (language : Language) : Stage → Option (Pipeline Sample)
  | .producer =>
      match pipeline.stage1.position with
      | .push frame =>
          match pipeline.queuePush language pipeline.q1 frame with
          | some q1 => some { pipeline with q1, stage1 := { pipeline.stage1 with position := .pushed frame } }
          | none => some { pipeline with stage1 := { pipeline.stage1 with position := .waitPush frame } }
      | _ => none
  | .filter =>
      match pipeline.stage2 with
      | .pop =>
          match pipeline.queuePop language pipeline.q1 with
          | some (frame, q1) =>
              some { pipeline with q1, stage2 := .popped frame, popped1 := pipeline.popped1 ++ [frame] }
          | none => some { pipeline with stage2 := .waitPop }
      | .push frame =>
          match pipeline.queuePush language pipeline.q2 frame with
          | some q2 => some { pipeline with q2, stage2 := .pushed frame }
          | none => some { pipeline with stage2 := .waitPush frame }
      | _ => none
  | .consumer =>
      match pipeline.stage3 with
      | .pop =>
          match pipeline.queuePop language pipeline.q2 with
          | some (frame, q2) =>
              some { pipeline with q2, stage3 := .popped frame, popped2 := pipeline.popped2 ++ [frame] }
          | none => some { pipeline with stage3 := .waitPop }
      | _ => none

/-- The signal of a stage that is done with a queue, and what it does up to its next critical section. -/
def signal : Stage → Option (Pipeline Sample)
  | .producer =>
      match pipeline.stage1.position with
      | .pushed frame => some { pipeline with
          stage1 := pipeline.stage1.proceed pipeline.arithmetic pipeline.total_frames frame
          stage2 := pipeline.stage2.notEmpty }
      | _ => none
  | .filter =>
      match pipeline.stage2 with
      | .popped frame => some { pipeline with
          stage1 := { pipeline.stage1 with position := pipeline.stage1.position.notFull }
          stage2 := .push (pipeline.arithmetic.filter frame) }
      | .pushed frame => some { pipeline with
          stage2 := if frame.is_last then .returned else .pop
          stage3 := pipeline.stage3.notEmpty }
      | _ => none
  | .consumer =>
      match pipeline.stage3 with
      | .popped frame => some { pipeline with
          stage2 := pipeline.stage2.notFull
          stage3 := if frame.is_last then .returned else .pop
          count := if frame.is_last then pipeline.count else pipeline.count + 1 }
      | _ => none

/-- One step of a stage. In C the signal belongs to the critical section. -/
def go (language : Language) (stage : Stage) : Option (Pipeline Sample) :=
  match pipeline.signal stage with
  | some after => some after
  | none => (pipeline.critical language stage).map fun after =>
      match language with
      | .c => (after.signal stage).getD after
      | .cpp => after

def wake : Stage → Option (Pipeline Sample)
  | .producer => pipeline.stage1.position.woken.map fun position =>
      { pipeline with stage1 := { pipeline.stage1 with position } }
  | .filter => pipeline.stage2.woken.map fun stage2 => { pipeline with stage2 }
  | .consumer => pipeline.stage3.woken.map fun stage3 => { pipeline with stage3 }

inductive Action where
  | go (stage : Stage)
  /-- A spurious wakeup. -/
  | wake (stage : Stage)
deriving DecidableEq

def step (language : Language) (pipeline : Pipeline Sample) : Action → Option (Pipeline Sample)
  | .go stage => pipeline.go language stage
  | .wake stage => pipeline.wake stage

end Pipeline

end HundredDays.AudioPipeline
