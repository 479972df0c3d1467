import HundredDays.SpscQueue.Model

namespace HundredDays.AudioBuffer

open HundredDays.SpscQueue

/-! A thread that generates samples, and `main`, which plays the driver that pulls them in blocks.

`ring_push` and `ring_pop` take the steps of the queue between one producer and one
consumer.  What is done with a sample is left open, since none of it decides what the
threads do.
-/

variable {Sample : Type}

abbrev SAMPLE_RATE : Nat := 44100

abbrev CAPACITY : Nat := 8192

/-- The frames of one callback. -/
abbrev FRAMES : Nat := 256

structure Arithmetic (Sample : Type) where
  /-- `0.0f` -/
  zero : Sample
  sinf : Sample → Sample
  /-- `phase += phase_incr`, less a whole turn when it reached one. -/
  advance : Sample → Sample

/-- The samples that are generated from this phase on. -/
def Arithmetic.samples (arithmetic : Arithmetic Sample) (phase : Sample) : Nat → List Sample
  | 0 => []
  | count + 1 => arithmetic.sinf phase :: arithmetic.samples (arithmetic.advance phase) count

inductive ProducerPhase (Sample : Type) where
  /-- At the head of the loop over the samples. -/
  | loop (i : Nat) (phase : Sample)
  /-- In `ring_push`, with the phase of the next sample. -/
  | pushing (i : Nat) (sample phase : Sample)
  /-- The push failed, and is made again. -/
  | sleeping (i : Nat) (sample phase : Sample)
  | returned

inductive DriverPhase where
  /-- At the head of the loop of `main`. -/
  | loop
  /-- At the head of the loop of `audio_hardware_callback`. -/
  | callback (i : Nat)
  /-- In `ring_pop`. -/
  | popping (i : Nat)
  /-- In `pthread_join`. -/
  | joining
  | exited
deriving DecidableEq

structure Demo (Sample : Type) where
  ring : State Sample
  producer : ProducerPhase Sample
  driver : DriverPhase
  totalFramesProcessed : Nat
  /-- What went to `out_buf` so far; `none` is the silence that fills an underrun. -/
  delivered : List (Option Sample)

inductive Turn where
  | produce
  | drive
deriving DecidableEq

/-- What a push has returned that went from one of these to the other. -/
def pushReturns : Producer Sample → Producer Sample → Option Bool
  | .stored _ _, .idle => some true
  | .headLoaded _ _ _ _, .idle => some false
  | _, _ => none

/-- What a pop has returned; the sample is there when that is true. -/
def popReturns : Consumer Sample → Consumer Sample → Option (Option Sample)
  | .taken _ sample, .idle => some (some sample)
  | .tailLoaded _ _ _, .idle => some none
  | _, _ => none

namespace Demo

/-- `ring_init` does not write the slots. -/
def initial (arithmetic : Arithmetic Sample) (data : Nat → Sample) : Demo Sample :=
  { ring := .initial 0 data, producer := .loop 0 arithmetic.zero, driver := .loop, totalFramesProcessed := 0
    delivered := [] }

variable (arithmetic : Arithmetic Sample) (demo : Demo Sample)

def produce : Option (Demo Sample) :=
  match demo.producer with
  | .loop i phase =>
      if i < SAMPLE_RATE * 2 then
        (SpscQueue.step CAPACITY demo.ring (.push (arithmetic.sinf phase))).map fun ring =>
          { demo with ring, producer := .pushing i (arithmetic.sinf phase) (arithmetic.advance phase) }
      else some { demo with producer := .returned }
  | .pushing i sample phase =>
      (SpscQueue.step CAPACITY demo.ring .producer).map fun ring =>
        { demo with
          ring
          producer := match pushReturns demo.ring.producer ring.producer with
            | none => .pushing i sample phase
            | some true => .loop (i + 1) phase
            | some false => .sleeping i sample phase }
  | .sleeping i sample phase =>
      (SpscQueue.step CAPACITY demo.ring (.push sample)).map fun ring =>
        { demo with ring, producer := .pushing i sample phase }
  | .returned => none

def drive : Option (Demo Sample) :=
  match demo.driver with
  | .loop =>
      some { demo with driver := if demo.totalFramesProcessed < SAMPLE_RATE * 2 then .callback 0 else .joining }
  | .callback i =>
      if i < FRAMES then
        (SpscQueue.step CAPACITY demo.ring .pop).map fun ring => { demo with ring, driver := .popping i }
      else some { demo with driver := .loop, totalFramesProcessed := demo.totalFramesProcessed + FRAMES }
  | .popping i =>
      (SpscQueue.step CAPACITY demo.ring .consumer).map fun ring =>
        match popReturns demo.ring.consumer ring.consumer with
        | none => { demo with ring }
        | some result => { demo with ring, driver := .callback (i + 1), delivered := demo.delivered ++ [result] }
  | .joining =>
      match demo.producer with
      | .returned => some { demo with driver := .exited }
      | _ => none
  | .exited => none

def step : Turn → Option (Demo Sample)
  | .produce => demo.produce arithmetic
  | .drive => demo.drive

end Demo

end HundredDays.AudioBuffer
