import HundredDays.AudioBuffer.Model
import HundredDays.SpscQueue.Fifo
import Mathlib.Data.List.ReduceOption

namespace HundredDays.AudioBuffer

open HundredDays.Semantics HundredDays.SpscQueue

/-! When the driver has its frames, the producer can finish only if enough of them were samples. -/

variable {Sample : Type} {arithmetic : Arithmetic Sample} {demo after : Demo Sample} {ring next : State Sample}
  {sample phase : Sample}

/-- What a push under way is to write. -/
def inFlight : Producer Sample → Option Sample
  | .idle => none
  | .called value => some value
  | .tailLoaded value _ => some value
  | .headLoaded value _ _ _ => some value
  | .stored value _ => some value

theorem push_called (stepped : SpscQueue.step CAPACITY ring (.push sample) = some next) :
    ring.producer = .idle ∧ next = { ring with producer := .called sample } := by
  rw [SpscQueue.step] at stepped
  cases phase : ring.producer with
  | idle =>
      rw [phase] at stepped
      cases stepped
      exact ⟨rfl, rfl⟩
  | _ =>
      rw [phase] at stepped
      cases stepped

theorem pop_called (stepped : SpscQueue.step CAPACITY ring .pop = some next) :
    ring.consumer = .idle ∧ next = { ring with consumer := .called } := by
  rw [SpscQueue.step] at stepped
  cases phase : ring.consumer with
  | idle =>
      rw [phase] at stepped
      cases stepped
      exact ⟨rfl, rfl⟩
  | _ =>
      rw [phase] at stepped
      cases stepped

/-- A step of a push goes on, or it returns true with the sample pushed, or false. -/
theorem push_stepped (stepped : SpscQueue.step CAPACITY ring .producer = some next)
    (carries : inFlight ring.producer = some sample) :
    next.popped = ring.popped ∧ next.consumer = ring.consumer ∧
      ((pushReturns ring.producer next.producer = none ∧ inFlight next.producer = some sample ∧
          next.pushed = ring.pushed) ∨
        (pushReturns ring.producer next.producer = some true ∧ next.producer = .idle ∧
          next.pushed = ring.pushed ++ [sample]) ∨
        (pushReturns ring.producer next.producer = some false ∧ next.producer = .idle ∧
          next.pushed = ring.pushed)) := by
  simp only [SpscQueue.step, queuePush] at stepped
  cases phase : ring.producer with
  | idle =>
      rw [phase] at carries
      cases carries
  | called value =>
      rw [phase] at stepped carries
      cases stepped
      exact ⟨rfl, rfl, .inl ⟨rfl, carries, rfl⟩⟩
  | tailLoaded value currentTail =>
      rw [phase] at stepped carries
      cases stepped
      exact ⟨rfl, rfl, .inl ⟨rfl, carries, rfl⟩⟩
  | headLoaded value currentTail currentHead present =>
      rw [phase] at stepped carries
      simp only at stepped
      split at stepped
      next =>
        cases stepped
        exact ⟨rfl, rfl, .inr (.inr ⟨rfl, rfl, rfl⟩)⟩
      next =>
        cases stepped
        exact ⟨rfl, rfl, .inl ⟨rfl, carries, rfl⟩⟩
  | stored value currentTail =>
      rw [phase] at stepped carries
      cases stepped
      cases carries
      exact ⟨rfl, rfl, .inr (.inl ⟨rfl, rfl, rfl⟩)⟩

/-- A step of a pop goes on, or it returns a sample, or without one. -/
theorem pop_stepped (stepped : SpscQueue.step CAPACITY ring .consumer = some next) :
    next.pushed = ring.pushed ∧ next.producer = ring.producer ∧
      match popReturns ring.consumer next.consumer with
      | none => next.popped = ring.popped
      | some result => next.consumer = .idle ∧ next.popped = ring.popped ++ result.toList := by
  simp only [SpscQueue.step, queuePop] at stepped
  cases phase : ring.consumer with
  | idle =>
      rw [phase] at stepped
      cases stepped
  | called =>
      rw [phase] at stepped
      cases stepped
      exact ⟨rfl, rfl, rfl⟩
  | headLoaded currentHead =>
      rw [phase] at stepped
      cases stepped
      exact ⟨rfl, rfl, rfl⟩
  | tailLoaded currentHead currentTail present =>
      rw [phase] at stepped
      simp only at stepped
      split at stepped
      next =>
        cases stepped
        exact ⟨rfl, rfl, rfl, (List.append_nil _).symm⟩
      next =>
        cases stepped
        exact ⟨rfl, rfl, rfl⟩
  | taken currentHead value =>
      rw [phase] at stepped
      cases stepped
      exact ⟨rfl, rfl, rfl, rfl⟩

/-- All that the producer generates. -/
def produced (arithmetic : Arithmetic Sample) : List Sample :=
  arithmetic.samples arithmetic.zero (SAMPLE_RATE * 2)

/-- What is pushed and what is still to be pushed is all that is generated. -/
def Generates (arithmetic : Arithmetic Sample) (ring : State Sample) : ProducerPhase Sample → Prop
  | .loop i phase => ring.producer = .idle ∧ ring.pushed.length = i ∧ i ≤ SAMPLE_RATE * 2 ∧
      produced arithmetic = ring.pushed ++ arithmetic.samples phase (SAMPLE_RATE * 2 - i)
  | .pushing i sample phase => inFlight ring.producer = some sample ∧ ring.pushed.length = i ∧ i < SAMPLE_RATE * 2 ∧
      produced arithmetic = ring.pushed ++ sample :: arithmetic.samples phase (SAMPLE_RATE * 2 - (i + 1))
  | .sleeping i sample phase => ring.producer = .idle ∧ ring.pushed.length = i ∧ i < SAMPLE_RATE * 2 ∧
      produced arithmetic = ring.pushed ++ sample :: arithmetic.samples phase (SAMPLE_RATE * 2 - (i + 1))
  | .returned => ring.producer = .idle ∧ ring.pushed.length = SAMPLE_RATE * 2 ∧ produced arithmetic = ring.pushed

/-- The frames that `main` has processed when it leaves its loop. -/
abbrev PROCESSED : Nat := 88320

/-- How many frames the driver has delivered. -/
def Counts (consumer : Consumer Sample) (processed delivered : Nat) : DriverPhase → Prop
  | .loop => consumer = .idle ∧ FRAMES ∣ processed ∧ processed < SAMPLE_RATE * 2 + FRAMES ∧ delivered = processed
  | .callback i => consumer = .idle ∧ FRAMES ∣ processed ∧ processed < SAMPLE_RATE * 2 ∧ i ≤ FRAMES ∧
      delivered = processed + i
  | .popping i => FRAMES ∣ processed ∧ processed < SAMPLE_RATE * 2 ∧ i < FRAMES ∧ delivered = processed + i
  | .joining => delivered = PROCESSED
  | .exited => delivered = PROCESSED

structure Playing (arithmetic : Arithmetic Sample) (demo : Demo Sample) : Prop where
  sound : Sound 0 13 demo.ring
  generates : Generates arithmetic demo.ring demo.producer
  counts : Counts demo.ring.consumer demo.totalFramesProcessed demo.delivered.length demo.driver
  popped : demo.ring.popped = demo.delivered.reduceOption

theorem initial_playing (data : Nat → Sample) : Playing arithmetic (.initial arithmetic data) := by
  refine ⟨initial_sound data, ⟨rfl, rfl, Nat.zero_le _, rfl⟩, ⟨rfl, Nat.dvd_zero _, ?_, rfl⟩, rfl⟩
  exact Nat.succ_pos _

/-- The producer keeps what it has when the driver pops. -/
theorem Generates.congr {producer : ProducerPhase Sample} (generates : Generates arithmetic ring producer)
    (same : next.producer = ring.producer) (pushed : next.pushed = ring.pushed) :
    Generates arithmetic next producer := by
  cases producer <;> simpa only [Generates, same, pushed] using generates

namespace Playing

theorem produce (playing : Playing arithmetic demo) (stepped : demo.produce arithmetic = some after) :
    Playing arithmetic after := by
  obtain ⟨sound, generates, counts, popped⟩ := playing
  unfold Demo.produce at stepped
  cases doing : demo.producer with
  | loop i phase =>
      rw [doing] at generates
      simp only [doing] at stepped
      obtain ⟨idle, pushed, most, content⟩ := generates
      split at stepped
      next less =>
        obtain ⟨ring, called, rfl⟩ := Option.map_eq_some_iff.mp stepped
        have kept := sound.step (by decide) called
        obtain ⟨_, rfl⟩ := push_called called
        have more : SAMPLE_RATE * 2 - i = SAMPLE_RATE * 2 - (i + 1) + 1 := by omega
        rw [more, Arithmetic.samples] at content
        exact ⟨kept, ⟨rfl, pushed, less, content⟩, counts, popped⟩
      next enough =>
        cases stepped
        have all : i = SAMPLE_RATE * 2 := Nat.le_antisymm most (Nat.le_of_not_lt enough)
        rw [all, Nat.sub_self, Arithmetic.samples, List.append_nil] at content
        exact ⟨sound, ⟨idle, pushed.trans all, content⟩, counts, popped⟩
  | pushing i sample phase =>
      rw [doing] at generates
      simp only [doing] at stepped
      obtain ⟨carries, pushed, less, content⟩ := generates
      obtain ⟨ring, moved, rfl⟩ := Option.map_eq_some_iff.mp stepped
      have kept := sound.step (by decide) moved
      obtain ⟨samePopped, sameConsumer, moves⟩ := push_stepped moved carries
      rw [← samePopped] at popped
      rw [← sameConsumer] at counts
      rcases moves with ⟨returns, still, same⟩ | ⟨returns, idle, grown⟩ | ⟨returns, idle, same⟩
      · refine ⟨kept, ?_, counts, popped⟩
        simp only [returns]
        rw [← same] at pushed content
        exact ⟨still, pushed, less, content⟩
      · refine ⟨kept, ?_, counts, popped⟩
        simp only [returns]
        refine ⟨idle, ?_, less, ?_⟩
        · rw [grown, List.length_append, pushed]
          rfl
        · rw [grown, List.append_assoc]
          exact content
      · refine ⟨kept, ?_, counts, popped⟩
        simp only [returns]
        rw [← same] at pushed content
        exact ⟨idle, pushed, less, content⟩
  | sleeping i sample phase =>
      rw [doing] at generates
      simp only [doing] at stepped
      obtain ⟨_, pushed, less, content⟩ := generates
      obtain ⟨ring, called, rfl⟩ := Option.map_eq_some_iff.mp stepped
      have kept := sound.step (by decide) called
      obtain ⟨_, rfl⟩ := push_called called
      exact ⟨kept, ⟨rfl, pushed, less, content⟩, counts, popped⟩
  | returned =>
      simp only [doing] at stepped
      cases stepped

theorem drive (playing : Playing arithmetic demo) (stepped : demo.drive = some after) : Playing arithmetic after := by
  obtain ⟨sound, generates, counts, popped⟩ := playing
  unfold Demo.drive at stepped
  cases doing : demo.driver with
  | loop =>
      rw [doing] at counts
      simp only [doing] at stepped
      obtain ⟨idle, blocks, most, delivered⟩ := counts
      cases stepped
      refine ⟨sound, generates, ?_, popped⟩
      dsimp only
      split
      next less => exact ⟨idle, blocks, less, Nat.zero_le _, delivered⟩
      next enough =>
        show demo.delivered.length = PROCESSED
        simp only [SAMPLE_RATE, FRAMES, PROCESSED] at *
        omega
  | callback i =>
      rw [doing] at counts
      simp only [doing] at stepped
      obtain ⟨idle, blocks, less, most, delivered⟩ := counts
      split at stepped
      next more =>
        obtain ⟨ring, called, rfl⟩ := Option.map_eq_some_iff.mp stepped
        have kept := sound.step (by decide) called
        obtain ⟨_, rfl⟩ := pop_called called
        exact ⟨kept, generates.congr rfl rfl, ⟨blocks, less, more, delivered⟩, popped⟩
      next done =>
        cases stepped
        refine ⟨sound, generates, ⟨idle, Nat.dvd_add blocks (dvd_refl _), Nat.add_lt_add_right less _, ?_⟩, popped⟩
        show demo.delivered.length = demo.totalFramesProcessed + FRAMES
        omega
  | popping i =>
      rw [doing] at counts
      simp only [doing] at stepped
      obtain ⟨blocks, less, more, delivered⟩ := counts
      obtain ⟨ring, moved, rfl⟩ := Option.map_eq_some_iff.mp stepped
      have kept := sound.step (by decide) moved
      obtain ⟨samePushed, sameProducer, pops⟩ := pop_stepped moved
      have keeps := generates.congr sameProducer samePushed
      cases returns : popReturns demo.ring.consumer ring.consumer with
      | none =>
          rw [returns] at pops
          exact ⟨kept, keeps, ⟨blocks, less, more, delivered⟩, pops.trans popped⟩
      | some result =>
          rw [returns] at pops
          obtain ⟨idle, grown⟩ := pops
          refine ⟨kept, keeps, ⟨idle, blocks, less, more, ?_⟩, ?_⟩
          · rw [List.length_append, delivered]
            rfl
          · rw [grown, popped, List.reduceOption_append]
            cases result <;> rfl
  | joining =>
      rw [doing] at counts
      simp only [doing] at stepped
      split at stepped
      next =>
        cases stepped
        exact ⟨sound, generates, counts, popped⟩
      next => cases stepped
  | exited =>
      simp only [doing] at stepped
      cases stepped

theorem step {turn : Turn} (playing : Playing arithmetic demo) (stepped : Demo.step arithmetic demo turn = some after) :
    Playing arithmetic after := by
  cases turn with
  | produce => exact playing.produce stepped
  | drive => exact playing.drive stepped

end Playing

namespace Demo

/-- The samples that the producer still has to push. -/
def remaining (demo : Demo Sample) : Nat := SAMPLE_RATE * 2 - demo.ring.pushed.length

/-- The slots of the ring that are free. -/
def space (demo : Demo Sample) : Nat := CAPACITY - (demo.ring.queue.tail - demo.ring.queue.head).toNat

def underruns (demo : Demo Sample) : Nat := demo.delivered.countP Option.isNone

end Demo

namespace Playing

theorem frames (playing : Playing arithmetic demo) :
    demo.delivered.length = demo.ring.popped.length + demo.underruns := by
  rw [playing.popped, Demo.underruns, List.countP_eq_length_filter]
  exact List.length_eq_reduceOption_length_add_filter_none

theorem space_eq (playing : Playing arithmetic demo) :
    demo.space = CAPACITY - (demo.ring.pushed.length - demo.ring.popped.length) := by
  obtain ⟨occupied, _⟩ := (playing.sound.boundedFifo (by decide)).occupancy
  rw [Demo.space, occupied, State.present]

theorem pushed_le (playing : Playing arithmetic demo) : demo.ring.pushed.length ≤ SAMPLE_RATE * 2 := by
  have generates := playing.generates
  cases doing : demo.producer with
  | loop i phase =>
      rw [doing] at generates
      exact generates.2.1 ▸ generates.2.2.1
  | pushing i sample phase =>
      rw [doing] at generates
      exact generates.2.1 ▸ Nat.le_of_lt generates.2.2.1
  | sleeping i sample phase =>
      rw [doing] at generates
      exact generates.2.1 ▸ Nat.le_of_lt generates.2.2.1
  | returned =>
      rw [doing] at generates
      exact Nat.le_of_eq generates.2.1

theorem prefix_produced (playing : Playing arithmetic demo) : demo.ring.pushed <+: produced arithmetic := by
  have generates := playing.generates
  cases doing : demo.producer with
  | loop i phase =>
      rw [doing] at generates
      exact ⟨_, generates.2.2.2.symm⟩
  | pushing i sample phase =>
      rw [doing] at generates
      exact ⟨_, generates.2.2.2.symm⟩
  | sleeping i sample phase =>
      rw [doing] at generates
      exact ⟨_, generates.2.2.2.symm⟩
  | returned =>
      rw [doing] at generates
      exact ⟨[], by rw [List.append_nil, generates.2.2]⟩

end Playing

/-- In every state that is reached the samples that were delivered come in the order in which they are
produced, and when `main` waits for the producer the ring has space for what is left if and only if
at most 8312 frames were underruns. -/
theorem shuts_down_iff (arithmetic : Arithmetic Sample) (data : Nat → Sample) (turns : List Turn)
    (ran : run (Demo.step arithmetic) (.initial arithmetic data) turns = some demo) :
    demo.delivered.reduceOption <+: produced arithmetic ∧
      (demo.driver = .joining → (demo.remaining ≤ demo.space ↔ demo.underruns ≤ 8312)) := by
  have playing : Playing arithmetic demo :=
    run_invariant (Playing arithmetic) (fun _ _ _ playing stepped => playing.step stepped) (initial_playing data) ran
  constructor
  · rw [← playing.popped]
    exact playing.sound.ordered.trans playing.prefix_produced
  · intro joining
    have counts := playing.counts
    rw [joining] at counts
    have delivered : demo.delivered.length = PROCESSED := counts
    have frames := playing.frames
    have fewer := playing.sound.popped_le
    have bounded := playing.sound.bounded
    have pushed := playing.pushed_le
    rw [playing.space_eq, Demo.remaining]
    simp only [SAMPLE_RATE, CAPACITY, PROCESSED] at *
    omega

theorem shuts_down_iff_one_sample : ∃ demo : Demo Nat,
    run (Demo.step ⟨0, id, Nat.succ⟩) (.initial ⟨0, id, Nat.succ⟩ id) [.produce, .drive, .produce, .drive] = some demo ∧
      demo.delivered.reduceOption <+: produced ⟨0, id, Nat.succ⟩ ∧
        (demo.driver = .joining → (demo.remaining ≤ demo.space ↔ demo.underruns ≤ 8312)) := by
  obtain ⟨demo, ran⟩ : ∃ demo : Demo Nat, run (Demo.step ⟨0, id, Nat.succ⟩) (.initial ⟨0, id, Nat.succ⟩ id)
      [.produce, .drive, .produce, .drive] = some demo := ⟨_, rfl⟩
  exact ⟨demo, ran, shuts_down_iff ⟨0, id, Nat.succ⟩ id _ ran⟩

/-! ### A driver that is faster than the producer -/

/-- Nothing was pushed yet, and no pop is under way. -/
structure Starved (demo : Demo Sample) : Prop where
  empty : demo.ring.queue.head = demo.ring.queue.tail
  idle : demo.ring.consumer = .idle
  pushed : demo.ring.pushed = []

variable (arithmetic) in
/-- An underrun. -/
theorem Starved.frame {i : Nat} (starved : Starved demo) (doing : demo.driver = .callback i) (more : i < FRAMES) :
    ∃ after, run (Demo.step arithmetic) demo [.drive, .drive, .drive, .drive] = some after ∧ Starved after ∧
      after.driver = .callback (i + 1) ∧ after.totalFramesProcessed = demo.totalFramesProcessed := by
  obtain ⟨empty, idle, pushed⟩ := starved
  have called : Demo.step arithmetic demo .drive =
      some { demo with ring := { demo.ring with consumer := .called }, driver := .popping i } := by
    simp only [Demo.step, Demo.drive, doing, if_pos more, SpscQueue.step, idle, Option.map_some]
  refine ⟨{ demo with
    ring := { demo.ring with failedPops := demo.ring.present :: demo.ring.failedPops }
    driver := .callback (i + 1), delivered := demo.delivered ++ [none] }, ?_, ⟨empty, ?_, pushed⟩, rfl, rfl⟩
  · refine run_cons_iff.mpr ⟨_, called, ?_⟩
    simp only [run, Demo.step, Demo.drive, SpscQueue.step, queuePop, popReturns, Option.map_some, Option.bind_some,
      State.present, empty, if_true, idle]
  · exact idle

variable (arithmetic) in
/-- The rest of a callback. -/
theorem Starved.callback {i : Nat} (starved : Starved demo) (doing : demo.driver = .callback i) (most : i ≤ FRAMES) :
    ∃ turns after, run (Demo.step arithmetic) demo turns = some after ∧ Starved after ∧ after.driver = .loop ∧
      after.totalFramesProcessed = demo.totalFramesProcessed + FRAMES := by
  generalize left : FRAMES - i = count
  induction count generalizing demo i with
  | zero =>
      have done : ¬ i < FRAMES := by omega
      refine ⟨[.drive], { demo with driver := .loop, totalFramesProcessed := demo.totalFramesProcessed + FRAMES },
        run_cons_iff.mpr ⟨_, ?_, rfl⟩, ⟨starved.empty, starved.idle, starved.pushed⟩, rfl, rfl⟩
      simp only [Demo.step, Demo.drive, doing, if_neg done]
  | succ count ih =>
      have more : i < FRAMES := by omega
      obtain ⟨next, played, still, later, same⟩ := starved.frame arithmetic doing more
      obtain ⟨turns, after, finished, final, looping, processed⟩ := ih still later more (by omega)
      exact ⟨_, after, run_append_iff.mpr ⟨next, played, finished⟩, final, looping, by rw [processed, same]⟩

variable (arithmetic) in
/-- All callbacks to the end. -/
theorem Starved.loop (starved : Starved demo) (doing : demo.driver = .loop) :
    ∃ turns after, run (Demo.step arithmetic) demo turns = some after ∧ Starved after ∧ after.driver = .joining := by
  generalize left : SAMPLE_RATE * 2 - demo.totalFramesProcessed = count
  induction count using Nat.strong_induction_on generalizing demo with
  | _ count ih =>
      have moved : Demo.step arithmetic demo .drive = some { demo with
          driver := if demo.totalFramesProcessed < SAMPLE_RATE * 2 then .callback 0 else .joining } := by
        simp only [Demo.step, Demo.drive, doing]
      by_cases more : demo.totalFramesProcessed < SAMPLE_RATE * 2
      · rw [if_pos more] at moved
        have begins : Starved { demo with driver := .callback 0 } := ⟨starved.empty, starved.idle, starved.pushed⟩
        obtain ⟨turns, next, played, still, looping, processed⟩ := begins.callback arithmetic rfl (Nat.zero_le _)
        obtain ⟨others, after, finished, final, joining⟩ := ih _ (by
          rw [processed]
          simp only [FRAMES]
          omega) still looping rfl
        exact ⟨.drive :: (turns ++ others), after,
          run_cons_iff.mpr ⟨_, moved, run_append_iff.mpr ⟨next, played, finished⟩⟩, final, joining⟩
      · rw [if_neg more] at moved
        exact ⟨[.drive], _, run_cons_iff.mpr ⟨_, moved, rfl⟩, ⟨starved.empty, starved.idle, starved.pushed⟩, rfl⟩

/-- The driver takes all its frames before the first push. -/
theorem never_shuts_down : ∃ (turns : List Turn) (demo : Demo Nat),
    run (Demo.step ⟨0, id, Nat.succ⟩) (.initial ⟨0, id, Nat.succ⟩ id) turns = some demo ∧ demo.driver = .joining ∧
      ¬ demo.remaining ≤ demo.space := by
  have begins : Starved (.initial ⟨0, id, Nat.succ⟩ id : Demo Nat) := ⟨rfl, rfl, rfl⟩
  obtain ⟨turns, demo, ran, starved, joining⟩ := begins.loop ⟨0, id, Nat.succ⟩ rfl
  refine ⟨turns, demo, ran, joining, ?_⟩
  rw [Demo.remaining, Demo.space, starved.pushed, starved.empty]
  simp only [List.length_nil, SAMPLE_RATE, CAPACITY]
  omega

end HundredDays.AudioBuffer
