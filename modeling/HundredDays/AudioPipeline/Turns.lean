import HundredDays.Semantics.Run
import Mathlib.Data.List.Range
import Mathlib.Logic.Function.Basic

namespace HundredDays.Turns

open HundredDays.Semantics

/-! Two threads that count up and down in turns.

Both wait at one condition variable until it is their turn.  Every statement is a step of
its own, and a waiting thread may also wake up without a signal.
-/

inductive Side where
  | increment
  | decrement
  deriving DecidableEq

namespace Side

def other : Side → Side
  | increment => decrement
  | decrement => increment

/-- The value of `turn` for which this thread does not wait. -/
def mine : Side → Bool
  | increment => false
  | decrement => true

end Side

/-- The next statement of a thread. -/
inductive Place where
  | head
  | lock
  | test
  /-- In `pthread_cond_wait`, without the mutex. -/
  | asleep
  /-- In `pthread_cond_wait`, woken up. -/
  | relock
  | update
  | print
  | flip
  | signal
  | unlock
  | exited
  deriving DecidableEq

structure State where
  mutex : Option Side
  turn : Bool
  count : UInt64
  place : Side → Place
  i : Side → Nat
  /-- Who has printed, in this order. -/
  output : List Side

variable {rounds : Nat} {state after : State} {side : Side}

def State.initial : State :=
  { mutex := none, turn := false, count := 0, place := fun _ => .head, i := fun _ => 0, output := [] }

inductive Action where
  | go (side : Side)
  /-- A waiting thread wakes up by itself. -/
  | wake (side : Side)

def State.at (state : State) (side : Side) (place : Place) : State :=
  { state with place := Function.update state.place side place }

def State.acquire (state : State) (side : Side) : Option State :=
  if state.mutex = none then some ({ state with mutex := some side }.at side .test) else none

/-- The other thread is woken up, if it waits. -/
def State.notify (state : State) (side : Side) : State :=
  if state.place side.other = .asleep then state.at side.other .relock else state

def go (rounds : Nat) (state : State) (side : Side) : Option State :=
  match state.place side with
  | .head => some (state.at side (if state.i side < rounds then .lock else .exited))
  | .lock => state.acquire side
  | .test =>
      if state.turn = side.mine then some (state.at side .update)
      else some ({ state with mutex := none }.at side .asleep)
  | .asleep => none
  | .relock => state.acquire side
  | .update =>
      let count := match side with
        | .increment => state.count + 1
        | .decrement => state.count - 1
      some ({ state with count }.at side .print)
  | .print => some ({ state with output := state.output ++ [side] }.at side .flip)
  | .flip => some ({ state with turn := !side.mine }.at side .signal)
  | .signal => some ((state.notify side).at side .unlock)
  | .unlock => some ({ state with mutex := none, i := Function.update state.i side (state.i side + 1) }.at side .head)
  | .exited => none

def step (rounds : Nat) (state : State) : Action → Option State
  | .go side => go rounds state side
  | .wake side => if state.place side = .asleep then some (state.at side .relock) else none

/-! ### They take turns -/

namespace Place

/-- The statements between locking and unlocking. -/
def critical : Place → Bool
  | test | update | print | flip | signal | unlock => true
  | _ => false

/-- Those after the loop around the wait, up to the change of `turn`. -/
def passed : Place → Bool
  | update | print | flip => true
  | _ => false

def updated : Place → Nat
  | print | flip | signal | unlock => 1
  | _ => 0

def printed : Place → Nat
  | flip | signal | unlock => 1
  | _ => 0

def flipped : Place → Nat
  | signal | unlock => 1
  | _ => 0

end Place

/-- The loop variable and what of the current round is done. -/
def progress (done : Place → Nat) (state : State) (side : Side) : Nat := state.i side + done (state.place side)

def alternating (count : Nat) : List Side :=
  (List.range count).map fun number => if number % 2 = 0 then .increment else .decrement

structure Sound (rounds : Nat) (state : State) : Prop where
  holder : ∀ side, state.mutex = some side ↔ (state.place side).critical = true
  bounded : ∀ side, state.i side ≤ rounds
  exited : ∀ side, state.place side = .exited → state.i side = rounds
  within : ∀ side, state.place side ≠ .exited → state.place side ≠ .head → state.i side < rounds
  passed : ∀ side, (state.place side).passed = true → state.turn = side.mine
  flips : progress Place.flipped state .increment = progress Place.flipped state .decrement + state.turn.toNat
  counted : state.count = UInt64.ofNat (progress Place.updated state .increment) -
    UInt64.ofNat (progress Place.updated state .decrement)
  printed : state.output =
    alternating (progress Place.printed state .increment + progress Place.printed state .decrement)
  /-- Whose turn it is does not sleep, once the signal is given. -/
  waits : ∀ side, state.place side = .asleep → state.turn ≠ side.mine ∨ state.place side.other = .signal

theorem initial_sound : Sound rounds State.initial := by
  constructor <;> simp [State.initial, progress, Place.critical, Place.passed, Place.flipped, Place.updated,
    Place.printed, alternating]

theorem Side.other_ne : side.other ≠ side := by cases side <;> decide

theorem Side.eq_or (x side : Side) : x = side ∨ x = side.other := by cases x <;> cases side <;> decide

theorem Side.mine_other : side.other.mine = !side.mine := by cases side <;> rfl

@[simp] theorem Side.other_other : side.other.other = side := by cases side <;> rfl

theorem alternating_succ {count : Nat} :
    alternating (count + 1) = alternating count ++ [if count % 2 = 0 then .increment else .decrement] := by
  rw [alternating, List.range_succ, List.map_append]
  rfl

/-- What is to be shown when one thread has gone on. -/
theorem Sound.move (sound : Sound rounds state) {place : Place}
    (moved : after.place = Function.update state.place side place)
    (others : after.i side.other = state.i side.other)
    (holder : after.mutex = some side ↔ place.critical = true)
    (free : after.mutex = some side.other ↔ state.mutex = some side.other)
    (bounded : after.i side ≤ rounds) (exited : place = .exited → after.i side = rounds)
    (within : place ≠ .exited → place ≠ .head → after.i side < rounds)
    (passed : place.passed = true → after.turn = side.mine)
    (kept : (state.place side.other).passed = true → after.turn = side.other.mine)
    (waits : place = .asleep → after.turn ≠ side.mine ∨ state.place side.other = .signal)
    (woken : state.place side.other = .asleep → after.turn ≠ side.other.mine ∨ place = .signal)
    (flips : progress Place.flipped after .increment = progress Place.flipped after .decrement + after.turn.toNat)
    (counted : after.count = UInt64.ofNat (progress Place.updated after .increment) -
      UInt64.ofNat (progress Place.updated after .decrement))
    (printed : after.output =
      alternating (progress Place.printed after .increment + progress Place.printed after .decrement)) :
    Sound rounds after := by
  have self : after.place side = place := by rw [moved, Function.update_self]
  have other : after.place side.other = state.place side.other := by
    rw [moved, Function.update_of_ne Side.other_ne]
  constructor
  · intro x
    obtain rfl | rfl := Side.eq_or x side
    · rwa [self]
    · rw [other, free, sound.holder]
  · intro x
    obtain rfl | rfl := Side.eq_or x side
    · exact bounded
    · exact others ▸ sound.bounded _
  · intro x
    obtain rfl | rfl := Side.eq_or x side
    · rwa [self]
    · rw [other, others]
      exact sound.exited _
  · intro x
    obtain rfl | rfl := Side.eq_or x side
    · rwa [self]
    · rw [other, others]
      exact sound.within _
  · intro x
    obtain rfl | rfl := Side.eq_or x side
    · rwa [self]
    · rwa [other]
  · exact flips
  · exact counted
  · exact printed
  · intro x
    obtain rfl | rfl := Side.eq_or x side
    · rwa [self, other]
    · rwa [other, Side.other_other, self]

theorem progress_at {done : Place → Nat} {place : Place} (here : state.place side = place) :
    progress done state side = state.i side + done place := by
  rw [progress, here]

theorem progress_self {done : Place → Nat} {place : Place}
    (moved : after.place = Function.update state.place side place) (same : after.i = state.i) :
    progress done after side = state.i side + done place := by
  rw [progress, moved, same, Function.update_self]

theorem progress_of_ne {done : Place → Nat} {place : Place} {x : Side} (apart : x ≠ side)
    (moved : after.place = Function.update state.place side place) (same : after.i = state.i) :
    progress done after x = progress done state x := by
  rw [progress, moved, same, Function.update_of_ne apart, progress]

/-- A move by which nothing of the round gets done. -/
theorem progress_quiet (done : Place → Nat) {place : Place} {x : Side}
    (moved : after.place = Function.update state.place side place) (same : after.i = state.i)
    (quiet : done place = done (state.place side)) : progress done after x = progress done state x := by
  by_cases here : x = side
  · rw [here, progress_self moved same, quiet, progress]
  · rw [progress_of_ne here moved same]

theorem Place.undone {place : Place} (undone : place.updated = 0) : place.printed = 0 ∧ place.flipped = 0 := by
  cases place <;> simp_all [updated, printed, flipped]

theorem Place.updated_of_uncritical {place : Place} (out : place.critical = false) : place.updated = 0 := by
  cases place <;> simp [critical, updated] at out ⊢

theorem count_up {a b : Nat} : UInt64.ofNat a - UInt64.ofNat b + 1 = UInt64.ofNat (a + 1) - UInt64.ofNat b := by
  rw [UInt64.ofNat_add]
  grind

theorem count_down {a b : Nat} : UInt64.ofNat a - UInt64.ofNat b - 1 = UInt64.ofNat a - UInt64.ofNat (b + 1) := by
  rw [UInt64.ofNat_add]
  grind

theorem Place.critical_of_passed {place : Place} (passed : place.passed = true) : place.critical = true := by
  cases place <;> simp [Place.passed, critical] at passed ⊢

namespace Sound

/-- A move outside what a round changes. -/
theorem quiet (sound : Sound rounds state) {place : Place} {mutex : Option Side}
    (before : (state.place side).updated = 0) (now : place.updated = 0)
    (holder : mutex = some side ↔ place.critical = true)
    (free : mutex = some side.other ↔ state.mutex = some side.other)
    (exited : place = .exited → state.i side = rounds)
    (within : place ≠ .exited → place ≠ .head → state.i side < rounds)
    (passed : place.passed = true → state.turn = side.mine)
    (waits : place = .asleep → state.turn ≠ side.mine) :
    Sound rounds ({ state with mutex }.at side place) := by
  have moved : ({ state with mutex }.at side place).place = Function.update state.place side place := rfl
  have flips (x : Side) := progress_quiet Place.flipped (x := x) moved rfl
    ((Place.undone now).2.trans (Place.undone before).2.symm)
  have counts (x : Side) := progress_quiet Place.updated (x := x) moved rfl (now.trans before.symm)
  have prints (x : Side) := progress_quiet Place.printed (x := x) moved rfl
    ((Place.undone now).1.trans (Place.undone before).1.symm)
  refine sound.move moved rfl holder free (sound.bounded side) exited within passed (sound.passed _)
    (fun asleep => .inl (waits asleep)) (fun asleep => .inl ?_) ?_ ?_ ?_
  · obtain turn | signal := sound.waits _ asleep
    · exact turn
    · rw [Side.other_other] at signal
      rw [signal] at before
      cases before
  · rw [flips, flips]
    exact sound.flips
  · rw [counts, counts]
    exact sound.counted
  · rw [prints, prints]
    exact sound.printed

theorem outside (sound : Sound rounds state) (uncritical : (state.place side).critical = false) :
    ¬ state.mutex = some side := by
  rw [sound.holder, uncritical]
  exact Bool.false_ne_true

theorem holds (sound : Sound rounds state) (critical : (state.place side).critical = true) :
    state.mutex = some side := (sound.holder side).mpr critical

theorem some_other {x : Side} (holds : state.mutex = some side) : state.mutex = some x ↔ x = side := by
  rw [holds, Option.some_inj]
  exact eq_comm

theorem head (sound : Sound rounds state) (here : state.place side = .head) :
    Sound rounds (state.at side (if state.i side < rounds then .lock else .exited)) := by
  have outside : ¬ state.mutex = some side := sound.outside (by rw [here]; rfl)
  have bounded := sound.bounded side
  split
  next more =>
    exact sound.quiet (by rw [here]; rfl) rfl (iff_of_false outside Bool.false_ne_true) Iff.rfl nofun
      (fun _ _ => more) nofun nofun
  next done =>
    exact sound.quiet (by rw [here]; rfl) rfl (iff_of_false outside Bool.false_ne_true) Iff.rfl (fun _ => by omega)
      (fun open_ => absurd rfl open_) nofun nofun

theorem acquire (sound : Sound rounds state) (undone : (state.place side).updated = 0) (within : state.i side < rounds)
    (acquired : state.acquire side = some after) : Sound rounds after := by
  rw [State.acquire, Option.ite_none_right_eq_some, Option.some_inj] at acquired
  obtain ⟨free, rfl⟩ := acquired
  refine sound.quiet undone rfl (iff_of_true rfl rfl) (iff_of_false ?_ ?_) nofun (fun _ _ => within) nofun nofun
  · rw [Option.some_inj]
    exact Side.other_ne.symm
  · rw [free]
    exact nofun

theorem test (sound : Sound rounds state) (here : state.place side = .test) (turn : state.turn = side.mine) :
    Sound rounds (state.at side .update) := by
  have holds : state.mutex = some side := sound.holds (by rw [here]; rfl)
  exact sound.quiet (by rw [here]; rfl) rfl (iff_of_true holds rfl) Iff.rfl nofun
    (fun _ _ => sound.within side (by simp [here]) (by simp [here])) (fun _ => turn) nofun

theorem wait (sound : Sound rounds state) (here : state.place side = .test) (turn : state.turn ≠ side.mine) :
    Sound rounds ({ state with mutex := none }.at side .asleep) := by
  have holds : state.mutex = some side := sound.holds (by rw [here]; rfl)
  refine sound.quiet (by rw [here]; rfl) rfl (iff_of_false nofun nofun) (iff_of_false nofun ?_) nofun
    (fun _ _ => sound.within side (by simp [here]) (by simp [here])) nofun (fun _ => turn)
  rw [some_other holds]
  exact Side.other_ne

/-- Without the mutex it is left to the thread whether it was a signal that woke it up. -/
theorem wake (sound : Sound rounds state) (here : state.place side = .asleep) :
    Sound rounds (state.at side .relock) := by
  have outside : ¬ state.mutex = some side := sound.outside (by rw [here]; rfl)
  exact sound.quiet (by rw [here]; rfl) rfl (iff_of_false outside Bool.false_ne_true) Iff.rfl nofun
    (fun _ _ => sound.within side (by simp [here]) (by simp [here])) nofun nofun

theorem away (sound : Sound rounds state) (critical : (state.place side).critical = true) :
    (state.place side.other).critical = false := by
  rw [← Bool.not_eq_true, ← sound.holder, some_other (sound.holds critical)]
  exact Side.other_ne

/-- A thread whose turn it is goes on inside the critical section. -/
theorem go_on (sound : Sound rounds state) {place : Place} (inside : (state.place side).passed = true)
    (moved : after.place = Function.update state.place side place) (critical : place.critical = true)
    (mutex : after.mutex = state.mutex) (same : after.i = state.i)
    (turn : place.passed = true → after.turn = state.turn) (ends : place.passed = false → place = .signal)
    (flips : progress Place.flipped after .increment = progress Place.flipped after .decrement + after.turn.toNat)
    (counted : after.count = UInt64.ofNat (progress Place.updated after .increment) -
      UInt64.ofNat (progress Place.updated after .decrement))
    (printed : after.output =
      alternating (progress Place.printed after .increment + progress Place.printed after .decrement)) :
    Sound rounds after := by
  have mine := sound.passed side inside
  have entered := Place.critical_of_passed inside
  have more : state.i side < rounds := by
    refine sound.within side ?_ ?_
    all_goals
      intro there
      rw [there] at inside
      cases inside
  refine sound.move moved (congrFun same _) ?_ ?_ ?_ ?_ (fun _ _ => ?_) ?_ ?_ ?_ ?_ flips counted printed
  · rw [mutex]
    exact iff_of_true (sound.holds entered) critical
  · rw [mutex]
  · rw [same]
    exact more.le
  · rintro rfl
    cases critical
  · rwa [same]
  · exact fun still => (turn still).trans mine
  · intro passed
    have out := sound.away entered
    rw [Place.critical_of_passed passed] at out
    cases out
  · rintro rfl
    cases critical
  · intro _
    cases still : place.passed with
    | true =>
        refine .inl ?_
        rw [turn still, mine, Side.mine_other]
        cases side <;> decide
    | false => exact .inr (ends still)

theorem counts (sound : Sound rounds state) (here : state.place side = .update) {count : UInt64}
    (counted : count = UInt64.ofNat (progress Place.updated ({ state with count }.at side .print) .increment) -
      UInt64.ofNat (progress Place.updated ({ state with count }.at side .print) .decrement)) :
    Sound rounds ({ state with count }.at side .print) := by
  have moved : ({ state with count }.at side .print).place = Function.update state.place side .print := rfl
  have flips (x : Side) := progress_quiet Place.flipped (x := x) moved rfl (by rw [here]; rfl)
  have prints (x : Side) := progress_quiet Place.printed (x := x) moved rfl (by rw [here]; rfl)
  refine sound.go_on (by rw [here]; rfl) moved rfl rfl rfl (fun _ => rfl) nofun ?_ counted ?_
  · rw [flips, flips]
    exact sound.flips
  · rw [prints, prints]
    exact sound.printed

theorem update (sound : Sound rounds state) (here : state.place side = .update)
    (gone : go rounds state side = some after) : Sound rounds after := by
  have counted := sound.counted
  cases side with
  | increment =>
      simp only [go, here, Option.some_inj] at gone
      subst gone
      refine sound.counts here ?_
      have moved : ({ state with count := state.count + 1 }.at .increment .print).place =
        Function.update state.place .increment .print := rfl
      rw [progress_at here] at counted
      rw [progress_self moved rfl, progress_of_ne (by decide) moved rfl, counted, count_up]
      rfl
  | decrement =>
      simp only [go, here, Option.some_inj] at gone
      subst gone
      refine sound.counts here ?_
      have moved : ({ state with count := state.count - 1 }.at .decrement .print).place =
        Function.update state.place .decrement .print := rfl
      rw [progress_at here] at counted
      rw [progress_self moved rfl, progress_of_ne (by decide) moved rfl, counted, count_down]
      rfl

/-- Where the other thread is outside the critical section, nothing of its round is done. -/
theorem rest (sound : Sound rounds state) (critical : (state.place side).critical = true) :
    progress Place.flipped state side.other = state.i side.other ∧
      progress Place.printed state side.other = state.i side.other := by
  have undone := Place.undone (Place.updated_of_uncritical (sound.away critical))
  rw [progress, progress, undone.1, undone.2]
  exact ⟨rfl, rfl⟩

theorem print (sound : Sound rounds state) (here : state.place side = .print) :
    Sound rounds ({ state with output := state.output ++ [side] }.at side .flip) := by
  have moved : ({ state with output := state.output ++ [side] }.at side .flip).place =
    Function.update state.place side .flip := rfl
  have flips (x : Side) := progress_quiet Place.flipped (x := x) moved rfl (by rw [here]; rfl)
  have counts (x : Side) := progress_quiet Place.updated (x := x) moved rfl (by rw [here]; rfl)
  refine sound.go_on (by rw [here]; rfl) moved rfl rfl rfl (fun _ => rfl) nofun ?_ ?_ ?_
  · rw [flips, flips]
    exact sound.flips
  · rw [counts, counts]
    exact sound.counted
  · have turn := sound.passed side (by rw [here]; rfl)
    obtain ⟨flipped, printed⟩ : progress Place.flipped state side.other = _ ∧ _ := sound.rest (by rw [here]; rfl)
    have before := sound.flips
    have output := sound.printed
    cases side with
    | increment =>
        have flipped : progress Place.flipped state .decrement = state.i .decrement := flipped
        have printed : progress Place.printed state .decrement = state.i .decrement := printed
        rw [progress_at here, flipped, turn] at before
        rw [progress_at here, printed] at output
        rw [progress_self moved rfl, progress_of_ne (by decide) moved rfl, printed]
        simp only [Place.flipped, Place.printed, Side.mine, Bool.toNat_false, Nat.add_zero] at before output ⊢
        rw [Nat.add_right_comm, alternating_succ, if_pos (by omega)]
        exact congrArg (· ++ [Side.increment]) output
    | decrement =>
        have flipped : progress Place.flipped state .increment = state.i .increment := flipped
        have printed : progress Place.printed state .increment = state.i .increment := printed
        rw [progress_at here, flipped, turn] at before
        rw [progress_at here, printed] at output
        rw [progress_self moved rfl, progress_of_ne (by decide) moved rfl, printed]
        simp only [Place.flipped, Place.printed, Side.mine, Bool.toNat_true, Nat.add_zero] at before output ⊢
        rw [← Nat.add_assoc, alternating_succ, if_neg (by omega)]
        exact congrArg (· ++ [Side.decrement]) output

theorem flip (sound : Sound rounds state) (here : state.place side = .flip) :
    Sound rounds ({ state with turn := !side.mine }.at side .signal) := by
  have moved : ({ state with turn := !side.mine }.at side .signal).place =
    Function.update state.place side .signal := rfl
  have counts (x : Side) := progress_quiet Place.updated (x := x) moved rfl (by rw [here]; rfl)
  have prints (x : Side) := progress_quiet Place.printed (x := x) moved rfl (by rw [here]; rfl)
  refine sound.go_on (by rw [here]; rfl) moved rfl rfl rfl nofun (fun _ => rfl) ?_ ?_ ?_
  · have turn := sound.passed side (by rw [here]; rfl)
    have before := sound.flips
    cases side with
    | increment =>
        rw [progress_at here, turn] at before
        rw [progress_self moved rfl, progress_of_ne (by decide) moved rfl]
        simp only [State.at, Place.flipped, Side.mine, Bool.toNat_false, Bool.not_false, Bool.toNat_true,
          Nat.add_zero] at before ⊢
        omega
    | decrement =>
        rw [progress_at here, turn] at before
        rw [progress_self moved rfl, progress_of_ne (by decide) moved rfl]
        simp only [State.at, Place.flipped, Side.mine, Bool.toNat_true, Bool.not_true, Bool.toNat_false,
          Nat.add_zero] at before ⊢
        omega
  · rw [counts, counts]
    exact sound.counted
  · rw [prints, prints]
    exact sound.printed

/-- The thread that was signalled may have woken up before. -/
theorem notify (sound : Sound rounds state) : Sound rounds (state.notify side) := by
  rw [State.notify]
  split
  next asleep => exact sound.wake asleep
  next => exact sound

theorem notify_place : (state.notify side).place side = state.place side := by
  rw [State.notify]
  split
  · exact Function.update_of_ne Side.other_ne.symm ..
  · rfl

theorem notify_other : (state.notify side).place side.other ≠ .asleep := by
  rw [State.notify]
  split
  next =>
    have there : (state.at side.other .relock).place side.other = .relock := Function.update_self ..
    rw [there]
    exact nofun
  next awake => exact awake

/-- After the signal the other thread does not sleep. -/
theorem signal (sound : Sound rounds state) (here : state.place side = .signal)
    (awake : state.place side.other ≠ .asleep) : Sound rounds (state.at side .unlock) := by
  have moved : (state.at side .unlock).place = Function.update state.place side .unlock := rfl
  have flips (x : Side) := progress_quiet Place.flipped (x := x) moved rfl (by rw [here]; rfl)
  have counts (x : Side) := progress_quiet Place.updated (x := x) moved rfl (by rw [here]; rfl)
  have prints (x : Side) := progress_quiet Place.printed (x := x) moved rfl (by rw [here]; rfl)
  have holds : state.mutex = some side := sound.holds (by rw [here]; rfl)
  refine sound.move moved rfl (iff_of_true holds rfl) Iff.rfl (sound.bounded side) nofun
    (fun _ _ => sound.within side (by simp [here]) (by simp [here])) nofun (sound.passed _) nofun
    (fun asleep => absurd asleep awake) ?_ ?_ ?_
  · rw [flips, flips]
    exact sound.flips
  · rw [counts, counts]
    exact sound.counted
  · rw [prints, prints]
    exact sound.printed

theorem unlock (sound : Sound rounds state) (here : state.place side = .unlock) :
    Sound rounds
      ({ state with mutex := none, i := Function.update state.i side (state.i side + 1) }.at side .head) := by
  have holds : state.mutex = some side := sound.holds (by rw [here]; rfl)
  have more := sound.within side (by simp [here]) (by simp [here])
  -- the round is done in both countings
  have done (part : Place → Nat) (all : part .unlock = 1) (zero : part .head = 0) (x : Side) :
      progress part
          ({ state with mutex := none, i := Function.update state.i side (state.i side + 1) }.at side .head) x =
        progress part state x := by
    by_cases same : x = side
    · subst x
      rw [progress_at here, all]
      simp [progress, State.at, zero]
    · simp [progress, State.at, same]
  refine sound.move rfl (Function.update_of_ne Side.other_ne ..) (iff_of_false nofun nofun) (iff_of_false nofun ?_)
    ?_ nofun (fun _ open_ => absurd rfl open_) nofun (sound.passed _) nofun (fun asleep => .inl ?_) ?_ ?_ ?_
  · rw [some_other holds]
    exact Side.other_ne
  · have next : Function.update state.i side (state.i side + 1) side = state.i side + 1 := Function.update_self ..
    exact next.trans_le more
  · obtain turn | signal := sound.waits _ asleep
    · exact turn
    · rw [Side.other_other, here] at signal
      cases signal
  · rw [done _ rfl rfl, done _ rfl rfl]
    exact sound.flips
  · rw [done _ rfl rfl, done _ rfl rfl]
    exact sound.counted
  · rw [done _ rfl rfl, done _ rfl rfl]
    exact sound.printed

theorem go (sound : Sound rounds state) (gone : go rounds state side = some after) : Sound rounds after := by
  cases here : state.place side with
  | head =>
      simp only [Turns.go, here, Option.some_inj] at gone
      exact gone ▸ sound.head here
  | lock =>
      simp only [Turns.go, here] at gone
      exact sound.acquire (by rw [here]; rfl) (sound.within side (by simp [here]) (by simp [here])) gone
  | test =>
      simp only [Turns.go, here] at gone
      split at gone
      next turn =>
        cases gone
        exact sound.test here turn
      next turn =>
        cases gone
        exact sound.wait here turn
  | asleep => simp only [Turns.go, here, reduceCtorEq] at gone
  | relock =>
      simp only [Turns.go, here] at gone
      exact sound.acquire (by rw [here]; rfl) (sound.within side (by simp [here]) (by simp [here])) gone
  | update => exact sound.update here gone
  | print =>
      simp only [Turns.go, here, Option.some_inj] at gone
      exact gone ▸ sound.print here
  | flip =>
      simp only [Turns.go, here, Option.some_inj] at gone
      exact gone ▸ sound.flip here
  | signal =>
      simp only [Turns.go, here, Option.some_inj] at gone
      exact gone ▸ sound.notify.signal (notify_place.trans here) notify_other
  | unlock =>
      simp only [Turns.go, here, Option.some_inj] at gone
      exact gone ▸ sound.unlock here
  | exited => simp only [Turns.go, here, reduceCtorEq] at gone

theorem step {action : Action} (sound : Sound rounds state) (stepped : step rounds state action = some after) :
    Sound rounds after := by
  cases action with
  | go side => exact sound.go stepped
  | wake side =>
      rw [Turns.step, Option.ite_none_right_eq_some, Option.some_inj] at stepped
      exact stepped.2 ▸ sound.wake stepped.1

/-- The thread that has counted up and not yet down makes the only difference. -/
theorem count_cases (sound : Sound rounds state) : state.count = 0 ∨ state.count = 1 := by
  have counted := sound.counted
  have flips := sound.flips
  have ahead (x : Side) : (state.place x).passed = true ∨
      progress Place.updated state x = progress Place.flipped state x := by
    rw [progress, progress]
    cases state.place x <;> simp [Place.passed, Place.updated, Place.flipped]
  have most (x : Side) : progress Place.flipped state x ≤ progress Place.updated state x ∧
      progress Place.updated state x ≤ progress Place.flipped state x + 1 := by
    rw [progress, progress]
    cases state.place x <;> simp [Place.updated, Place.flipped]
  have first := most .increment
  have second := most .decrement
  have difference : progress Place.updated state .increment = progress Place.updated state .decrement ∨
      progress Place.updated state .increment = progress Place.updated state .decrement + 1 := by
    cases turn : state.turn with
    | false =>
        rw [turn, Bool.toNat_false] at flips
        obtain passed | still := ahead .decrement
        · have mine := sound.passed _ passed
          rw [turn] at mine
          cases mine
        · omega
    | true =>
        rw [turn, Bool.toNat_true] at flips
        obtain passed | still := ahead .increment
        · have mine := sound.passed _ passed
          rw [turn] at mine
          cases mine
        · omega
  obtain same | more := difference
  · rw [same, UInt64.sub_self] at counted
    exact .inl counted
  · rw [more, ← count_up, UInt64.sub_self] at counted
    exact .inr counted

/-- When both threads have returned. -/
theorem ended (sound : Sound rounds state) (both : ∀ side, state.place side = .exited) :
    state.count = 0 ∧ state.output = alternating (2 * rounds) := by
  have counted := sound.counted
  have printed := sound.printed
  have all (done : Place → Nat) (zero : done .exited = 0) (side : Side) : progress done state side = rounds := by
    rw [progress, both side, zero, sound.exited side (both side)]
    rfl
  rw [all _ rfl, all _ rfl, UInt64.sub_self] at counted
  rw [all _ rfl, all _ rfl, ← Nat.two_mul] at printed
  exact ⟨counted, printed⟩

/-- A thread that cannot go on sleeps, has returned or is kept out by the other. -/
theorem stuck (sound : Sound rounds state) (stops : Turns.go rounds state side = none) :
    state.place side = .asleep ∨ state.place side = .exited ∨ state.mutex = some side.other := by
  have kept (blocked : state.acquire side = none) (here : (state.place side).critical = false) :
      state.mutex = some side.other := by
    rw [State.acquire, ite_eq_right_iff] at blocked
    cases holder : state.mutex with
    | none => cases blocked holder
    | some x =>
        obtain rfl | rfl := Side.eq_or x side
        · have inside := (sound.holder x).mp holder
          rw [here] at inside
          cases inside
        · rfl
  cases here : state.place side with
  | asleep => exact .inl rfl
  | exited => exact .inr (.inl rfl)
  | lock =>
      simp only [Turns.go, here] at stops
      exact .inr (.inr (kept stops (by rw [here]; rfl)))
  | relock =>
      simp only [Turns.go, here] at stops
      exact .inr (.inr (kept stops (by rw [here]; rfl)))
  | test =>
      simp only [Turns.go, here] at stops
      split at stops <;> cases stops
  | _ => simp only [Turns.go, here, reduceCtorEq] at stops

/-- One of the threads can go on. -/
theorem enabled (sound : Sound rounds state) (open_ : ∃ side, state.place side ≠ .exited) :
    ∃ side after, Turns.go rounds state side = some after := by
  by_contra none
  have stops (side : Side) : Turns.go rounds state side = .none := by
    cases gone : Turns.go rounds state side with
    | none => rfl
    | some after => exact absurd ⟨side, after, gone⟩ none
  -- the thread that holds the mutex could go on
  have quiet (side : Side) : state.place side = .asleep ∨ state.place side = .exited := by
    obtain asleep | exited | holds := sound.stuck (stops side)
    · exact .inl asleep
    · exact .inr exited
    · have critical := (sound.holder _).mp holds
      obtain asleep | exited | back := sound.stuck (stops side.other)
      · rw [asleep] at critical
        cases critical
      · rw [exited] at critical
        cases critical
      · rw [some_other holds] at back
        exact absurd back Side.other_ne
  obtain ⟨side, present⟩ := open_
  have asleep := (quiet side).resolve_right present
  have waits : state.turn ≠ side.mine := by
    obtain turn | signal := sound.waits side asleep
    · exact turn
    · obtain other | other := quiet side.other <;> rw [signal] at other <;> cases other
  obtain also | gone := quiet side.other
  · have turn : state.turn ≠ side.other.mine := by
      obtain turn | signal := sound.waits _ also
      · exact turn
      · rw [Side.other_other, asleep] at signal
        cases signal
    rw [Side.mine_other] at turn
    cases mine : side.mine <;> simp_all
  · have flips := sound.flips
    have last := sound.exited _ gone
    have more := sound.within side (by simp [asleep]) (by simp [asleep])
    cases side with
    | increment =>
        have turn : state.turn = true := by simpa [Side.mine] using waits
        have gone : state.place .decrement = .exited := gone
        have last : state.i .decrement = rounds := last
        rw [progress_at asleep, progress_at gone, turn] at flips
        simp only [Place.flipped, Bool.toNat_true] at flips
        omega
    | decrement =>
        have turn : state.turn = false := by simpa [Side.mine] using waits
        have gone : state.place .increment = .exited := gone
        have last : state.i .increment = rounds := last
        rw [progress_at asleep, progress_at gone, turn] at flips
        simp only [Place.flipped, Bool.toNat_false] at flips
        omega

end Sound

theorem run_sound {actions : List Action} (completed : run (step rounds) State.initial actions = some state) :
    Sound rounds state :=
  run_invariant (Sound rounds) (fun _ _ _ sound stepped => sound.step stepped) initial_sound completed

/-! ### They come to an end -/

/-- The steps to the end of a round, with a wait before it and the waking of the other thread in it. -/
def Place.left : Place → Nat
  | head => 11
  | lock => 10
  | test => 9
  | asleep => 8
  | relock => 10
  | update => 8
  | print => 7
  | flip => 6
  | signal => 5
  | unlock => 1
  | exited => 0

def left (rounds : Nat) (state : State) (side : Side) : Nat :=
  11 * (rounds - state.i side) + (state.place side).left

def work (rounds : Nat) (state : State) : Nat := left rounds state .increment + left rounds state .decrement

theorem work_eq : work rounds state = left rounds state side + left rounds state side.other := by
  cases side
  · rfl
  · exact Nat.add_comm ..

theorem work_move {place : Place} (moved : after.place = Function.update state.place side place)
    (same : after.i = state.i) :
    work rounds after + (state.place side).left = work rounds state + place.left := by
  have self : left rounds after side = 11 * (rounds - state.i side) + place.left := by
    rw [left, moved, same, Function.update_self]
  have other : left rounds after side.other = left rounds state side.other := by
    rw [left, moved, same, Function.update_of_ne Side.other_ne, left]
  have before : left rounds state side = 11 * (rounds - state.i side) + (state.place side).left := rfl
  have total : work rounds state = left rounds state side + _ := work_eq
  have now : work rounds after = left rounds after side + _ := work_eq
  omega

theorem work_notify : work rounds (state.notify side) ≤ work rounds state + 2 := by
  rw [State.notify]
  split
  next asleep =>
    have moved : work rounds (state.at side.other .relock) + (state.place side.other).left = _ := work_move rfl rfl
    rw [asleep] at moved
    simp only [Place.left] at moved
    omega
  next => omega

theorem work_forward {old place : Place} (here : state.place side = old)
    (moved : after.place = Function.update state.place side place) (same : after.i = state.i)
    (nearer : place.left < old.left) : work rounds after < work rounds state := by
  have total : work rounds after + _ = _ := work_move moved same
  rw [here] at total
  omega

theorem work_acquire {old : Place} (here : state.place side = old) (nearer : 9 < old.left)
    (acquired : state.acquire side = some after) : work rounds after < work rounds state := by
  rw [State.acquire, Option.ite_none_right_eq_some, Option.some_inj] at acquired
  obtain ⟨_, rfl⟩ := acquired
  exact work_forward here rfl rfl nearer

/-- Each step that a thread takes brings the end nearer. -/
theorem Sound.work_go (sound : Sound rounds state) (gone : Turns.go rounds state side = some after) :
    work rounds after < work rounds state := by
  cases here : state.place side with
  | head =>
      simp only [Turns.go, here, Option.some_inj] at gone
      subst gone
      refine work_forward here rfl rfl ?_
      split <;> decide
  | lock =>
      simp only [Turns.go, here] at gone
      exact work_acquire here (by decide) gone
  | test =>
      simp only [Turns.go, here] at gone
      split at gone
      next => exact Option.some.inj gone ▸ work_forward here rfl rfl (by decide)
      next => exact Option.some.inj gone ▸ work_forward here rfl rfl (by decide)
  | asleep => simp only [Turns.go, here, reduceCtorEq] at gone
  | relock =>
      simp only [Turns.go, here] at gone
      exact work_acquire here (by decide) gone
  | update =>
      simp only [Turns.go, here, Option.some_inj] at gone
      exact gone ▸ work_forward here rfl rfl (by decide)
  | print =>
      simp only [Turns.go, here, Option.some_inj] at gone
      exact gone ▸ work_forward here rfl rfl (by decide)
  | flip =>
      simp only [Turns.go, here, Option.some_inj] at gone
      exact gone ▸ work_forward here rfl rfl (by decide)
  | signal =>
      simp only [Turns.go, here, Option.some_inj] at gone
      subst gone
      have moved : work rounds ((state.notify side).at side .unlock) + ((state.notify side).place side).left = _ :=
        work_move rfl rfl
      have woken : work rounds (state.notify side) ≤ _ := work_notify
      rw [Sound.notify_place, here] at moved
      simp only [Place.left] at moved
      omega
  | unlock =>
      simp only [Turns.go, here, Option.some_inj] at gone
      have more := sound.within side (by simp [here]) (by simp [here])
      have self : left rounds after side = 11 * (rounds - (state.i side + 1)) + 11 := by
        rw [left, ← gone]
        simp [State.at, Place.left]
      have other : left rounds after side.other = left rounds state side.other := by
        rw [left, ← gone]
        simp [State.at, Side.other_ne, left]
      have before : left rounds state side = 11 * (rounds - state.i side) + 1 := by
        rw [left, here]
        rfl
      have total : work rounds state = left rounds state side + _ := work_eq
      have now : work rounds after = left rounds after side + _ := work_eq
      omega
  | exited => simp only [Turns.go, here, reduceCtorEq] at gone

def Action.isGo : Action → Bool
  | go _ => true
  | wake _ => false

/-- The steps of a run are paid for by the work at its start and by the wakeups without a signal. -/
theorem run_work {actions : List Action} (sound : Sound rounds state)
    (completed : run (step rounds) state actions = some after) :
    (actions.filter Action.isGo).length + work rounds after ≤
      work rounds state + 2 * (actions.filter fun action => !action.isGo).length := by
  induction actions generalizing state with
  | nil =>
      cases completed
      simp
  | cons action rest ih =>
      obtain ⟨next, stepped, remaining⟩ := run_cons_iff.mp completed
      have later := ih (sound.step stepped) remaining
      cases action with
      | go side =>
          have nearer := sound.work_go stepped
          rw [List.filter_cons_of_pos rfl, List.filter_cons_of_neg Bool.false_ne_true, List.length_cons]
          omega
      | wake side =>
          rw [step, Option.ite_none_right_eq_some, Option.some_inj] at stepped
          obtain ⟨asleep, rfl⟩ := stepped
          have moved : work rounds (state.at side .relock) + (state.place side).left = _ := work_move rfl rfl
          rw [asleep] at moved
          simp only [Place.left] at moved
          rw [List.filter_cons_of_neg Bool.false_ne_true, List.filter_cons_of_pos rfl, List.length_cons]
          omega

/-- In every interleaving the threads print in turns, beginning with the one that counts up, are never both
between locking and unlocking, and leave the counter at zero or one; at the end it is zero. -/
theorem turns_alternate (actions : List Action) (completed : run (step rounds) State.initial actions = some state) :
    state.output = alternating state.output.length ∧
      (∀ first second, (state.place first).critical = true → (state.place second).critical = true → first = second) ∧
      (state.count = 0 ∨ state.count = 1) ∧
      ((∀ side, state.place side = .exited) → state.count = 0 ∧ state.output = alternating (2 * rounds)) := by
  have sound := run_sound completed
  refine ⟨?_, fun first second one two => ?_, sound.count_cases, sound.ended⟩
  · have printed := sound.printed
    have length := congrArg List.length printed
    rw [alternating, List.length_map, List.length_range] at length
    rwa [← length] at printed
  · exact (Sound.some_other (sound.holds two)).mp (sound.holds one)

/-- One round of each, in which the second thread waits for the first. -/
theorem turns_alternate_once : ∃ state, run (step 1) State.initial
    (List.replicate 3 (.go .decrement) ++ List.replicate 9 (.go .increment) ++ List.replicate 8 (.go .decrement)) =
      some state ∧ state.count = 0 ∧ state.output = [.increment, .decrement] := by
  obtain ⟨state, completed, first, second⟩ : ∃ state, run (step 1) State.initial
      (List.replicate 3 (.go .decrement) ++ List.replicate 9 (.go .increment) ++ List.replicate 8 (.go .decrement)) =
        some state ∧ state.place .increment = .exited ∧ state.place .decrement = .exited := ⟨_, rfl, rfl, rfl⟩
  refine ⟨state, completed, (turns_alternate _ completed).2.2.2 fun side => ?_⟩
  cases side
  · exact first
  · exact second

/-- No wakeup is lost: until both have returned one of the threads can go on, and apart from the wakeups
without a signal a run takes at most so many steps. -/
theorem turns_complete (actions : List Action) (completed : run (step rounds) State.initial actions = some state) :
    ((∃ side, state.place side ≠ .exited) → ∃ side after, go rounds state side = some after) ∧
      (actions.filter Action.isGo).length ≤
        22 * rounds + 22 + 2 * (actions.filter fun action => !action.isGo).length := by
  refine ⟨(run_sound completed).enabled, ?_⟩
  have paid := run_work initial_sound completed
  have begins : work rounds State.initial = 22 * rounds + 22 := by
    simp only [work, left, State.initial, Place.left]
    omega
  omega

/-- The thread that counts down sleeps, and the other one goes on. -/
theorem turns_complete_asleep : ∃ state,
    run (step 10) State.initial (List.replicate 3 (.go .decrement)) = some state ∧
      state.place .decrement = .asleep ∧ ∃ side after, go 10 state side = some after :=
  ⟨_, rfl, rfl, (turns_complete (List.replicate 3 (.go .decrement)) rfl).1 ⟨.increment, by decide⟩⟩

end HundredDays.Turns
