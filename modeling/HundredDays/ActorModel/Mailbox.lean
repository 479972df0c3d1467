import HundredDays.Data.Census
import HundredDays.Semantics.Run

namespace HundredDays.ActorModel

open HundredDays.Data HundredDays.Semantics

/-! The mailbox: a queue under one mutex, with one condition variable for those that wait
for room and for those that wait for a message.

What a thread does between locking the mutex and unlocking it, or waiting, is one step.
-/

/-- How far a thread is in `push` or `pop`. -/
inductive Phase (Message : Type) where
  | idle
  /-- Before the mutex: just called, or woken. -/
  | push (msg : Message)
  | pop
  /-- Blocked in `cv.wait`. -/
  | waitPush (msg : Message)
  | waitPop

variable {Message : Type} {threads : Nat}

structure Mailbox (Message : Type) (threads : Nat) where
  queue : List Message
  capacity : Nat
  phase : Fin threads → Phase Message
  /-- What the pops have returned. -/
  popped : List (Fin threads × Message)

def Mailbox.initial (threads capacity : Nat) : Mailbox Message threads :=
  { queue := [], capacity, phase := fun _ => .idle, popped := [] }

/-- The thread goes on from the mutex once it is woken. -/
def Phase.woken : Phase Message → Option (Phase Message)
  | waitPush msg => some (push msg)
  | waitPop => some pop
  | _ => none

/-- `cv.notify_one` wakes one of the waiting threads, if there are any. -/
def notifyOne (phase : Fin threads → Phase Message) (chosen : Option (Fin threads)) :
    Option (Fin threads → Phase Message) :=
  match chosen with
  | some thread => (phase thread).woken.map fun woken => Function.update phase thread woken
  | none => if ∃ thread, (phase thread).woken.isSome then none else some phase

inductive Action (Message : Type) (threads : Nat) where
  | push (thread : Fin threads) (msg : Message)
  | pop (thread : Fin threads)
  /-- The critical section of a thread, with the thread that its notification wakes. -/
  | enter (thread : Fin threads) (chosen : Option (Fin threads))
  /-- A thread wakes up by itself. -/
  | wake (thread : Fin threads)

/-- The critical section of a thread in `push` or `pop`. -/
def Mailbox.critical (mailbox : Mailbox Message threads) (thread : Fin threads) (chosen : Option (Fin threads)) :
    Option (Mailbox Message threads) :=
  match mailbox.phase thread with
  | .push msg =>
      if mailbox.queue.length < mailbox.capacity then
        (notifyOne (Function.update mailbox.phase thread .idle) chosen).map fun phase =>
          { mailbox with queue := mailbox.queue ++ [msg], phase }
      else some { mailbox with phase := Function.update mailbox.phase thread (.waitPush msg) }
  | .pop =>
      match mailbox.queue with
      | msg :: rest =>
          (notifyOne (Function.update mailbox.phase thread .idle) chosen).map fun phase =>
            { mailbox with queue := rest, phase, popped := mailbox.popped ++ [(thread, msg)] }
      | [] => some { mailbox with phase := Function.update mailbox.phase thread .waitPop }
  | _ => none

def step (mailbox : Mailbox Message threads) : Action Message threads → Option (Mailbox Message threads)
  | .push thread msg =>
      match mailbox.phase thread with
      | .idle => some { mailbox with phase := Function.update mailbox.phase thread (.push msg) }
      | _ => none
  | .pop thread =>
      match mailbox.phase thread with
      | .idle => some { mailbox with phase := Function.update mailbox.phase thread .pop }
      | _ => none
  | .enter thread chosen => mailbox.critical thread chosen
  | .wake thread =>
      (mailbox.phase thread).woken.map fun woken =>
        { mailbox with phase := Function.update mailbox.phase thread woken }

/-- Every thread in a call waits, and one of them could go on. -/
structure Stuck (mailbox : Mailbox Message threads) : Prop where
  blocked : ∀ thread, mailbox.phase thread = .idle ∨ (mailbox.phase thread).woken.isSome
  servable : (∃ thread, mailbox.phase thread = .waitPop) ∧ mailbox.queue ≠ [] ∨
    (∃ thread msg, mailbox.phase thread = .waitPush msg) ∧ mailbox.queue.length < mailbox.capacity

/-- A message goes to a pop that waits and room goes to a push that waits, whenever there is one. -/
def Served (mailbox : Mailbox Message threads) : Action Message threads → Prop
  | .enter thread chosen =>
      match mailbox.phase thread with
      | .push _ => mailbox.queue.length < mailbox.capacity → (∃ other, mailbox.phase other = .waitPop) →
          ∃ other, chosen = some other ∧ mailbox.phase other = .waitPop
      | .pop => mailbox.queue ≠ [] → (∃ other msg, mailbox.phase other = .waitPush msg) →
          ∃ other msg, chosen = some other ∧ mailbox.phase other = .waitPush msg
      | _ => True
  | _ => True

def Phase.pushing : Phase Message → Nat
  | push _ => 1
  | _ => 0

def Phase.popping : Phase Message → Nat
  | pop => 1
  | _ => 0

variable {mailbox after : Mailbox Message threads} {phases woken : Fin threads → Phase Message}
  {thread other : Fin threads} {phase : Phase Message} {chosen : Option (Fin threads)} {msg : Message}

/-- While a pop waits, each message has a thread on its way to it; and so has each free place
while a push waits. -/
structure Flowing (mailbox : Mailbox Message threads) : Prop where
  pops : (∃ thread, mailbox.phase thread = .waitPop) → mailbox.queue.length ≤ census Phase.popping mailbox.phase
  pushes : (∃ thread msg, mailbox.phase thread = .waitPush msg) →
    mailbox.capacity ≤ mailbox.queue.length + census Phase.pushing mailbox.phase

theorem initial_flowing (threads capacity : Nat) : Flowing (Mailbox.initial threads capacity : Mailbox Message threads) := by
  constructor
  · intro ⟨thread, waits⟩
    cases waits
  · intro ⟨thread, msg, waits⟩
    cases waits

theorem waitPop_of_update (waits : ∃ each, Function.update phases thread phase each = .waitPop)
    (ready : phase ≠ .waitPop) : ∃ each, phases each = .waitPop := by
  obtain ⟨each, waiting⟩ := waits
  by_cases here : each = thread
  · rw [here, Function.update_self] at waiting
    exact absurd waiting ready
  · rw [Function.update_of_ne here] at waiting
    exact ⟨each, waiting⟩

theorem waitPush_of_update (waits : ∃ each msg, Function.update phases thread phase each = .waitPush msg)
    (ready : ∀ msg, phase ≠ .waitPush msg) : ∃ each msg, phases each = .waitPush msg := by
  obtain ⟨each, msg, waiting⟩ := waits
  by_cases here : each = thread
  · rw [here, Function.update_self] at waiting
    exact absurd waiting (ready msg)
  · rw [Function.update_of_ne here] at waiting
    exact ⟨each, msg, waiting⟩

/-- What a woken thread goes on with. -/
theorem woken_spec {ready : Phase Message} (wakes : phase.woken = some ready) :
    (∀ msg, ready ≠ .waitPush msg) ∧ ready ≠ .waitPop ∧ phase.pushing = 0 ∧ phase.popping = 0 := by
  cases phase with
  | waitPush msg =>
      cases wakes
      simp [Phase.pushing, Phase.popping]
  | waitPop =>
      cases wakes
      simp [Phase.pushing, Phase.popping]
  | _ => cases wakes

/-- A notification only wakes. -/
theorem notifyOne_spec (notified : notifyOne phases chosen = some woken) :
    ((∃ each, woken each = .waitPop) → ∃ each, phases each = .waitPop) ∧
    ((∃ each msg, woken each = .waitPush msg) → ∃ each msg, phases each = .waitPush msg) ∧
    census Phase.popping phases ≤ census Phase.popping woken ∧
    census Phase.pushing phases ≤ census Phase.pushing woken := by
  unfold notifyOne at notified
  cases chosen with
  | none =>
      dsimp only at notified
      split at notified <;> cases notified
      exact ⟨id, id, Nat.le_refl _, Nat.le_refl _⟩
  | some thread =>
      obtain ⟨ready, wakes, rfl⟩ := Option.map_eq_some_iff.mp notified
      obtain ⟨noPush, noPop, pushing, popping⟩ := woken_spec wakes
      have pops := census_update Phase.popping phases thread ready
      have pushes := census_update Phase.pushing phases thread ready
      refine ⟨fun waits => waitPop_of_update waits noPop, fun waits => waitPush_of_update waits noPush, ?_, ?_⟩
      · omega
      · omega

namespace Flowing

/-- A thread that does not wait comes nearer to its critical section. -/
theorem advance (flowing : Flowing mailbox) (noPush : ∀ msg, phase ≠ .waitPush msg) (noPop : phase ≠ .waitPop)
    (pops : (mailbox.phase thread).popping = 0) (pushes : (mailbox.phase thread).pushing = 0) :
    Flowing { mailbox with phase := Function.update mailbox.phase thread phase } := by
  have popping := census_update Phase.popping mailbox.phase thread phase
  have pushing := census_update Phase.pushing mailbox.phase thread phase
  constructor
  · intro waits
    have enough := flowing.pops (waitPop_of_update waits noPop)
    show mailbox.queue.length ≤ census Phase.popping (Function.update mailbox.phase thread phase)
    omega
  · intro waits
    have enough := flowing.pushes (waitPush_of_update waits noPush)
    show mailbox.capacity ≤ mailbox.queue.length + census Phase.pushing (Function.update mailbox.phase thread phase)
    omega

theorem push (flowing : Flowing mailbox) (enters : mailbox.phase thread = .push msg)
    (served : (∃ other, mailbox.phase other = .waitPop) →
      ∃ other, chosen = some other ∧ mailbox.phase other = .waitPop)
    (notified : notifyOne (Function.update mailbox.phase thread .idle) chosen = some woken) :
    Flowing { mailbox with queue := mailbox.queue ++ [msg], phase := woken } := by
  obtain ⟨stillPop, stillPush, morePops, morePushes⟩ := notifyOne_spec notified
  have popping := census_update Phase.popping mailbox.phase thread .idle
  have pushing := census_update Phase.pushing mailbox.phase thread .idle
  rw [enters] at popping pushing
  simp only [Phase.popping, Phase.pushing] at popping pushing
  constructor
  · intro waits
    have waited := waitPop_of_update (stillPop waits) (by simp)
    have enough := flowing.pops waited
    obtain ⟨other, rfl, waiting⟩ := served waited
    have different : other ≠ thread := by
      intro same
      rw [same, enters] at waiting
      cases waiting
    have found : Function.update mailbox.phase thread .idle other = .waitPop := by
      rw [Function.update_of_ne different, waiting]
    simp only [notifyOne, found, Phase.woken, Option.map_some, Option.some.injEq] at notified
    have one := census_update Phase.popping (Function.update mailbox.phase thread .idle) other .pop
    rw [found] at one
    simp only [Phase.popping] at one
    rw [notified] at one
    show (mailbox.queue ++ [msg]).length ≤ census Phase.popping woken
    rw [List.length_append, List.length_singleton]
    omega
  · intro waits
    have enough := flowing.pushes (waitPush_of_update (stillPush waits) (by simp))
    show mailbox.capacity ≤ (mailbox.queue ++ [msg]).length + census Phase.pushing woken
    rw [List.length_append, List.length_singleton]
    omega

theorem pop {rest : List Message} (flowing : Flowing mailbox) (enters : mailbox.phase thread = .pop)
    (holds : mailbox.queue = msg :: rest)
    (served : (∃ other msg, mailbox.phase other = .waitPush msg) →
      ∃ other msg, chosen = some other ∧ mailbox.phase other = .waitPush msg)
    (notified : notifyOne (Function.update mailbox.phase thread .idle) chosen = some woken) :
    Flowing { mailbox with queue := rest, phase := woken, popped := mailbox.popped ++ [(thread, msg)] } := by
  obtain ⟨stillPop, stillPush, morePops, morePushes⟩ := notifyOne_spec notified
  have popping := census_update Phase.popping mailbox.phase thread .idle
  have pushing := census_update Phase.pushing mailbox.phase thread .idle
  rw [enters] at popping pushing
  simp only [Phase.popping, Phase.pushing] at popping pushing
  have before : mailbox.queue.length = rest.length + 1 := by rw [holds, List.length_cons]
  constructor
  · intro waits
    have enough := flowing.pops (waitPop_of_update (stillPop waits) (by simp))
    show rest.length ≤ census Phase.popping woken
    omega
  · intro waits
    have waited := waitPush_of_update (stillPush waits) (by simp)
    have enough := flowing.pushes waited
    obtain ⟨other, later, rfl, waiting⟩ := served waited
    have different : other ≠ thread := by
      intro same
      rw [same, enters] at waiting
      cases waiting
    have found : Function.update mailbox.phase thread .idle other = .waitPush later := by
      rw [Function.update_of_ne different, waiting]
    simp only [notifyOne, found, Phase.woken, Option.map_some, Option.some.injEq] at notified
    have one := census_update Phase.pushing (Function.update mailbox.phase thread .idle) other (.push later)
    rw [found] at one
    simp only [Phase.pushing] at one
    rw [notified] at one
    show mailbox.capacity ≤ rest.length + census Phase.pushing woken
    omega

/-- A push that finds the queue full waits with no place free. -/
theorem push_waits (flowing : Flowing mailbox) (enters : mailbox.phase thread = .push msg)
    (full : ¬ mailbox.queue.length < mailbox.capacity) :
    Flowing { mailbox with phase := Function.update mailbox.phase thread (.waitPush msg) } := by
  have popping := census_update Phase.popping mailbox.phase thread (.waitPush msg)
  rw [enters] at popping
  simp only [Phase.popping] at popping
  constructor
  · intro waits
    have enough := flowing.pops (waitPop_of_update waits (by simp))
    show mailbox.queue.length ≤ census Phase.popping (Function.update mailbox.phase thread (.waitPush msg))
    omega
  · intro waits
    show mailbox.capacity ≤ mailbox.queue.length + _
    omega

/-- A pop that finds the queue empty waits with no message left. -/
theorem pop_waits (flowing : Flowing mailbox) (enters : mailbox.phase thread = .pop) (empty : mailbox.queue = []) :
    Flowing { mailbox with phase := Function.update mailbox.phase thread .waitPop } := by
  have pushing := census_update Phase.pushing mailbox.phase thread .waitPop
  rw [enters] at pushing
  simp only [Phase.pushing] at pushing
  constructor
  · intro waits
    show mailbox.queue.length ≤ _
    rw [empty]
    exact Nat.zero_le _
  · intro waits
    have enough := flowing.pushes (waitPush_of_update waits (by simp))
    show mailbox.capacity ≤ mailbox.queue.length + census Phase.pushing (Function.update mailbox.phase thread .waitPop)
    omega

theorem enter (flowing : Flowing mailbox) (served : Served mailbox (.enter thread chosen))
    (stepped : mailbox.critical thread chosen = some after) : Flowing after := by
  unfold Mailbox.critical at stepped
  simp only [Served] at served
  cases enters : mailbox.phase thread with
  | push msg =>
      simp only [enters] at stepped served
      by_cases room : mailbox.queue.length < mailbox.capacity
      · rw [if_pos room] at stepped
        obtain ⟨woken, notified, rfl⟩ := Option.map_eq_some_iff.mp stepped
        exact flowing.push enters (served room) notified
      · rw [if_neg room] at stepped
        cases stepped
        exact flowing.push_waits enters room
  | pop =>
      simp only [enters] at stepped served
      cases holds : mailbox.queue with
      | nil =>
          simp only [holds] at stepped
          cases stepped
          have waits := flowing.pop_waits enters holds
          rwa [holds] at waits
      | cons msg rest =>
          simp only [holds] at stepped
          obtain ⟨woken, notified, rfl⟩ := Option.map_eq_some_iff.mp stepped
          exact flowing.pop enters holds (served (by simp [holds])) notified
  | _ =>
      simp only [enters] at stepped
      cases stepped

theorem step (flowing : Flowing mailbox) {action : Action Message threads} (served : Served mailbox action)
    (stepped : ActorModel.step mailbox action = some after) : Flowing after := by
  cases action with
  | push thread msg =>
      simp only [ActorModel.step] at stepped
      split at stepped <;> cases stepped
      next idle => exact flowing.advance (by simp) (by simp) (by rw [idle]; rfl) (by rw [idle]; rfl)
  | pop thread =>
      simp only [ActorModel.step] at stepped
      split at stepped <;> cases stepped
      next idle => exact flowing.advance (by simp) (by simp) (by rw [idle]; rfl) (by rw [idle]; rfl)
  | enter thread chosen => exact flowing.enter served stepped
  | wake thread =>
      obtain ⟨ready, wakes, rfl⟩ := Option.map_eq_some_iff.mp stepped
      obtain ⟨noPush, noPop, pushing, popping⟩ := woken_spec wakes
      exact flowing.advance noPush noPop popping pushing

theorem not_stuck (flowing : Flowing mailbox) : ¬ Stuck mailbox := by
  intro ⟨blocked, servable⟩
  have pops : census Phase.popping mailbox.phase = 0 := by
    refine census_eq_zero.mpr fun thread => ?_
    rcases blocked thread with idle | waits
    · rw [idle]
      rfl
    · obtain ⟨_, wakes⟩ := Option.isSome_iff_exists.mp waits
      exact (woken_spec wakes).2.2.2
  have pushes : census Phase.pushing mailbox.phase = 0 := by
    refine census_eq_zero.mpr fun thread => ?_
    rcases blocked thread with idle | waits
    · rw [idle]
      rfl
    · obtain ⟨_, wakes⟩ := Option.isSome_iff_exists.mp waits
      exact (woken_spec wakes).2.2.1
  rcases servable with ⟨waits, holds⟩ | ⟨waits, room⟩
  · have enough := flowing.pops waits
    rw [pops] at enough
    exact holds (List.length_eq_zero_iff.mp (Nat.le_zero.mp enough))
  · have enough := flowing.pushes waits
    omega

end Flowing

/-- As long as each notification goes to a thread that can use it, no state is stuck. -/
theorem served_never_stuck {capacity : Nat} {actions : List (Action Message threads)}
    (served : Meets step Served (Mailbox.initial threads capacity) actions)
    (reached : run step (Mailbox.initial threads capacity) actions = some after) : ¬ Stuck after :=
  (run_invariant_meeting Flowing (fun _ _ _ flowing met stepped => flowing.step met stepped)
    (initial_flowing threads capacity) served reached).not_stuck

/-- A push that wakes the pop that waits. -/
theorem served_never_stuck_hand_over : ∃ after : Mailbox Nat 2,
    run step (Mailbox.initial 2 1) [.pop 0, .enter 0 none, .push 1 7, .enter 1 (some 0), .enter 0 none] = some after ∧
      ¬ Stuck after := by
  have served : Meets step Served (Mailbox.initial 2 1 : Mailbox Nat 2)
      [.pop 0, .enter 0 none, .push 1 7, .enter 1 (some 0), .enter 0 none] := by
    refine ⟨trivial, fun _ called => ?_⟩
    cases called
    refine ⟨fun holds => absurd rfl holds, fun _ waits => ?_⟩
    cases waits
    refine ⟨trivial, fun _ called => ?_⟩
    cases called
    refine ⟨fun _ _ => ⟨0, rfl, rfl⟩, fun _ pushed => ?_⟩
    cases pushed
    refine ⟨fun _ waits => ?_, fun _ _ => trivial⟩
    obtain ⟨other, msg, waiting⟩ := waits
    match other, waiting with
    | 0, waiting => cases waiting
    | 1, waiting => cases waiting
  exact ⟨_, rfl, served_never_stuck served rfl⟩

/-- Two pushes and a pop wait; the notification of the push that got room wakes the other push,
which finds the queue full. -/
theorem notification_lost_among_pushes : ∃ (actions : List (Action Nat 3)) (after : Mailbox Nat 3),
    run step (Mailbox.initial 3 1) actions = some after ∧ Stuck after := by
  refine ⟨[.push 1 10, .enter 1 none, .push 1 11, .enter 1 none, .push 2 20, .enter 2 none,
    .pop 0, .enter 0 (some 1), .pop 0, .enter 0 none, .enter 1 (some 2), .enter 2 none], _, rfl, ?_, ?_⟩
  · intro thread
    match thread with
    | 0 => exact Or.inr rfl
    | 1 => exact Or.inl rfl
    | 2 => exact Or.inr rfl
  · exact Or.inl ⟨⟨0, rfl⟩, by simp⟩

end HundredDays.ActorModel
