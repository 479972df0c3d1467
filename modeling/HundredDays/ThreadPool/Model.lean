import Mathlib.Data.Fintype.Basic
import Mathlib.Logic.Function.Basic

namespace HundredDays.ThreadPool

/-! The thread pool: a ring of tasks under one mutex and one condition variable.

What a thread does between locking and unlocking the mutex, or waiting, is one step.
The threads that call `threadpool_add` have no state of their own: any thread, a task
included, may add a task at any time before `threadpool_destroy` frees the pool.
`threadpool_create` has succeeded, so that all workers have been created.
-/

variable {F A : Type} {threads : Nat}

structure Task (F A : Type) where
  func : F
  args : A

structure Pool (F A : Type) where
  tasks : Nat → Task F A
  capacity : Nat
  head : Nat
  tail : Nat
  count : Nat
  shutdown : Bool

def threadpoolCreate (capacity : Nat) (tasks : Nat → Task F A) : Pool F A :=
  { tasks, capacity, head := 0, tail := 0, count := 0, shutdown := false }

/-- What a worker finds after it has locked the mutex, or was woken. -/
inductive Section (F A : Type) where
  | wait
  | exit
  | run (task : Task F A) (pool : Pool F A)

def workerThread (pool : Pool F A) : Section F A :=
  if pool.count = 0 ∧ ¬ pool.shutdown then .wait
  else if pool.shutdown ∧ pool.count = 0 then .exit
  else .run (pool.tasks pool.head)
    { pool with head := (pool.head + 1) % pool.capacity, count := pool.count - 1 }

/-- The result and the pool; the condition is signalled when the result is 0. -/
def threadpoolAdd (pool : Pool F A) (func : Option F) (args : A) : Int × Pool F A :=
  match func with
  | none => (-1, pool)
  | some func =>
      if pool.count = pool.capacity ∨ pool.shutdown then (-1, pool)
      else (0, { pool with
        tasks := Function.update pool.tasks pool.tail { func, args }
        tail := (pool.tail + 1) % pool.capacity
        count := pool.count + 1 })

inductive Worker (F A : Type) where
  /-- Before the mutex: just created, done with a task, or woken. -/
  | ready
  /-- Blocked in `pthread_cond_wait`. -/
  | waiting
  /-- Running a task, the how-manieth to leave the queue. -/
  | running (task : Task F A) (number : Nat)
  | exited

def Worker.isWaiting : Worker F A → Bool
  | waiting => true
  | _ => false

def Worker.isExited : Worker F A → Bool
  | exited => true
  | _ => false

inductive Destroyer where
  | idle
  /-- In the loop of `pthread_join`. -/
  | joining (next : Nat)
  | returned
  deriving DecidableEq

structure State (F A : Type) (threads : Nat) where
  pool : Pool F A
  workers : Fin threads → Worker F A
  destroyer : Destroyer
  /-- The tasks whose add returned 0, and those whose add returned -1. -/
  accepted : List (Task F A)
  refused : List (Option F × A)
  /-- The tasks that a worker took to run, in this order. -/
  taken : List (Task F A)
  /-- The numbers of the tasks that have run to their end. -/
  finished : List Nat

def State.initial (threads capacity : Nat) (tasks : Nat → Task F A) : State F A threads :=
  { pool := threadpoolCreate capacity tasks, workers := fun _ => .ready, destroyer := .idle
    accepted := [], refused := [], taken := [], finished := [] }

inductive Action (F A : Type) (threads : Nat) where
  /-- A worker goes on from the mutex. -/
  | work (worker : Fin threads)
  /-- The task of a worker returns. -/
  | finish (worker : Fin threads)
  /-- A worker wakes up by itself. -/
  | wake (worker : Fin threads)
  /-- A call of `threadpool_add`, with the worker that its signal wakes. -/
  | add (func : Option F) (args : A) (woken : Option (Fin threads))
  | destroy
  | join

/-- A signal wakes one of the waiting workers, if there are any. -/
def signal (workers : Fin threads → Worker F A) (woken : Option (Fin threads)) :
    Option (Fin threads → Worker F A) :=
  match woken with
  | some worker => if (workers worker).isWaiting then some (Function.update workers worker .ready) else none
  | none => if ∃ worker, (workers worker).isWaiting then none else some workers

def broadcast (workers : Fin threads → Worker F A) : Fin threads → Worker F A := fun worker =>
  if (workers worker).isWaiting then .ready else workers worker

def step (state : State F A threads) : Action F A threads → Option (State F A threads)
  | .work worker =>
      match state.workers worker with
      | .ready =>
          match workerThread state.pool with
          | .wait => some { state with workers := Function.update state.workers worker .waiting }
          | .exit => some { state with workers := Function.update state.workers worker .exited }
          | .run task pool =>
              some { state with
                pool
                workers := Function.update state.workers worker (.running task state.taken.length)
                taken := state.taken ++ [task] }
      | _ => none
  | .finish worker =>
      match state.workers worker with
      | .running _ number =>
          some { state with
            workers := Function.update state.workers worker .ready
            finished := number :: state.finished }
      | _ => none
  | .wake worker =>
      match state.workers worker with
      | .waiting => some { state with workers := Function.update state.workers worker .ready }
      | _ => none
  | .add func args woken =>
      if state.destroyer = .returned then none
      else
        let (result, pool) := threadpoolAdd state.pool func args
        if result = 0 then
          (signal state.workers woken).map fun workers =>
            { state with
              pool, workers
              accepted := state.accepted ++ (func.map fun func => { func, args }).toList }
        else some { state with pool, refused := (func, args) :: state.refused }
  | .destroy =>
      match state.destroyer with
      | .idle =>
          some { state with
            pool := { state.pool with shutdown := true }
            workers := broadcast state.workers
            destroyer := .joining 0 }
      | _ => none
  | .join =>
      match state.destroyer with
      | .joining next =>
          if inside : next < threads then
            if (state.workers ⟨next, inside⟩).isExited then some { state with destroyer := .joining (next + 1) }
            else none
          else some { state with destroyer := .returned }
      | _ => none

end HundredDays.ThreadPool
