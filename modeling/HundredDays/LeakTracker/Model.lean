import HundredDays.Semantics.Run
import Mathlib.Data.Finset.Card
import Mathlib.Data.List.Nodup
import Mathlib.Logic.Function.Basic

namespace HundredDays.LeakTracker

/-! The operators `new` and `delete` that record what is allocated, called by any number
of threads.  `malloc`, the two critical sections and `free` are the steps.
-/

abbrev Address := Nat

structure AllocEntry where
  ptr : Address
  size : Nat
  isArray : Bool
deriving DecidableEq

def MAX_RECORDS : Nat := 1024

/-- A line that is printed. -/
structure Report where
  text : String
  ptr : Address
deriving DecidableEq

def mismatchedDelete (ptr : Address) : Report := ⟨"[ERROR] Mismatched delete for ", ptr⟩

def invalidDelete (ptr : Address) : Report := ⟨"[ERROR] Invalid or double delete for ", ptr⟩

/-- The entries in use, after `add_record`.  `inside` is the thread's `g_inside_tracker`. -/
def addRecord (inside : Bool) (ptr : Option Address) (size : Nat) (isArray : Bool) (gAllocMap : List AllocEntry) :
    List AllocEntry :=
  match ptr with
  | none => gAllocMap
  | some ptr =>
      if inside then gAllocMap
      else if gAllocMap.length < MAX_RECORDS then gAllocMap ++ [{ ptr, size, isArray }]
      else gAllocMap

/-- `g_alloc_map[i] = g_alloc_map[--g_alloc_count]` -/
def swapOut (gAllocMap : List AllocEntry) (i : Nat) (entry : AllocEntry) : List AllocEntry :=
  let count := gAllocMap.length - 1
  (gAllocMap.set i (gAllocMap.getD count entry)).take count

/-- The entries in use after `remove_record`, and what it prints. -/
def removeRecord (inside : Bool) (ptr : Option Address) (isArray : Bool) (gAllocMap : List AllocEntry) :
    List AllocEntry × List Report :=
  match ptr with
  | none => (gAllocMap, [])
  | some ptr =>
      if inside then (gAllocMap, [])
      else
        match gAllocMap.findIdx? fun entry => entry.ptr = ptr with
        | none => (gAllocMap, [invalidDelete ptr])
        | some i =>
            match gAllocMap[i]? with
            | none => (gAllocMap, [])
            | some entry =>
                (swapOut gAllocMap i entry, if entry.isArray ≠ isArray then [mismatchedDelete ptr] else [])

/-- Where a thread is in a call.  In `freeing` it is noted whether the block was live. -/
inductive Phase where
  | idle
  | mallocking (size : Nat) (isArray : Bool)
  | recording (entry : AllocEntry)
  | removing (ptr : Option Address) (isArray : Bool)
  | freeing (ptr : Option Address) (wasLive : Bool)
deriving DecidableEq

/-- With the blocks that `malloc` has given out and `free` has not got back, and those of
them that are live: recorded by `new`, and not yet given to `delete`. -/
structure State (Thread : Type) where
  gAllocMap : List AllocEntry
  gInsideTracker : Thread → Bool
  phase : Thread → Phase
  blocks : Finset AllocEntry
  live : Finset AllocEntry
  output : List Report

/-- What a thread does next.  The size of a sized `delete` is ignored. -/
inductive Action (Thread : Type) where
  | new (thread : Thread) (size : Nat) (isArray : Bool)
  | malloc (thread : Thread) (result : Option Address)
  | addRecord (thread : Thread)
  | delete (thread : Thread) (ptr : Option Address) (isArray : Bool) (size : Option Nat)
  | removeRecord (thread : Thread)
  | free (thread : Thread)

namespace State

variable {Thread : Type}

def initial : State Thread where
  gAllocMap := []
  gInsideTracker := fun _ => false
  phase := fun _ => .idle
  blocks := ∅
  live := ∅
  output := []

variable [DecidableEq Thread] (state : State Thread)

def goto (thread : Thread) (phase : Phase) : State Thread :=
  { state with phase := Function.update state.phase thread phase }

@[simp] theorem goto_phase {thread : Thread} {phase : Phase} :
    (state.goto thread phase).phase = Function.update state.phase thread phase := rfl

/-- Some block of the set is at the address. -/
def isAt (blocks : Finset AllocEntry) (ptr : Option Address) : Prop := ∃ block ∈ blocks, some block.ptr = ptr

instance {blocks : Finset AllocEntry} {ptr : Option Address} : Decidable (isAt blocks ptr) :=
  inferInstanceAs (Decidable (∃ block ∈ blocks, some block.ptr = ptr))

/-- The blocks that are not at the address. -/
def without (blocks : Finset AllocEntry) (ptr : Option Address) : Finset AllocEntry :=
  blocks.filter fun block => some block.ptr ≠ ptr

/-- `malloc` returns no address that is allocated; where there is no memory, `new` throws. -/
def step : Action Thread → Option (State Thread)
  | .new thread size isArray =>
      match state.phase thread with
      | .idle => some (state.goto thread (.mallocking size isArray))
      | _ => none
  | .malloc thread result =>
      match state.phase thread with
      | .mallocking size isArray =>
          match result with
          | none => some (state.goto thread .idle)
          | some ptr =>
              if isAt state.blocks (some ptr) then none
              else some { state.goto thread (.recording { ptr, size, isArray }) with
                blocks := insert { ptr, size, isArray } state.blocks }
      | _ => none
  | .addRecord thread =>
      match state.phase thread with
      | .recording entry => some { state.goto thread .idle with
          gAllocMap := LeakTracker.addRecord (state.gInsideTracker thread) (some entry.ptr) entry.size
            entry.isArray state.gAllocMap
          live := insert entry state.live }
      | _ => none
  | .delete thread ptr isArray _ =>
      match state.phase thread with
      | .idle => some (state.goto thread (.removing ptr isArray))
      | _ => none
  | .removeRecord thread =>
      match state.phase thread with
      | .removing ptr isArray =>
          let removed := LeakTracker.removeRecord (state.gInsideTracker thread) ptr isArray state.gAllocMap
          some { state.goto thread (.freeing ptr (isAt state.live ptr)) with
            gAllocMap := removed.1
            live := without state.live ptr
            output := state.output ++ removed.2 }
      | _ => none
  | .free thread =>
      match state.phase thread with
      | .freeing ptr _ => some { state.goto thread .idle with blocks := without state.blocks ptr }
      | _ => none

end State

end HundredDays.LeakTracker
