import Mathlib.Algebra.Order.Ring.Int
import Mathlib.Data.Finset.Union
import Mathlib.Data.Finset.Range
import Mathlib.Logic.Function.Basic

namespace HundredDays.SharedPtr

/-! `MySharedPtr`, with handles in variables and in the objects that are managed.

An object is what its fields of type `MySharedPtr` are. Pointers to objects and control
blocks are the numbers of their allocations, so that nothing is found where something was
deleted, and an access there is a fault.
-/

structure ControlBlock where
  ptr : Option Nat
  refcount : Int
deriving DecidableEq, Repr

/-- A handle is a variable or a field of an object. -/
inductive Handle where
  | var (name : Nat)
  | field (object index : Nat)
deriving DecidableEq, Repr

structure State where
  /-- The number of handles in an object that is allocated. -/
  objects : Nat → Option Nat
  ctrls : Nat → Option ControlBlock
  nextObject : Nat
  nextCtrl : Nat
  scope : Finset Nat
  ctrl : Handle → Option Nat

inductive Stop where
  /-- Memory is accessed that is not there. -/
  | fault
  /-- An `int` leaves its range. -/
  | overflow
  | unfinished
  /-- The call is none: a handle that does or does not exist. -/
  | refused
deriving DecidableEq, Repr

namespace State

def start : State :=
  { objects := fun _ => none, ctrls := fun _ => none, nextObject := 0, nextCtrl := 0, scope := ∅,
    ctrl := fun _ => none }

/-- The memory of the handle is there. -/
def Present (state : State) : Handle → Prop
  | .var name => name ∈ state.scope
  | .field object index => ∃ count, state.objects object = some count ∧ index < count

instance (state : State) : DecidablePred state.Present
  | .var name => inferInstanceAs (Decidable (name ∈ state.scope))
  | .field object index =>
      match found : state.objects object with
      | none => isFalse (by simp [Present, found])
      | some count => decidable_of_iff (index < count) (by simp [Present, found])

/-- The handles that exist. -/
def handles (state : State) : Finset Handle :=
  state.scope.image .var ∪ (Finset.range state.nextObject).biUnion fun object =>
    (Finset.range ((state.objects object).getD 0)).image (.field object)

def block (state : State) (pointer : Nat) : Except Stop ControlBlock :=
  match state.ctrls pointer with
  | none => .error .fault
  | some block => .ok block

def setBlock (state : State) (pointer : Nat) (block : Option ControlBlock) : State :=
  { state with ctrls := Function.update state.ctrls pointer block }

/-- Read the member `ctrl` of a handle. -/
def member (state : State) (handle : Handle) : Except Stop (Option Nat) :=
  if state.Present handle then .ok (state.ctrl handle) else .error .fault

def setMember (state : State) (handle : Handle) (pointer : Option Nat) : Except Stop State :=
  if state.Present handle then .ok { state with ctrl := Function.update state.ctrl handle pointer }
  else .error .fault

end State

def intMax : Int := 2 ^ 31 - 1

/-- `ctrl->refcount++` and `ctrl->refcount--` -/
def count (state : State) (pointer : Nat) (change : Int) : Except Stop State := do
  let block ← state.block pointer
  let refcount := block.refcount + change
  if -intMax - 1 ≤ refcount ∧ refcount ≤ intMax then
    return state.setBlock pointer (some { block with refcount })
  else .error .overflow

/-- The fields are destroyed in the reverse of their order. -/
def destroyFields (release : State → Handle → Except Stop State) (object : Nat) :
    Nat → State → Except Stop State
  | 0, state => .ok state
  | index + 1, state => do
      let state ← release state (.field object index)
      destroyFields release object index state

/-- `delete ctrl->ptr`, which does nothing to a null pointer. -/
def deleteObject (release : State → Handle → Except Stop State) (state : State) : Option Nat → Except Stop State
  | none => .ok state
  | some object =>
      match state.objects object with
      | none => .error .fault
      | some fields => do
          let state ← destroyFields release object fields state
          return { state with objects := Function.update state.objects object none }

/-- `delete ctrl` -/
def deleteCtrl (state : State) : Option Nat → Except Stop State
  | none => .ok state
  | some pointer => do
      let _ ← state.block pointer
      return state.setBlock pointer none

/-- Destroying an object releases the handles in it: the first argument bounds the depth. -/
def release : Nat → State → Handle → Except Stop State
  | 0, _, _ => .error .unfinished
  | depth + 1, state, handle => do
      match ← state.member handle with
      | none => return state
      | some pointer =>
          let state ← count state pointer (-1)
          let block ← state.block pointer
          if block.refcount = 0 then
            let state ← deleteObject (release depth) state block.ptr
            deleteCtrl state (← state.member handle)
          else return state

/-- Every release on the way to another takes the last handle from one control block. -/
def State.release (state : State) (handle : Handle) : Except Stop State :=
  SharedPtr.release (state.nextCtrl + 1) state handle

/-- The constructor from a pointer. -/
def construct (state : State) (handle : Handle) (ptr : Option Nat) : State :=
  { state with
    ctrls := Function.update state.ctrls state.nextCtrl (some { ptr, refcount := 1 })
    nextCtrl := state.nextCtrl + 1
    ctrl := Function.update state.ctrl handle (some state.nextCtrl) }

/-- The fields of a new object are null pointers. -/
def constructFields (object : Nat) : Nat → State → State
  | 0, state => state
  | index + 1, state => construct (constructFields object index state) (.field object index) none

/-- `new T` -/
def newObject (state : State) (fields : Nat) : Nat × State :=
  let object := state.nextObject
  let state := { state with
    objects := Function.update state.objects object (some fields), nextObject := object + 1 }
  (object, constructFields object fields state)

/-- `ctrl = other.ctrl; ctrl->refcount++` -/
def adopt (state : State) (handle other : Handle) : Except Stop State := do
  let pointer ← state.member other
  let state ← state.setMember handle pointer
  match pointer with
  | none => .error .fault
  | some pointer => count state pointer 1

inductive Call where
  /-- From a null pointer, or from a new object with so many fields. -/
  | construct (name : Nat) (fields : Option Nat)
  | copy (name : Nat) (other : Handle)
  | assign (handle other : Handle)
  | destroy (name : Nat)
deriving DecidableEq, Repr

def perform (state : State) : Call → Except Stop State
  | .construct name fields =>
      if name ∈ state.scope then .error .refused
      else
        match fields with
        | none => return construct { state with scope := insert name state.scope } (.var name) none
        | some fields =>
            let (object, state) := newObject state fields
            return construct { state with scope := insert name state.scope } (.var name) (some object)
  | .copy name other =>
      if name ∈ state.scope ∨ ¬ state.Present other then .error .refused
      else adopt { state with scope := insert name state.scope } (.var name) other
  | .assign handle other =>
      if ¬ state.Present handle ∨ ¬ state.Present other then .error .refused
      else if handle ≠ other then do
        let state ← state.release handle
        adopt state handle other
      else return state
  | .destroy name =>
      if name ∉ state.scope then .error .refused
      else do
        let state ← state.release (.var name)
        return { state with scope := state.scope.erase name }

def step (state : State) (call : Call) : Option State := (perform state call).toOption

end HundredDays.SharedPtr
