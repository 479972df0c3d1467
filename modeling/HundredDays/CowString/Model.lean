import Mathlib.Data.Finset.Basic
import Mathlib.Logic.Function.Basic

namespace HundredDays.CowString

/-! Strings that share their characters until one of them is written.

A pointer to a `StringData` is the number of its allocation, and reading or writing what
is not there is a fault.
-/

structure StringData where
  data : List UInt8
  length : Nat
  refCount : Nat
deriving DecidableEq, Repr

/-- The blocks that are allocated, the handles that exist and the `buffer_` of each. -/
structure State where
  blocks : Nat → Option StringData
  allocated : Nat
  handles : Finset Nat
  buffer : Nat → Option Nat
  /-- The characters that were read. -/
  output : List UInt8

inductive Stop where
  /-- Memory is accessed that is not there. -/
  | fault
  /-- The call is none: a handle that does or does not exist, or an assertion that fails. -/
  | refused
deriving DecidableEq, Repr

namespace State

def start : State :=
  { blocks := fun _ => none, allocated := 0, handles := ∅, buffer := fun _ => none, output := [] }

def setBlock (state : State) (pointer : Nat) (block : Option StringData) : State :=
  { state with blocks := Function.update state.blocks pointer block }

def setBuffer (state : State) (handle : Nat) (pointer : Option Nat) : State :=
  { state with buffer := Function.update state.buffer handle pointer }

/-- Follow a pointer. -/
def block (state : State) (pointer : Nat) : Except Stop StringData :=
  match state.blocks pointer with
  | none => .error .fault
  | some block => .ok block

end State

/-- Without a terminator `strlen` reads beyond the end. -/
def strlen (str : List UInt8) : Except Stop Nat := if 0 ∈ str then .ok (str.idxOf 0) else .error .fault

/-- `new StringData(str)`, where `str` is what is in memory from the pointer on. -/
def newStringData (state : State) (str : List UInt8) : Except Stop (Nat × State) := do
  let length ← strlen str
  let pointer := state.allocated
  let state := { state with allocated := pointer + 1 }
  return (pointer, state.setBlock pointer (some { data := str.take (length + 1), length, refCount := 1 }))

/-- What assignment and destructor do to the string that a handle gives up. -/
def release (state : State) (handle : Nat) : Except Stop State :=
  match state.buffer handle with
  | none => .ok state
  | some pointer => do
      let block ← state.block pointer
      let block := { block with refCount := block.refCount - 1 }
      return state.setBlock pointer (if block.refCount = 0 then none else some block)

/-- What copying and assignment do to the string that a handle takes. -/
def retain (state : State) (handle : Nat) : Except Stop State :=
  match state.buffer handle with
  | none => .ok state
  | some pointer => do
      let block ← state.block pointer
      return state.setBlock pointer (some { block with refCount := block.refCount + 1 })

def detachIfShared (state : State) (handle : Nat) : Except Stop State :=
  match state.buffer handle with
  | none => .ok state
  | some pointer => do
      let block ← state.block pointer
      if block.refCount > 1 then
        let (newBuf, state) ← newStringData state block.data
        let state := state.setBlock pointer (some { block with refCount := block.refCount - 1 })
        return state.setBuffer handle (some newBuf)
      else return state

/-- `assert(buffer_ && index < buffer_->length)` -/
def assertIndex (state : State) (handle index : Nat) : Except Stop Unit :=
  match state.buffer handle with
  | none => .error .refused
  | some pointer => do
      let block ← state.block pointer
      if index < block.length then return () else .error .refused

/-- The character that the reference of `operator[]` leads to. -/
def character (state : State) (handle index : Nat) : Except Stop UInt8 :=
  match state.buffer handle with
  | none => .error .fault
  | some pointer => do
      let block ← state.block pointer
      match block.data[index]? with
      | none => .error .fault
      | some char => return char

def setCharacter (state : State) (handle index : Nat) (char : UInt8) : Except Stop State :=
  match state.buffer handle with
  | none => .error .fault
  | some pointer => do
      let block ← state.block pointer
      if index < block.data.length then
        return state.setBlock pointer (some { block with data := block.data.set index char })
      else .error .fault

inductive Call where
  /-- From the characters at a pointer, of which those up to the first 0 are the string. -/
  | construct (handle : Nat) (str : List UInt8)
  | copy (handle other : Nat)
  | assign (handle other : Nat)
  | write (handle index : Nat) (char : UInt8)
  /-- Reading through the `operator[]` that is not `const`, and through the one that is. -/
  | access (handle index : Nat)
  | read (handle index : Nat)
  | destroy (handle : Nat)
deriving DecidableEq, Repr

def perform (state : State) : Call → Except Stop State
  | .construct handle str =>
      if handle ∈ state.handles then .error .refused
      else do
        let (pointer, state) ← newStringData state (str ++ [0])
        let state := { state with handles := insert handle state.handles }
        return state.setBuffer handle (some pointer)
  | .copy handle other =>
      if handle ∈ state.handles ∨ other ∉ state.handles then .error .refused
      else
        let state := { state with handles := insert handle state.handles }
        let state := state.setBuffer handle (state.buffer other)
        retain state handle
  | .assign handle other =>
      if handle ∉ state.handles ∨ other ∉ state.handles then .error .refused
      else if handle ≠ other then do
        let state ← release state handle
        let state := state.setBuffer handle (state.buffer other)
        retain state handle
      else return state
  | .write handle index char =>
      if handle ∉ state.handles then .error .refused
      else do
        assertIndex state handle index
        let state ← detachIfShared state handle
        setCharacter state handle index char
  | .access handle index =>
      if handle ∉ state.handles then .error .refused
      else do
        assertIndex state handle index
        let state ← detachIfShared state handle
        let char ← character state handle index
        return { state with output := state.output ++ [char] }
  | .read handle index =>
      if handle ∉ state.handles then .error .refused
      else do
        assertIndex state handle index
        let char ← character state handle index
        return { state with output := state.output ++ [char] }
  | .destroy handle =>
      if handle ∉ state.handles then .error .refused
      else do
        let state ← release state handle
        return { state with handles := state.handles.erase handle }

def step (state : State) (call : Call) : Option State := (perform state call).toOption

/-! ### Copies by value -/

/-- Strings that share nothing. -/
structure Values where
  handles : Finset Nat
  value : Nat → List UInt8
  output : List UInt8

namespace Values

def start : Values := { handles := ∅, value := fun _ => [], output := [] }

def step (values : Values) : Call → Option Values
  | .construct handle str =>
      if handle ∈ values.handles then none
      else some { values with
        handles := insert handle values.handles
        value := Function.update values.value handle (str.takeWhile (· ≠ 0)) }
  | .copy handle other =>
      if handle ∈ values.handles ∨ other ∉ values.handles then none
      else some { values with
        handles := insert handle values.handles
        value := Function.update values.value handle (values.value other) }
  | .assign handle other =>
      if handle ∉ values.handles ∨ other ∉ values.handles then none
      else some { values with value := Function.update values.value handle (values.value other) }
  | .write handle index char =>
      if handle ∈ values.handles ∧ index < (values.value handle).length then
        some { values with value := Function.update values.value handle ((values.value handle).set index char) }
      else none
  | .access handle index | .read handle index =>
      if handle ∉ values.handles then none
      else (values.value handle)[index]?.map fun char => { values with output := values.output ++ [char] }
  | .destroy handle =>
      if handle ∉ values.handles then none else some { values with handles := values.handles.erase handle }

end Values

end HundredDays.CowString
