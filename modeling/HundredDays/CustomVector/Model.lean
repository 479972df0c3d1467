import HundredDays.Memory.Backend
import HundredDays.Memory.LittleEndian

namespace HundredDays.CustomVector

open HundredDays.Memory

/-! The vector of `int` over an allocator that is passed in.

The allocator keeps its state behind `ctx`.  Reading or writing through a null pointer
is undefined and has no result.
-/

def sizeofInt : Nat := 4

def alignofInt : Nat := 4

def loadInt (memory : Nat → UInt8) (address : Nat) : Int32 := (UInt32.ofNat (loadLE memory address sizeofInt)).toInt32

def storeInt (memory : Nat → UInt8) (address : Nat) (val : Int32) : Nat → UInt8 :=
  storeLE memory address sizeofInt val.toUInt32.toNat

structure CustomVector where
  data : Option Nat
  size : Nat
  capacity : Nat

/-- The state of the allocator, the memory, and the calls of the allocator so far. -/
structure World (σ : Type) where
  ctx : σ
  memory : Nat → UInt8
  history : List Event

variable {σ : Type}

def World.allocate (world : World σ) (backend : Backend σ) (size align : Nat) : Option Nat × World σ :=
  let (result, ctx, memory) := backend.allocate world.ctx world.memory size align
  let event := match result with
    | some start => .obtained ⟨start, size⟩
    | none => .refused size
  (result, { ctx, memory, history := world.history ++ [event] })

def World.deallocate (world : World σ) (backend : Backend σ) (ptr size : Nat) : World σ :=
  let (ctx, memory) := backend.deallocate world.ctx world.memory ptr size
  { ctx, memory, history := world.history ++ [.released ⟨ptr, size⟩] }

def vecCreate : CustomVector := { data := none, size := 0, capacity := 0 }

/-- The first elements of the new buffer from those of the old. -/
def copyInts (memory : Nat → UInt8) (newData : Nat) (data : Option Nat) : Nat → Option (Nat → UInt8)
  | 0 => some memory
  | count + 1 => (copyInts memory newData data count).bind fun memory => data.map fun data =>
      storeInt memory (newData + sizeofInt * count) (loadInt memory (data + sizeofInt * count))

/-- The element behind the last one. -/
def append (vec : CustomVector) (val : Int32) (world : World σ) : Option (Bool × CustomVector × World σ) :=
  vec.data.map fun data => (true, { vec with size := vec.size + 1 },
    { world with memory := storeInt world.memory (data + sizeofInt * vec.size) val })

def release (backend : Backend σ) (vec : CustomVector) (world : World σ) : World σ :=
  match vec.data with
  | some data => world.deallocate backend data (vec.capacity * sizeofInt % 2 ^ 64)
  | none => world

def vecPushBack (backend : Backend σ) (vec : CustomVector) (val : Int32) (world : World σ) :
    Option (Bool × CustomVector × World σ) :=
  if vec.size ≥ vec.capacity then
    let newCap := if vec.capacity = 0 then 4 else vec.capacity * 2 % 2 ^ 64
    let newBytes := newCap * sizeofInt % 2 ^ 64
    match world.allocate backend newBytes alignofInt with
    | (none, world) => some (false, vec, world)
    | (some newData, world) =>
        (copyInts world.memory newData vec.data vec.size).bind fun memory =>
          append { vec with data := some newData, capacity := newCap } val
            (release backend vec { world with memory := memory })
  else append vec val world

def CustomVector.contents (vec : CustomVector) (memory : Nat → UInt8) : List Int32 :=
  match vec.data with
  | some data => (List.range vec.size).map fun index => loadInt memory (data + sizeofInt * index)
  | none => []

/-- The vector and its surroundings, with the values that were accepted. -/
structure Session (σ : Type) where
  vec : CustomVector
  world : World σ
  accepted : List Int32

/-- Whether a request was refused. -/
def failure : Event → Option Bool
  | .obtained _ => some false
  | .refused _ => some true
  | .released _ => none

namespace Session

def initial (ctx : σ) (memory : Nat → UInt8) : Session σ where
  vec := vecCreate
  world := { ctx, memory, history := [] }
  accepted := []

def contents (session : Session σ) : List Int32 := session.vec.contents session.world.memory

/-- Which of the requests so far were refused. -/
def failures (session : Session σ) : List Bool := session.world.history.filterMap failure

def push (backend : Backend σ) (session : Session σ) (val : Int32) : Option (Session σ) :=
  (vecPushBack backend session.vec val session.world).map fun (pushed, vec, world) =>
    { vec, world, accepted := if pushed then session.accepted ++ [val] else session.accepted }

end Session

end HundredDays.CustomVector
