import HundredDays.Memory.LittleEndian
import HundredDays.Memory.Malloc
import HundredDays.Memory.File

namespace HundredDays.PagedStorage

open HundredDays.Memory

def pageSize : Nat := 4096

def cacheCapacity : Nat := 10

def hashMapSize : Nat := cacheCapacity * 2

/-- The `PAGE_SIZE` data bytes of a page. -/
abbrev Bytes := Fin pageSize → UInt8

namespace Bytes

def zero : Bytes := fun _ => 0

def memory (data : Bytes) : Nat → UInt8 := fun index =>
  if inside : index < pageSize then data ⟨index, inside⟩ else 0

def ofMemory (memory : Nat → UInt8) : Bytes := fun index => memory index

def getU32 (data : Bytes) (offset : Nat) : UInt32 :=
  UInt32.ofNat (loadLE data.memory offset 4)

def setU32 (data : Bytes) (offset : Nat) (value : UInt32) : Bytes :=
  ofMemory (storeLE data.memory offset 4 value.toNat)

def getI32 (data : Bytes) (offset : Nat) : Int32 := (data.getU32 offset).toInt32

def setI32 (data : Bytes) (offset : Nat) (value : Int32) : Bytes :=
  data.setU32 offset value.toUInt32

variable {data : Bytes} {offset other : Nat}

theorem loadLE_ofMemory {memory : Nat → UInt8} (inside : offset + 4 ≤ pageSize) :
    loadLE (ofMemory memory).memory offset 4 = loadLE memory offset 4 := by
  apply loadLE_congr
  intro index lower upper
  simp only [Bytes.memory, ofMemory]
  rw [dif_pos (by omega)]

theorem getU32_setU32 {value : UInt32} (inside : offset + 4 ≤ pageSize) :
    (data.setU32 offset value).getU32 offset = value := by
  have fits : value.toNat < 256 ^ 4 := value.toNat_lt
  rw [getU32, setU32, loadLE_ofMemory inside, loadLE_storeLE_of_lt fits, UInt32.ofNat_toNat]

theorem getU32_setU32_other {value : UInt32} (inside : other + 4 ≤ pageSize)
    (apart : other + 4 ≤ offset ∨ offset + 4 ≤ other) :
    (data.setU32 offset value).getU32 other = data.getU32 other := by
  rw [getU32, setU32, loadLE_ofMemory inside, loadLE_storeLE_disjoint apart, getU32]

theorem getI32_setI32 {value : Int32} (inside : offset + 4 ≤ pageSize) :
    (data.setI32 offset value).getI32 offset = value := by
  rw [getI32, setI32, getU32_setU32 inside, Int32.toInt32_toUInt32]

end Bytes

/-- Page 0 read as a `DatabaseHeader`: `page_size` at byte 0, `total_pages` at
byte 4 and `free_list_head` at byte 8. -/
structure DatabaseHeader where
  pageSize : UInt32
  totalPages : UInt32
  freeListHead : Int32
deriving DecidableEq, Repr

namespace Bytes

variable (data : Bytes)

def setPageSize (value : UInt32) : Bytes := data.setU32 0 value

def setTotalPages (value : UInt32) : Bytes := data.setU32 4 value

def setFreeListHead (value : Int32) : Bytes := data.setI32 8 value

def header : DatabaseHeader where
  pageSize := data.getU32 0
  totalPages := data.getU32 4
  freeListHead := data.getI32 8

@[simp] theorem header_setTotalPages (value : UInt32) :
    (data.setTotalPages value).header = { data.header with totalPages := value } := by
  simp (disch := decide) only [header, setTotalPages, getI32, getU32_setU32, getU32_setU32_other]

@[simp] theorem header_setFreeListHead (value : Int32) :
    (data.setFreeListHead value).header = { data.header with freeListHead := value } := by
  simp (disch := decide) only [header, setFreeListHead, getI32, setI32, getU32_setU32,
    getU32_setU32_other, Int32.toInt32_toUInt32]

end Bytes

/-- The header that a new file starts with. -/
def initialHeader : Bytes :=
  ((Bytes.zero.setPageSize (UInt32.ofNat pageSize)).setTotalPages 1).setFreeListHead (-1)

/-- What a freed page stores in its first four bytes. -/
def Bytes.nextFree (data : Bytes) : Int32 := data.getI32 0

@[simp] theorem Bytes.nextFree_setI32 (data : Bytes) (value : Int32) :
    (data.setI32 0 value).nextFree = value :=
  getI32_setI32 (by decide)

/-- Where a page starts in the file. -/
def fileOffset (pageId : Int32) : Nat := pageId.toInt.toNat * pageSize

theorem fileOffset_eq {pageId : Int32} (nonneg : 0 ≤ pageId) :
    pageId.toInt * pageSize = (fileOffset pageId : Int) := by
  have lower : 0 ≤ pageId.toInt := by simpa [Int32.le_iff_toInt_le] using nonneg
  rw [fileOffset, Int.natCast_mul, Int.toNat_of_nonneg lower]

@[ext] structure Page where
  pageId : Int32
  data : Bytes
  pinCount : Nat
  isDirty : Bool
  next : Option Addr
  prev : Option Addr
  hashNext : Option Addr

/-- What a run did, newest first.  No function reads it: it records the order in
which pages were fetched or inserted, evicted, and handed to `pwrite`. -/
inductive Event where
  | touched (pageId : Int32)
  | evicted (pageId : Int32)
  | written (pageId : Int32) (data : Bytes)

end HundredDays.PagedStorage
