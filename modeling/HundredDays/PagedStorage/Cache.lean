import HundredDays.Data.Extract
import HundredDays.PagedStorage.Page

namespace HundredDays.PagedStorage

open HundredDays.Data HundredDays.Memory

/-! What a page cache does, without pointers: a file and the cached pages from
most to least recently fetched.

Both implementations refine this machine.  `memory` says whether the allocator
would grant a new page if the operation asks for one; the frame pool of the C++
version is allocated in advance, so there it is always `true`.
-/

/-- A cached page without its links. -/
@[ext] structure Frame where
  pageId : Int32
  data : Bytes
  pinCount : Nat
  isDirty : Bool

structure Cache where
  fd : File
  frames : List Frame
  capacity : Int
  pwriteCount : UInt64
  history : List Event

namespace Cache

def holds (pageId : Int32) (frame : Frame) : Bool := frame.pageId == pageId

def unpinned (frame : Frame) : Bool := frame.pinCount == 0

/-- The contents the file has for a page. -/
def onFile (cache : Cache) (pageId : Int32) : Bytes := cache.fd.window pageSize (fileOffset pageId)

/-- Write a frame back if it is dirty. -/
def flushFrame (cache : Cache) (frame : Frame) : Cache × Frame :=
  if frame.isDirty then
    let (written, fd) := cache.fd.pwrite frame.data (frame.pageId.toInt * pageSize)
    let cache := { cache with fd, history := .written frame.pageId frame.data :: cache.history }
    if written = pageSize then
      ({ cache with pwriteCount := cache.pwriteCount + 1 }, { frame with isDirty := false })
    else (cache, frame)
  else (cache, frame)

/-- Change the frame that holds a page, if there is one. -/
def update (cache : Cache) (pageId : Int32) (change : Frame → Frame) : Cache :=
  { cache with frames := cache.frames.map fun frame =>
      if frame.pageId = pageId then change frame else frame }

/-- Make room for one more frame: evict the least recently fetched unpinned frame
of a full cache. -/
def acquire (cache : Cache) (memory : Bool) : Option Cache :=
  if cache.frames.length ≥ cache.capacity then
    match takeLast unpinned cache.frames with
    | none => none
    | some (victim, rest) =>
        let (cache, _) := cache.flushFrame victim
        some { cache with frames := rest, history := .evicted victim.pageId :: cache.history }
  else if memory then some cache else none

/-- Bring a page to the front, pinned once more; `false` when no frame can be
had for it. -/
def fetch (cache : Cache) (memory : Bool) (pageId : Int32) : Option (Bool × Cache) :=
  if pageId < 0 then none
  else
    match takeFirst (holds pageId) cache.frames with
    | some (frame, rest) =>
        some (true, { cache with
          frames := { frame with pinCount := frame.pinCount + 1 } :: rest
          history := .touched pageId :: cache.history })
    | none =>
        match cache.acquire memory with
        | none => some (false, cache)
        | some cache =>
            some (true, { cache with
              frames := ⟨pageId, cache.onFile pageId, 1, false⟩ :: cache.frames
              history := .touched pageId :: cache.history })

def flush (cache : Cache) (pageId : Int32) : Cache :=
  match cache.frames.find? (holds pageId) with
  | none => cache
  | some frame =>
      let (cache, flushed) := cache.flushFrame frame
      cache.update pageId fun frame => { frame with isDirty := flushed.isDirty }

def unpin (cache : Cache) (pageId : Int32) (isDirty : Bool) : Cache :=
  cache.update pageId fun frame =>
    { frame with isDirty := isDirty || frame.isDirty, pinCount := frame.pinCount - 1 }

def setData (cache : Cache) (pageId : Int32) (change : Bytes → Bytes) : Cache :=
  cache.update pageId fun frame => { frame with data := change frame.data }

/-- The data of a cached page. -/
def dataOf (cache : Cache) (pageId : Int32) : Bytes :=
  ((cache.frames.find? (holds pageId)).map Frame.data).getD Bytes.zero

/-- A fetch that must return a page: the caller dereferences it. -/
def require (cache : Cache) (memory : Bool) (pageId : Int32) : Option Cache :=
  match cache.fetch memory pageId with
  | some (true, cache) => some cache
  | _ => none

def allocPage (cache : Cache) (first second : Bool) : Option (Int32 × Cache) := do
  let cache ← cache.require first 0
  let header := (cache.dataOf 0).header
  if header.freeListHead ≠ -1 then
    let newPageId := header.freeListHead
    let cache ← cache.require second newPageId
    let nextFree := (cache.dataOf newPageId).nextFree
    let cache := cache.setData 0 fun data => data.setFreeListHead nextFree
    some (newPageId, (cache.unpin newPageId false).unpin 0 true)
  else
    let cache := cache.setData 0 fun data => data.setTotalPages (data.header.totalPages + 1)
    some (header.totalPages.toInt32, cache.unpin 0 true)

def freePage (cache : Cache) (first second : Bool) (pageId : Int32) : Option Cache :=
  if pageId ≤ 0 then some cache
  else do
    let cache ← cache.require first 0
    let cache ← cache.require second pageId
    let head := (cache.dataOf 0).header.freeListHead
    let cache := cache.setData pageId fun _ => Bytes.zero.setI32 0 head
    let cache := cache.setData 0 fun data => data.setFreeListHead pageId
    some ((cache.unpin pageId true).unpin 0 true)

/-- Write back every dirty frame, front to back. -/
def flushAll (cache : Cache) : List Frame → Cache
  | [] => cache
  | frame :: rest => (cache.flushFrame frame).1.flushAll rest

/-- A file just opened: a new file gets its header page. -/
def opened (fd : File) : Cache :=
  let cache : Cache := { fd, frames := [], capacity := cacheCapacity, pwriteCount := 0, history := [] }
  if fd.size = 0 then
    { cache with frames := [⟨0, initialHeader, 0, true⟩], history := [.touched 0] }.flush 0
  else cache

variable {cache : Cache} {frame : Frame}

@[simp] theorem flushFrame_frames : (cache.flushFrame frame).1.frames = cache.frames := by
  unfold flushFrame
  split
  · dsimp only
    split <;> rfl
  · rfl

@[simp] theorem flushFrame_capacity : (cache.flushFrame frame).1.capacity = cache.capacity := by
  unfold flushFrame
  split
  · dsimp only
    split <;> rfl
  · rfl

end Cache

end HundredDays.PagedStorage
