import HundredDays.PagedStorage.Cache

namespace HundredDays.PagedStorage

open HundredDays.Memory

/-! The C++ buffer pool: a fixed array of frames, found through a page table and
ordered by a `std::list` of frame ids whose iterators an LRU map keeps.

As for the C pager, `none` is a null dereference or a failed read.
-/

/-- An element of `lru_list_`.  The iterator that points to it is a number that
no other node ever has. -/
structure LruNode where
  iterator : Nat
  frameId : Nat
deriving DecidableEq, Repr

structure BufferPoolManager where
  fd : File
  capacity : Nat
  pwriteCount : UInt64
  pages : Nat → Frame
  freeFrames : List Nat
  pageTable : Int32 → Option Nat
  lruList : List LruNode
  lruMap : Nat → Option Nat
  iterators : Nat
  history : List Event

namespace BufferPoolManager

def setPage (pool : BufferPoolManager) (frameId : Nat) (change : Frame → Frame) : BufferPoolManager :=
  { pool with pages := Function.update pool.pages frameId (change (pool.pages frameId)) }

def setData (pool : BufferPoolManager) (frameId : Nat) (change : Bytes → Bytes) : BufferPoolManager :=
  pool.setPage frameId fun page => { page with data := change page.data }

def setTable (pool : BufferPoolManager) (pageId : Int32) (frameId : Option Nat) : BufferPoolManager :=
  { pool with pageTable := Function.update pool.pageTable pageId frameId }

def record (pool : BufferPoolManager) (event : Event) : BufferPoolManager :=
  { pool with history := event :: pool.history }

def unlinkLRU (pool : BufferPoolManager) (frameId : Nat) : BufferPoolManager :=
  match pool.lruMap frameId with
  | none => pool
  | some iterator => { pool with
      lruList := pool.lruList.eraseP fun node => node.iterator = iterator
      lruMap := Function.update pool.lruMap frameId none }

def touchLRU (pool : BufferPoolManager) (frameId : Nat) : BufferPoolManager :=
  let pool := pool.unlinkLRU frameId
  { pool with
    lruList := ⟨pool.iterators, frameId⟩ :: pool.lruList
    lruMap := Function.update pool.lruMap frameId (some pool.iterators)
    iterators := pool.iterators + 1 }

def flushPage (pool : BufferPoolManager) (pageId : Int32) : BufferPoolManager :=
  match pool.pageTable pageId with
  | none => pool
  | some frameId =>
      let page := pool.pages frameId
      if page.isDirty then
        let (written, fd) := pool.fd.pwrite page.data (pageId.toInt * pageSize)
        let pool := { pool with fd }.record (.written pageId page.data)
        if written = pageSize then
          { pool with pwriteCount := pool.pwriteCount + 1 }.setPage frameId fun page =>
            { page with isDirty := false }
        else pool
      else pool

/-- The frame that a miss will use. -/
def takeFrame (pool : BufferPoolManager) : Option (Nat × BufferPoolManager) :=
  match pool.freeFrames with
  | frameId :: rest => some (frameId, { pool with freeFrames := rest })
  | [] =>
      (pool.lruList.reverse.find? fun node => (pool.pages node.frameId).pinCount = 0).map fun node =>
        let pageId := (pool.pages node.frameId).pageId
        let pool := pool.flushPage pageId
        let pool := pool.setTable (pool.pages node.frameId).pageId none
        (node.frameId, (pool.unlinkLRU node.frameId).record (.evicted pageId))

/-- A returned page pointer is the index of its frame. -/
def fetchPage (pool : BufferPoolManager) (pageId : Int32) : Option (Option Nat × BufferPoolManager) :=
  match pool.pageTable pageId with
  | some frameId =>
      let pool := pool.setPage frameId fun page => { page with pinCount := page.pinCount + 1 }
      some (some frameId, (pool.touchLRU frameId).record (.touched pageId))
  | none =>
      match pool.takeFrame with
      | none => some (none, pool)
      | some (frameId, pool) => do
          let data ← pool.fd.pread Bytes.zero (pageId.toInt * pageSize)
          let pool := pool.setPage frameId fun _ => { pageId, pinCount := 1, isDirty := false, data }
          let pool := pool.setTable pageId (some frameId)
          some (some frameId, (pool.touchLRU frameId).record (.touched pageId))

def unpinPage (pool : BufferPoolManager) (pageId : Int32) (isDirty : Bool) : BufferPoolManager :=
  match pool.pageTable pageId with
  | none => pool
  | some frameId =>
      let pool := if isDirty then pool.setPage frameId fun page => { page with isDirty := true } else pool
      if (pool.pages frameId).pinCount > 0 then
        pool.setPage frameId fun page => { page with pinCount := page.pinCount - 1 }
      else pool

/-- Flush the pages in the order in which the page table happens to list them. -/
def flushAllPages (pool : BufferPoolManager) (pageIds : List Int32) : BufferPoolManager :=
  pageIds.foldl flushPage pool

def allocPage (pool : BufferPoolManager) : Option (Int32 × BufferPoolManager) := do
  let (hdrPage, pool) ← pool.fetchPage 0
  let hdr ← hdrPage
  if (pool.pages hdr).data.header.freeListHead ≠ -1 then
    let newPageId := (pool.pages hdr).data.header.freeListHead
    let (freePage, pool) ← pool.fetchPage newPageId
    let free ← freePage
    let nextFree := (pool.pages free).data.nextFree
    let pool := pool.setData hdr fun data => data.setFreeListHead nextFree
    let pool := pool.unpinPage newPageId false
    some (newPageId, pool.unpinPage 0 true)
  else
    let newPageId := (pool.pages hdr).data.header.totalPages.toInt32
    let pool := pool.setData hdr fun data => data.setTotalPages (data.header.totalPages + 1)
    some (newPageId, pool.unpinPage 0 true)

def freePage (pool : BufferPoolManager) (pageId : Int32) : Option BufferPoolManager :=
  if pageId ≤ 0 then some pool
  else do
    let (hdrPage, pool) ← pool.fetchPage 0
    let hdr ← hdrPage
    let (target, pool) ← pool.fetchPage pageId
    let freed ← target
    let pool := pool.setData freed fun _ => Bytes.zero
    let pool := pool.setData freed fun data =>
      data.setI32 0 (pool.pages hdr).data.header.freeListHead
    let pool := pool.setData hdr fun data => data.setFreeListHead pageId
    let pool := pool.unpinPage pageId true
    some (pool.unpinPage 0 true)

/-- The members before the constructor's body: every frame is free. -/
def blank (fd : File) (capacity : Nat) : BufferPoolManager :=
  { fd, capacity, pwriteCount := 0
    pages := fun _ => { pageId := -1, data := Bytes.zero, pinCount := 0, isDirty := false }
    freeFrames := List.range capacity, pageTable := fun _ => none
    lruList := [], lruMap := fun _ => none, iterators := 0, history := [] }

/-- The constructor; a new file gets its header page. -/
def create (fd : File) (capacity : Nat) : Option BufferPoolManager :=
  if fd.size = 0 then do
    let (hdrPage, pool) ← (blank fd capacity).fetchPage 0
    let hdr ← hdrPage
    let pool := pool.setData hdr fun data =>
      ((data.setPageSize (UInt32.ofNat pageSize)).setTotalPages 1).setFreeListHead (-1)
    some ((pool.unpinPage 0 true).flushPage 0)
  else some (blank fd capacity)

/-- An order in which iterating over the page table may visit it. -/
def Enumerates (pool : BufferPoolManager) (pageIds : List Int32) : Prop :=
  pageIds.Nodup ∧ ∀ pageId, pageId ∈ pageIds ↔ pool.pageTable pageId ≠ none

/-- What the destructor leaves in the file. -/
def destroy (pool : BufferPoolManager) (pageIds : List Int32) : File :=
  (pool.flushAllPages pageIds).fd

end BufferPoolManager

end HundredDays.PagedStorage
