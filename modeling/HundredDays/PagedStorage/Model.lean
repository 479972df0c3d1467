import HundredDays.Data.Links
import HundredDays.PagedStorage.Page

namespace HundredDays.PagedStorage

open HundredDays.Data HundredDays.Memory

/-! The C pager: `malloc`'d `Page` nodes threaded by an LRU list and by the
chains of a hash table.

An operation that returns `none` has no defined outcome: it dereferences a null
pointer, indexes `hash_map` before its start, or reads the file at a negative
offset.
-/

@[ext] structure DoublyLinkedList where
  head : Option Addr
  tail : Option Addr
  size : Int

/-- The `Pager` record, with the memory its pointers lead to: `page` is the
contents of the `Page` nodes, `heap` what is allocated, and `self` the address
of the record itself. -/
@[ext] structure Pager where
  self : Addr
  fd : File
  lruList : DoublyLinkedList
  hashMap : Nat → Option Addr
  capacity : Int
  pwriteCount : UInt64
  page : Addr → Page
  heap : Heap
  history : List Event

namespace Pager

/-- Write to one `Page` node. -/
def modify (pager : Pager) (node : Addr) (change : Page → Page) : Pager :=
  { pager with page := Function.update pager.page node (change (pager.page node)) }

def setNext (pager : Pager) (node : Addr) (link : Option Addr) : Pager :=
  pager.modify node fun page => { page with next := link }

def setPrev (pager : Pager) (node : Addr) (link : Option Addr) : Pager :=
  pager.modify node fun page => { page with prev := link }

def setHashNext (pager : Pager) (node : Addr) (link : Option Addr) : Pager :=
  pager.modify node fun page => { page with hashNext := link }

def setHead (pager : Pager) (link : Option Addr) : Pager :=
  { pager with lruList := { pager.lruList with head := link } }

def setTail (pager : Pager) (link : Option Addr) : Pager :=
  { pager with lruList := { pager.lruList with tail := link } }

def setSize (pager : Pager) (size : Int) : Pager :=
  { pager with lruList := { pager.lruList with size } }

def setBucket (pager : Pager) (bucket : Nat) (link : Option Addr) : Pager :=
  { pager with hashMap := Function.update pager.hashMap bucket link }

def record (pager : Pager) (event : Event) : Pager :=
  { pager with history := event :: pager.history }

end Pager

open Pager

def listInit : DoublyLinkedList := { head := none, tail := none, size := 0 }

def listUnlink (pager : Pager) (node : Addr) : Pager :=
  let pager := match (pager.page node).prev with
    | some before => pager.setNext before (pager.page node).next
    | none => pager.setHead (pager.page node).next
  let pager := match (pager.page node).next with
    | some after => pager.setPrev after (pager.page node).prev
    | none => pager.setTail (pager.page node).prev
  let pager := pager.setNext node none
  let pager := pager.setPrev node none
  pager.setSize (pager.lruList.size - 1)

def listAddFront (pager : Pager) (node : Addr) : Pager :=
  let pager := pager.setNext node pager.lruList.head
  let pager := pager.setPrev node none
  let pager := match pager.lruList.head with
    | some head => pager.setPrev head (some node)
    | none => pager
  let pager := pager.setHead (some node)
  let pager := match pager.lruList.tail with
    | some _ => pager
    | none => pager.setTail (some node)
  pager.setSize (pager.lruList.size + 1)

def listMoveToFront (pager : Pager) (node : Addr) : Pager :=
  if pager.lruList.head = some node then pager
  else listAddFront (listUnlink pager node) node

/-- C's remainder truncates, so a negative page id can give a negative bucket. -/
def hashFunc (pageId : Int32) : Int := pageId.toInt.tmod hashMapSize

/-- Indexing `hash_map` before its start is undefined. -/
def bucketOf (pageId : Int32) : Option Nat :=
  if hashFunc pageId < 0 then none else some (hashFunc pageId).toNat

/-- How many nodes a walk over a chain or over the LRU list may visit before the
model gives up; the lists of a well-formed pager are never longer. -/
def Pager.walkBound (pager : Pager) : Nat := pager.lruList.size.toNat

def hashFindFrom (pager : Pager) (pageId : Int32) : Nat → Option Addr → Option (Option Addr)
  | _, none => some none
  | 0, some _ => none
  | steps + 1, some curr =>
      if (pager.page curr).pageId = pageId then some (some curr)
      else hashFindFrom pager pageId steps (pager.page curr).hashNext

def hashFind (pager : Pager) (pageId : Int32) : Option (Option Addr) :=
  (bucketOf pageId).bind fun bucket =>
    hashFindFrom pager pageId pager.walkBound (pager.hashMap bucket)

def hashInsert (pager : Pager) (node : Addr) : Option Pager :=
  (bucketOf (pager.page node).pageId).map fun bucket =>
    let pager := pager.setHashNext node (pager.hashMap bucket)
    pager.setBucket bucket (some node)

def hashRemoveFrom (pager : Pager) (bucket : Nat) (node : Addr) :
    Nat → Option Addr → Option Addr → Option Pager
  | _, _, none => some pager
  | 0, _, some _ => none
  | steps + 1, prev, some curr =>
      if curr = node then
        let pager := match prev with
          | some before => pager.setHashNext before (pager.page curr).hashNext
          | none => pager.setBucket bucket (pager.page curr).hashNext
        some (pager.setHashNext curr none)
      else hashRemoveFrom pager bucket node steps (some curr) (pager.page curr).hashNext

def hashRemove (pager : Pager) (node : Addr) : Option Pager :=
  (bucketOf (pager.page node).pageId).bind fun bucket =>
    hashRemoveFrom pager bucket node pager.walkBound none (pager.hashMap bucket)

def pagerFlush (pager : Pager) (node : Addr) : Pager :=
  if (pager.page node).isDirty then
    let page := pager.page node
    let (written, fd) := pager.fd.pwrite page.data (page.pageId.toInt * pageSize)
    let pager := { pager with fd }.record (.written page.pageId page.data)
    if written = pageSize then
      { pager with pwriteCount := pager.pwriteCount + 1 }.modify node fun page =>
        { page with isDirty := false }
    else pager
  else pager

def pagerEvictFrom (pager : Pager) : Nat → Option Addr → Option (Option Addr × Pager)
  | _, none => some (none, pager)
  | 0, some _ => none
  | steps + 1, some curr =>
      if (pager.page curr).pinCount = 0 then do
        let pager := pagerFlush pager curr
        let pager ← hashRemove pager curr
        let pager := listUnlink pager curr
        some (some curr, pager.record (.evicted (pager.page curr).pageId))
      else pagerEvictFrom pager steps (pager.page curr).prev

def pagerEvict (pager : Pager) : Option (Option Addr × Pager) :=
  pagerEvictFrom pager pager.walkBound pager.lruList.tail

/-- The nodes before anything was stored in them. -/
def blankPage : Page :=
  { pageId := 0, data := Bytes.zero, pinCount := 0, isDirty := false
    next := none, prev := none, hashNext := none }

/-- The outer `none` is undefined behaviour, an inner `none` the null result. -/
def pagerOpen (fd : File) (heap : Heap) : Option (Option Pager) :=
  match heap.malloc with
  | (none, _) => some none
  | (some self, heap) =>
      let pager : Pager :=
        { self, fd, lruList := listInit, hashMap := fun _ => none, capacity := cacheCapacity
          pwriteCount := 0, page := fun _ => blankPage, heap, history := [] }
      if fd.size = 0 then
        match heap.malloc with
        | (none, _) => some none
        | (some headerPage, heap) => do
            let pager := { pager with heap }.modify headerPage fun page =>
              { page with pageId := 0, pinCount := 0, isDirty := true, data := initialHeader }
            let pager ← hashInsert pager headerPage
            let pager := listAddFront pager headerPage
            some (some (pagerFlush (pager.record (.touched 0)) headerPage))
      else some (some pager)

/-- The frame a miss will use: an evicted one when the cache is full, otherwise a
new one. -/
def acquirePage (pager : Pager) : Option (Option Addr × Pager) :=
  if pager.lruList.size ≥ pager.capacity then pagerEvict pager
  else
    let (page, heap) := pager.heap.malloc
    some (page, { pager with heap })

def pagerFetch (pager : Pager) (pageId : Int32) : Option (Option Addr × Pager) := do
  match ← hashFind pager pageId with
  | some page =>
      let pager := pager.modify page fun page => { page with pinCount := page.pinCount + 1 }
      some (some page, (listMoveToFront pager page).record (.touched pageId))
  | none =>
      match ← acquirePage pager with
      | (none, pager) => some (none, pager)
      | (some page, pager) =>
          let data ← pager.fd.pread Bytes.zero (pageId.toInt * pageSize)
          let pager := pager.modify page fun page =>
            { page with pageId, pinCount := 1, isDirty := false, data }
          let pager ← hashInsert pager page
          some (some page, (listAddFront pager page).record (.touched pageId))

def pagerUnpin (pager : Pager) (page : Option Addr) (isDirty : Bool) : Pager :=
  match page with
  | none => pager
  | some node =>
      let pager := if isDirty then pager.modify node fun page => { page with isDirty := true }
        else pager
      if (pager.page node).pinCount > 0 then
        pager.modify node fun page => { page with pinCount := page.pinCount - 1 }
      else pager

def Pager.setData (pager : Pager) (node : Addr) (change : Bytes → Bytes) : Pager :=
  pager.modify node fun page => { page with data := change page.data }

def pagerAllocPage (pager : Pager) : Option (Int32 × Pager) := do
  let (hdrPage, pager) ← pagerFetch pager 0
  let hdr ← hdrPage
  if (pager.page hdr).data.header.freeListHead ≠ -1 then
    let newPageId := (pager.page hdr).data.header.freeListHead
    let (freePage, pager) ← pagerFetch pager newPageId
    let free ← freePage
    let nextFree := (pager.page free).data.nextFree
    let pager := pager.setData hdr fun data => data.setFreeListHead nextFree
    let pager := pagerUnpin pager freePage false
    some (newPageId, pagerUnpin pager hdrPage true)
  else
    let newPageId := (pager.page hdr).data.header.totalPages.toInt32
    let pager := pager.setData hdr fun data =>
      data.setTotalPages (data.header.totalPages + 1)
    some (newPageId, pagerUnpin pager hdrPage true)

def pagerFreePage (pager : Pager) (pageId : Int32) : Option Pager :=
  if pageId ≤ 0 then some pager
  else do
    let (hdrPage, pager) ← pagerFetch pager 0
    let hdr ← hdrPage
    let (target, pager) ← pagerFetch pager pageId
    let freed ← target
    let pager := pager.setData freed fun _ => Bytes.zero
    let pager := pager.setData freed fun data =>
      data.setI32 0 (pager.page hdr).data.header.freeListHead
    let pager := pager.setData hdr fun data => data.setFreeListHead pageId
    let pager := pagerUnpin pager target true
    some (pagerUnpin pager hdrPage true)

/-- Walk the LRU list, applying `visit` to each node and then freeing it. -/
def releaseFrom (visit : Pager → Addr → Pager) (pager : Pager) :
    Nat → Option Addr → Option Pager
  | _, none => some pager
  | 0, some _ => none
  | steps + 1, some curr =>
      let next := (pager.page curr).next
      let pager := visit pager curr
      releaseFrom visit { pager with heap := pager.heap.free curr } steps next

/-- What closing leaves behind: the file and the heap. -/
def pagerClose (pager : Pager) : Option (File × Heap) :=
  (releaseFrom pagerFlush pager pager.walkBound pager.lruList.head).map
    fun pager => (pager.fd, pager.heap.free pager.self)

/-- A crash: the nodes are freed without being flushed. -/
def pagerDestroyNoFlush (pager : Pager) : Option (File × Heap) :=
  (releaseFrom (fun pager _ => pager) pager pager.walkBound pager.lruList.head).map
    fun pager => (pager.fd, pager.heap.free pager.self)

end HundredDays.PagedStorage
