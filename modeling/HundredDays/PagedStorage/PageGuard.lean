import HundredDays.Data.References
import HundredDays.PagedStorage.BufferPool.Operations

namespace HundredDays.PagedStorage

open HundredDays.Data HundredDays.Memory

/-! Guards of the pages of one buffer pool.

A page may have any id here: a read that fails leaves the page zeroed. `pin_count` is an
`int`, and a fetch that would take it out of its range has no result.
-/

def intMax : Nat := 2147483647

namespace BufferPoolManager

variable (pool : BufferPoolManager)

/-- `FetchPage`, for any page id. -/
def fetchAny (pageId : Int32) : Option (Option Nat × BufferPoolManager) :=
  match pool.pageTable pageId with
  | some frameId =>
      if (pool.pages frameId).pinCount < intMax then
        let pool := pool.setPage frameId fun page => { page with pinCount := page.pinCount + 1 }
        some (some frameId, (pool.touchLRU frameId).record (.touched pageId))
      else none
  | none =>
      match pool.takeFrame with
      | none => some (none, pool)
      | some (frameId, pool) =>
          let data := (pool.fd.pread Bytes.zero (pageId.toInt * pageSize)).getD Bytes.zero
          let pool := pool.setPage frameId fun _ => { pageId, pinCount := 1, isDirty := false, data }
          let pool := pool.setTable pageId (some frameId)
          some (some frameId, (pool.touchLRU frameId).record (.touched pageId))

/-- `AllocPage` and `FreePage` call `FetchPage`, `UnpinPage` and write to the pages in between. -/
def primitivesAny : Primitives BufferPoolManager Nat := { primitives with fetch := fetchAny }

/-! ### What can be seen of a page -/

/-- The `pin_count` of a page that is cached. -/
def pins (pageId : Int32) : Nat := ((pool.pageTable pageId).map fun frameId => (pool.pages frameId).pinCount).getD 0

def dirty (pageId : Int32) : Bool := ((pool.pageTable pageId).map fun frameId => (pool.pages frameId).isDirty).getD false

/-- A flush of the page is about to write all of it to the file. -/
def writesBack (pageId : Int32) : Bool :=
  match pool.pageTable pageId with
  | none => false
  | some frameId =>
      (pool.pages frameId).isDirty &&
        decide ((pool.fd.pwrite (pool.pages frameId).data (pageId.toInt * pageSize)).1 = pageSize)

/-- The page that a fetch evicts. -/
def evicts (pageId : Int32) : Option Int32 :=
  match pool.pageTable pageId, pool.freeFrames with
  | none, [] =>
      (pool.lruList.reverse.find? fun node => (pool.pages node.frameId).pinCount = 0).map fun node =>
        (pool.pages node.frameId).pageId
  | _, _ => none

end BufferPoolManager

/-- `bpm` says that `bpm_` is not null. -/
structure PageGuard where
  bpm : Bool
  page : Option Nat
  isDirty : Bool
deriving DecidableEq, Repr

namespace PageGuard

/-- The default constructor, and what a move leaves behind. -/
def empty : PageGuard := { bpm := false, page := none, isDirty := false }

/-- `Drop`, with the page id that it passes to `UnpinPage`. -/
def drop (guard : PageGuard) (pool : BufferPoolManager) : Option Int32 × PageGuard × BufferPoolManager :=
  match guard.page with
  | some frameId =>
      if guard.bpm then
        let pageId := (pool.pages frameId).pageId
        (some pageId, empty, pool.unpinPage pageId guard.isDirty)
      else (none, guard, pool)
  | none => (none, guard, pool)

end PageGuard

/-- A call of `FetchPage` for a guard, and whether a guard was marked dirty while it had that page. -/
structure Fetch where
  number : Nat
  pageId : Int32
  marked : Bool
deriving DecidableEq, Repr

/-- The variables in scope and the pool, with what happened: the fetch that each variable has its page from, the ids
that were unpinned and for which fetch, the fetches that others have not unpinned yet, and the pages that a marked guard
gave up and that were not written back since. -/
structure GuardSession where
  pool : BufferPoolManager
  scope : Finset Nat
  guard : Nat → PageGuard
  fetched : Nat
  origin : Nat → Option Fetch
  unpins : List (Option Fetch × Int32)
  borrowed : List Int32
  owed : Int32 → Bool

/-- `borrow` and `giveBack` are the calls of `FetchPage` and `UnpinPage` that others make, and `write` is a store through
a page pointer. -/
inductive GuardCall where
  | construct (guard : Nat)
  | fetch (guard : Nat) (pageId : Int32)
  | moveConstruct (guard other : Nat)
  | moveAssign (guard other : Nat)
  | markDirty (guard : Nat)
  | drop (guard : Nat)
  | destroy (guard : Nat)
  | borrow (pageId : Int32)
  | giveBack (pageId : Int32) (isDirty : Bool)
  | write (pageId : Int32) (data : Bytes)
  | flush (pageId : Int32)

namespace GuardSession

variable (session : GuardSession)

def start (pool : BufferPoolManager) : GuardSession :=
  { pool, scope := ∅, guard := fun _ => .empty, fetched := 0, origin := fun _ => none, unpins := [], borrowed := []
    owed := fun _ => false }

/-- A variable comes into scope. -/
def declare (guard : Nat) (value : PageGuard) (origin : Option Fetch) : GuardSession :=
  { session with
    scope := insert guard session.scope
    guard := Function.update session.guard guard value
    origin := Function.update session.origin guard origin }

/-- The members of one guard become those of another, which becomes empty. -/
def transfer (guard other : Nat) : GuardSession :=
  { session with
    guard := Function.update (Function.update session.guard guard (session.guard other)) other .empty
    origin := Function.update (Function.update session.origin guard (session.origin other)) other none }

/-- A page that is written back is no longer owed. -/
def settle (pageId : Int32) : Int32 → Bool :=
  if session.pool.writesBack pageId then Function.update session.owed pageId false else session.owed

def drop (guard : Nat) : GuardSession :=
  let (unpinned, value, pool) := (session.guard guard).drop session.pool
  let dropped := { session with pool, guard := Function.update session.guard guard value }
  match unpinned with
  | none => dropped
  | some pageId =>
      { dropped with
        origin := Function.update session.origin guard none
        unpins := (session.origin guard, pageId) :: session.unpins
        owed := match session.origin guard with
          | some fetch => if fetch.marked then Function.update session.owed fetch.pageId true else session.owed
          | none => session.owed }

/-- `FetchPage`, with the page that it returns. -/
def fetchPage (pageId : Int32) : Option (Option Nat × GuardSession) :=
  (session.pool.fetchAny pageId).map fun (page, pool) =>
    (page, { session with
      pool
      owed := match session.pool.evicts pageId with
        | some victim => session.settle victim
        | none => session.owed })

def step : GuardCall → Option GuardSession
  | .construct guard => if guard ∈ session.scope then none else some (session.declare guard .empty none)
  | .fetch guard pageId =>
      if guard ∈ session.scope then none
      else (session.fetchPage pageId).map fun (page, session) =>
        match page with
        | none => session.declare guard { bpm := true, page := none, isDirty := false } none
        | some frameId =>
            { session with fetched := session.fetched + 1 }.declare guard
              { bpm := true, page := some frameId, isDirty := false } (some ⟨session.fetched, pageId, false⟩)
  | .moveConstruct guard other =>
      if guard ∈ session.scope ∨ other ∉ session.scope then none
      else some ((session.declare guard .empty none).transfer guard other)
  | .moveAssign guard other =>
      if guard ∉ session.scope ∨ other ∉ session.scope then none
      else if guard = other then some session
      else some ((session.drop guard).transfer guard other)
  | .markDirty guard =>
      if guard ∉ session.scope then none
      else some { session with
        guard := Function.update session.guard guard { session.guard guard with isDirty := true }
        origin := Function.update session.origin guard
          ((session.origin guard).map fun fetch => { fetch with marked := true }) }
  | .drop guard => if guard ∉ session.scope then none else some (session.drop guard)
  | .destroy guard =>
      if guard ∉ session.scope then none
      else
        let dropped := session.drop guard
        some { dropped with scope := dropped.scope.erase guard }
  | .borrow pageId => (session.fetchPage pageId).map fun (page, session) =>
      { session with borrowed := if page = none then session.borrowed else pageId :: session.borrowed }
  | .giveBack pageId isDirty =>
      if pageId ∈ session.borrowed then
        some { session with
          pool := session.pool.unpinPage pageId isDirty
          borrowed := session.borrowed.erase pageId }
      else none
  | .write pageId data => (session.pool.pageTable pageId).map fun frameId =>
      { session with pool := session.pool.setData frameId fun _ => data }
  | .flush pageId => some { session with pool := session.pool.flushPage pageId, owed := session.settle pageId }

end GuardSession

end HundredDays.PagedStorage
