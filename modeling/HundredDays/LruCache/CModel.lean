import HundredDays.Data.Links
import HundredDays.Data.Recency

namespace HundredDays.LruCache.C

open HundredDays.Data

/-! The cache of `lru.c` and of `bench_c.c`, which differ in the number of buckets.

A node is known by the number of allocations before its own, and its fields are
functions on nodes.  A walk over a chain that does not end gives `none`.
-/

abbrev Node := Nat

/-- The two programs. -/
inductive Program where
  | lru
  | bench

def hash (key : Int32) : UInt32 := key.toUInt32 * 2654435761 % 16

/-- The `hash_func` of the benchmark. -/
def hashFunc (key : Int32) : UInt32 := key.toUInt32 * 2654435761 &&& (16384 - 1)

def Program.bucket : Program → Int32 → Nat
  | .lru, key => (hash key).toNat
  | .bench, key => (hashFunc key).toNat

structure LRUCache where
  key : Node → Int32
  value : Node → Int32
  links : Links Node
  hnext : Node → Option Node
  table : Nat → Option Node
  size : Int
  capacity : Int
  /-- The nodes that `malloc` has given out. -/
  allocated : Nat
  /-- The nodes passed to `free`, last first. -/
  freed : List Node

def createCache (capacity : Int) : LRUCache :=
  { key := fun _ => 0, value := fun _ => 0, links := ⟨fun _ => none, fun _ => none, none, none⟩
    hnext := fun _ => none, table := fun _ => none, size := 0, capacity, allocated := 0, freed := [] }

/-- The loop of `tableFind`; a chain has at most as many nodes as were allocated. -/
def findFrom (cache : LRUCache) (key : Int32) : Nat → Option Node → Option (Option Node)
  | _, none => some none
  | 0, some _ => none
  | rounds + 1, some n =>
      if cache.key n = key then some (some n) else findFrom cache key rounds (cache.hnext n)

def tableFind (program : Program) (cache : LRUCache) (key : Int32) : Option (Option Node) :=
  findFrom cache key cache.allocated (cache.table (program.bucket key))

def tableInsert (program : Program) (cache : LRUCache) (node : Node) : LRUCache :=
  let h := program.bucket (cache.key node)
  { cache with
    hnext := Function.update cache.hnext node (cache.table h)
    table := Function.update cache.table h (some node) }

/-- The assignment to `*pp`: `pp` points to the bucket, or to the `hnext` of a node. -/
def redirect (cache : LRUCache) (h : Nat) (pp : Option Node) (link : Option Node) : LRUCache :=
  match pp with
  | none => { cache with table := Function.update cache.table h link }
  | some before => { cache with hnext := Function.update cache.hnext before link }

/-- The loop of `tableRemove`. -/
def removeFrom (cache : LRUCache) (key : Int32) (h : Nat) : Nat → Option Node → Option Node → Option LRUCache
  | _, _, none => some cache
  | 0, _, some _ => none
  | rounds + 1, pp, some n =>
      if cache.key n = key then some (redirect cache h pp (cache.hnext n))
      else removeFrom cache key h rounds (some n) (cache.hnext n)

def tableRemove (program : Program) (cache : LRUCache) (key : Int32) : Option LRUCache :=
  removeFrom cache key (program.bucket key) cache.allocated none (cache.table (program.bucket key))

def listAddFront (cache : LRUCache) (n : Node) : LRUCache :=
  { cache with links := cache.links.pushFront n }

def listUnlink (cache : LRUCache) (n : Node) : LRUCache := { cache with links := cache.links.bypass n }

def moveToFront (cache : LRUCache) (n : Node) : LRUCache :=
  if cache.links.head = some n then cache else listAddFront (listUnlink cache n) n

def evictLRU (program : Program) (cache : LRUCache) : Option LRUCache :=
  match cache.links.tail with
  | none => some cache
  | some victim =>
      (tableRemove program (listUnlink cache victim) (cache.key victim)).map fun cache =>
        { cache with freed := victim :: cache.freed, size := cache.size - 1 }

/-- The statements of `put` after the eviction. -/
def putNew (program : Program) (cache : LRUCache) (key value : Int32) : LRUCache :=
  let n := cache.allocated
  let cache := { cache with
    allocated := cache.allocated + 1
    key := Function.update cache.key n key
    value := Function.update cache.value n value
    hnext := Function.update cache.hnext n none }
  let cache := tableInsert program (listAddFront cache n) n
  { cache with size := cache.size + 1 }

def put (program : Program) (cache : LRUCache) (key value : Int32) : Option LRUCache := do
  match ← tableFind program cache key with
  | some n => some (moveToFront { cache with value := Function.update cache.value n value } n)
  | none =>
      let cache ← if cache.size = cache.capacity then evictLRU program cache else some cache
      some (putNew program cache key value)

def get (program : Program) (cache : LRUCache) (key : Int32) : Option (Int32 × LRUCache) := do
  match ← tableFind program cache key with
  | none => some (-1, cache)
  | some n => some (cache.value n, moveToFront cache n)

end HundredDays.LruCache.C
