import HundredDays.Data.Links
import HundredDays.Data.Recency

namespace HundredDays.LruCache

/-! The class `LRUCache` of C++, with the allocations counted as in C.

Following a null pointer gives `none`.
-/

abbrev Node := Nat

/-- A `std::unordered_map`: what is found for a key, and how many keys there are. -/
structure UnorderedMap (K W : Type) where
  find : K → Option W
  size : Nat

namespace UnorderedMap

variable {K W : Type} [DecidableEq K]

def erase (map : UnorderedMap K W) (key : K) : UnorderedMap K W :=
  { find := Function.update map.find key none
    size := if (map.find key).isSome then map.size - 1 else map.size }

/-- The assignment `map[key] = value`. -/
def assign (map : UnorderedMap K W) (key : K) (value : W) : UnorderedMap K W :=
  { find := Function.update map.find key (some value)
    size := if (map.find key).isSome then map.size else map.size + 1 }

end UnorderedMap

structure LRUCache (K V : Type) where
  key : Node → K
  val : Node → V
  next : Node → Option Node
  prev : Node → Option Node
  head : Node
  tail : Node
  mp : UnorderedMap K Node
  limit : Nat
  allocated : Nat
  freed : List Node

namespace LRUCache

variable {K V : Type} [DecidableEq K] [Inhabited K] [Inhabited V]

def create (capacity : Nat) : LRUCache K V :=
  { key := fun _ => default, val := fun _ => default
    next := Function.update (fun _ => none) 0 (some 1)
    prev := Function.update (fun _ => none) 1 (some 0)
    head := 0, tail := 1, mp := ⟨fun _ => none, 0⟩
    limit := if capacity = 0 then 1 else capacity
    allocated := 2, freed := [] }

def addNode (cache : LRUCache K V) (n : Node) : Option (LRUCache K V) := do
  let old ← cache.next cache.head
  some { cache with
    next := Function.update (Function.update cache.next cache.head (some n)) n (some old)
    prev := Function.update (Function.update cache.prev n (some cache.head)) old (some n) }

def delNode (cache : LRUCache K V) (n : Node) : Option (LRUCache K V) := do
  let before ← cache.prev n
  let next := Function.update cache.next before (cache.next n)
  let after ← next n
  some { cache with next, prev := Function.update cache.prev after (cache.prev n) }

def get (cache : LRUCache K V) (key : K) : Option (Option V × LRUCache K V) := do
  match cache.mp.find key with
  | none => some (none, cache)
  | some n =>
      let cache ← cache.delNode n
      let cache ← cache.addNode n
      some (some (cache.val n), cache)

/-- The statements of `put` after the eviction. -/
def putNew (cache : LRUCache K V) (key : K) (value : V) : Option (LRUCache K V) := do
  let n := cache.allocated
  let cache ← { cache with
    allocated := cache.allocated + 1
    key := Function.update cache.key n key
    val := Function.update cache.val n value
    next := Function.update cache.next n none
    prev := Function.update cache.prev n none }.addNode n
  some { cache with mp := cache.mp.assign key n }

def put (cache : LRUCache K V) (key : K) (value : V) : Option (LRUCache K V) := do
  match cache.mp.find key with
  | some n =>
      let cache ← { cache with val := Function.update cache.val n value }.delNode n
      cache.addNode n
  | none =>
      let cache ← if cache.mp.size = cache.limit then do
          let victim ← cache.prev cache.tail
          let cache ← { cache with mp := cache.mp.erase (cache.key victim) }.delNode victim
          some { cache with freed := victim :: cache.freed }
        else some cache
      cache.putNew key value

end LRUCache

end HundredDays.LruCache
