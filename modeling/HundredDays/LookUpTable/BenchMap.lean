import HundredDays.Data.Mixing
import HundredDays.Data.Probing

namespace HundredDays.BenchMap

open Data.Mixing Data.Probing

/-! The map that the benchmark looks its keys up in.

It has a fixed number of cells, is never checked for room and never asked whether a key is
there already.  What it then holds for a key is the value that was put in first.
-/

structure HashNode where
  key : UInt64
  val : UInt64
  occupied : Bool

def mapSize : Nat := 1024

structure HashMap where
  nodes : Nat → HashNode

def hashFn (x : UInt64) : UInt64 :=
  let x := (x ^^^ x >>> 30) * 0xbf58476d1ce4e5b9
  let x := (x ^^^ x >>> 27) * 0x94d049bb133111eb
  x ^^^ x >>> 31

namespace HashMap

def empty : HashMap where
  nodes := fun _ => { key := 0, val := 0, occupied := false }

/-- The index that a loop starts at. -/
def home (k : UInt64) : Nat := (hashFn k).toNat % mapSize

/-- The loop of `insert`. -/
def freeIdx (map : HashMap) (idx : Nat) : Nat → Option Nat
  | 0 => none
  | fuel + 1 =>
      if (map.nodes idx).occupied then map.freeIdx ((idx + 1) % mapSize) fuel else some idx

def put (map : HashMap) (idx : Nat) (k v : UInt64) : HashMap where
  nodes := Function.update map.nodes idx { key := k, val := v, occupied := true }

def insert (fuel : Nat) (map : HashMap) (k v : UInt64) : Option HashMap := do
  let idx ← map.freeIdx (home k) fuel
  return map.put idx k v

/-- The loop of `find`. -/
def findFrom (map : HashMap) (k : UInt64) (idx : Nat) : Nat → Option UInt64
  | 0 => none
  | fuel + 1 =>
      if (map.nodes idx).occupied then
        if (map.nodes idx).key = k then some (map.nodes idx).val
        else map.findFrom k ((idx + 1) % mapSize) fuel
      else some 0

def find (fuel : Nat) (map : HashMap) (k : UInt64) : Option UInt64 := map.findFrom k (home k) fuel

/-- A new map into which these pairs are put, one after the other. -/
def build (fuel : Nat) (pairs : List (UInt64 × UInt64)) : Option HashMap :=
  pairs.foldlM (fun map pair => map.insert fuel pair.1 pair.2) empty

end HashMap

/-- What the lookups that are timed refer to. -/
structure Context where
  map : HashMap
  keysToFind : Nat → UInt64
  keyIdx : Nat

/-- One call of the lambda, with the value it finds. -/
def Context.lookup (fuel : Nat) (context : Context) : Option (UInt64 × Context) := do
  let k := context.keysToFind context.keyIdx
  let val ← context.map.find fuel k
  return (val, { context with keyIdx := (context.keyIdx + 1) % 500 })

/-- So many calls of it: the warm-up and the runs. -/
def Context.runs (fuel : Nat) (context : Context) : Nat → Option (List UInt64 × Context)
  | 0 => some ([], context)
  | count + 1 => do
      let (val, context) ← context.lookup fuel
      let (vals, context) ← context.runs fuel count
      return (val :: vals, context)

/-- The pairs that `main` puts into the map. -/
def mainPairs : List (UInt64 × UInt64) :=
  (List.range 500).map fun i => (UInt64.ofNat (i + 1), UInt64.ofNat (i + 1) * 100)

def main (fuel : Nat) : Option Context := do
  let map ← HashMap.build fuel mainPairs
  return { map, keysToFind := fun i => UInt64.ofNat (i + 1), keyIdx := 0 }

section Hash

theorem toBitVec_injective : Function.Injective UInt64.toBitVec := fun _ _ => UInt64.toBitVec_inj.mp

theorem odd_injective {factor inverse : UInt64} (unit : factor * inverse = 1) :
    Function.Injective fun word => word * factor :=
  injective_through toBitVec_injective (mul_injective (congrArg UInt64.toBitVec unit)) fun _ => rfl

/-- No two keys have one hash. -/
theorem hashFn_injective : Function.Injective hashFn := by
  have thirty : Function.Injective fun word : UInt64 => word ^^^ word >>> 30 :=
    injective_through toBitVec_injective (xorShift_injective (by decide : 0 < 30)) fun _ => rfl
  have twentySeven : Function.Injective fun word : UInt64 => word ^^^ word >>> 27 :=
    injective_through toBitVec_injective (xorShift_injective (by decide : 0 < 27)) fun _ => rfl
  have thirtyOne : Function.Injective fun word : UInt64 => word ^^^ word >>> 31 :=
    injective_through toBitVec_injective (xorShift_injective (by decide : 0 < 31)) fun _ => rfl
  have first : Function.Injective fun word : UInt64 => word * 0xbf58476d1ce4e5b9 :=
    odd_injective (by decide : (0xbf58476d1ce4e5b9 : UInt64) * 0x96de1b173f119089 = 1)
  have last : Function.Injective fun word : UInt64 => word * 0x94d049bb133111eb :=
    odd_injective (by decide : (0x94d049bb133111eb : UInt64) * 0x319642b2d24d8ec3 = 1)
  exact thirtyOne.comp (last.comp (twentySeven.comp (first.comp thirty)))

end Hash

namespace HashMap

variable {map after : HashMap} {k v other : UInt64} {idx fuel : Nat}
  {history pairs : List (UInt64 × UInt64)}

section Loops

theorem home_lt : home k < mapSize := Nat.mod_lt _ (by decide)

def free (map : HashMap) (idx : Nat) : Bool := !(map.nodes idx).occupied

def ends (map : HashMap) (k : UInt64) (idx : Nat) : Bool :=
  map.free idx || (map.nodes idx).key == k

theorem freeIdx_eq : map.freeIdx idx fuel = walk mapSize map.free idx fuel := by
  induction fuel generalizing idx with
  | zero => rfl
  | succ fuel ih =>
      rw [freeIdx, walk, ih, free]
      cases (map.nodes idx).occupied <;> rfl

theorem findFrom_eq : map.findFrom k idx fuel =
    (walk mapSize (map.ends k) idx fuel).map fun found => if map.free found then 0 else (map.nodes found).val := by
  induction fuel generalizing idx with
  | zero => rfl
  | succ fuel ih =>
      rw [findFrom, walk, ih]
      cases occupied : (map.nodes idx).occupied with
      | false => simp [ends, free, occupied]
      | true => by_cases same : (map.nodes idx).key = k <;> simp [ends, free, occupied, same]

end Loops

section History

/-- The value that was put in first for a key. -/
def firstValue (history : List (UInt64 × UInt64)) (k : UInt64) : Option UInt64 :=
  (history.find? fun pair => pair.1 = k).map Prod.snd

theorem firstValue_concat : firstValue (history ++ [(k, v)]) other =
    (firstValue history other).or (if k = other then some v else none) := by
  rw [firstValue, List.find?_append, Option.map_or, ← firstValue]
  by_cases same : k = other <;> simp [same]

theorem firstValue_eq_none : firstValue history k = none ↔ ∀ pair ∈ history, pair.1 ≠ k := by
  rw [firstValue, Option.map_eq_none_iff, List.find?_eq_none]
  simp

def occupancy (map : HashMap) : Nat := ((Finset.range mapSize).filter fun idx => map.free idx = false).card

structure Built (map : HashMap) (history : List (UInt64 × UInt64)) : Prop where
  full : map.occupancy = history.length
  known : ∀ idx < mapSize, map.free idx = false → ∃ pair ∈ history, pair.1 = (map.nodes idx).key
  first : ∀ k v, firstValue history k = some v → ∃ step < mapSize,
    map.nodes (place mapSize (home k) step) = { key := k, val := v, occupied := true } ∧
      ∀ earlier < step, map.ends k (place mapSize (home k) earlier) = false

theorem empty_built : Built empty [] where
  full := by
    rw [occupancy, List.length_nil, Finset.card_eq_zero, Finset.filter_eq_empty_iff]
    exact fun _ _ occupied => nomatch occupied
  known := fun _ _ occupied => nomatch occupied
  first := fun _ _ absent => nomatch absent

variable {found : Nat}

theorem Built.exists_free (built : Built map history) (room : history.length < mapSize) :
    ∃ idx < mapSize, map.free idx = true := by
  by_contra none
  push Not at none
  have every : (Finset.range mapSize).filter (fun idx => map.free idx = false) = Finset.range mapSize := by
    refine Finset.filter_true_of_mem fun idx member => ?_
    exact Bool.eq_false_iff.mpr (none idx (Finset.mem_range.mp member))
  have full := built.full
  rw [occupancy, every, Finset.card_range] at full
  omega

theorem Built.none_free (built : Built map history) (filled : mapSize ≤ history.length) :
    ∀ idx < mapSize, map.free idx = false := by
  have every : (Finset.range mapSize).filter (fun idx => map.free idx = false) = Finset.range mapSize := by
    refine Finset.eq_of_subset_of_card_le (Finset.filter_subset _ _) ?_
    rw [Finset.card_range, ← occupancy, built.full]
    exact filled
  intro idx below
  have member := Finset.mem_range.mpr below
  rw [← every] at member
  exact (Finset.mem_filter.mp member).2

theorem Built.length_le (built : Built map history) : history.length ≤ mapSize := by
  have bound := Finset.card_filter_le (Finset.range mapSize) fun idx => map.free idx = false
  rw [Finset.card_range] at bound
  exact built.full ▸ bound

theorem put_nodes_self : (map.put found k v).nodes found = { key := k, val := v, occupied := true } :=
  Function.update_self ..

theorem put_nodes_of_ne (other : idx ≠ found) : (map.put found k v).nodes idx = map.nodes idx :=
  Function.update_of_ne other ..

theorem free_put : (map.put found k v).free idx = if idx = found then false else map.free idx := by
  by_cases here : idx = found
  · rw [if_pos here, here, free, put_nodes_self]
    rfl
  · rw [if_neg here, free, put_nodes_of_ne here, free]

theorem ends_put (other : idx ≠ found) {q : UInt64} : (map.put found k v).ends q idx = map.ends q idx := by
  rw [ends, ends, free_put, if_neg other, put_nodes_of_ne other]

theorem occupancy_put (below : found < mapSize) (unused : map.free found = true) :
    (map.put found k v).occupancy = map.occupancy + 1 := by
  have more : (Finset.range mapSize).filter (fun idx => (map.put found k v).free idx = false) =
      Insert.insert found ((Finset.range mapSize).filter fun idx => map.free idx = false) := by
    ext idx
    rw [Finset.mem_insert, Finset.mem_filter, Finset.mem_filter, free_put, Finset.mem_range]
    by_cases here : idx = found <;> simp [here, below]
  rw [occupancy, more, Finset.card_insert_of_notMem (by simp [unused])]
  rfl

/-- A pair goes behind all cells that a search for its key passes. -/
theorem Built.put (built : Built map history) (unused : map.free found = true) {step : Nat}
    (here : place mapSize (home k) step = found) (bound : step < mapSize)
    (passed : ∀ earlier < step, map.free (place mapSize (home k) earlier) = false) :
    Built (map.put found k v) (history ++ [(k, v)]) := by
  have below : found < mapSize := here ▸ place_lt (by decide)
  have apart : ∀ idx, map.free idx = false → idx ≠ found := by
    rintro idx occupied rfl
    rw [unused] at occupied
    cases occupied
  constructor
  · rw [occupancy_put below unused, built.full, List.length_append, List.length_singleton]
  · intro idx inside occupied
    by_cases new : idx = found
    · refine ⟨(k, v), by simp, ?_⟩
      rw [new, put_nodes_self]
    · rw [free_put, if_neg new] at occupied
      obtain ⟨pair, member, same⟩ := built.known idx inside occupied
      refine ⟨pair, List.mem_append_left _ member, ?_⟩
      rw [same, put_nodes_of_ne new]
  · intro q w first
    rw [firstValue_concat] at first
    cases before : firstValue history q with
    | some old =>
        rw [before, Option.some_or] at first
        obtain ⟨place, inside, held, missed⟩ := built.first q w (before.trans first)
        refine ⟨place, inside, ?_, fun earlier less => ?_⟩
        · rw [put_nodes_of_ne (apart _ (by rw [free, held]; rfl)), held]
        · have mismatch := missed earlier less
          rw [ends_put (apart _ (Bool.or_eq_false_iff.mp mismatch).1), mismatch]
    | none =>
        rw [before, Option.none_or] at first
        split at first
        next same =>
          subst q
          cases first
          refine ⟨step, bound, by rw [here, put_nodes_self], fun earlier less => ?_⟩
          have occupied := passed earlier less
          -- no cell holds a key that has not been put in
          obtain ⟨pair, member, key⟩ := built.known _ (place_lt (by decide)) occupied
          have absent := firstValue_eq_none.mp before pair member
          rw [key] at absent
          rw [ends_put (apart _ occupied), ends, occupied, Bool.false_or]
          exact beq_eq_false_iff_ne.mpr absent
        next => cases first

end History

section Calls

theorem Built.insert (built : Built map history) (inserted : map.insert fuel k v = some after) :
    Built after (history ++ [(k, v)]) := by
  simp only [HashMap.insert, freeIdx_eq, Option.pure_def, Option.bind_eq_bind, Option.bind_eq_some_iff,
    Option.some.injEq] at inserted
  obtain ⟨found, walked, rfl⟩ := inserted
  obtain ⟨step, _, here, unused, passed⟩ := (walk_eq_some home_lt).mp walked
  refine built.put unused here ?_ passed
  -- a walk once round would have come to this cell before
  by_contra far
  obtain ⟨earlier, below, again⟩ := place_exists home_lt (here ▸ place_lt (by decide) : found < mapSize)
  have occupied := passed earlier (by omega)
  rw [again, unused] at occupied
  cases occupied

theorem Built.insert_isSome (built : Built map history) (enough : mapSize ≤ fuel) :
    (map.insert fuel k v).isSome ↔ history.length < mapSize := by
  constructor
  · intro inserted
    by_contra filled
    have endless : walk mapSize map.free (home k) fuel = none :=
      walk_endless home_lt (built.none_free (by omega))
    simp [HashMap.insert, freeIdx_eq, endless] at inserted
  · intro room
    obtain ⟨idx, below, unused⟩ := built.exists_free room
    obtain ⟨found, walked⟩ : ∃ found, walk mapSize map.free (home k) fuel = some found :=
      walk_stops home_lt below unused enough
    simp [HashMap.insert, freeIdx_eq, walked]

theorem Built.find (built : Built map history) (enough : mapSize ≤ fuel) : map.find fuel k =
    if (firstValue history k).isSome ∨ history.length < mapSize then some ((firstValue history k).getD 0)
    else none := by
  rw [HashMap.find, findFrom_eq]
  cases first : firstValue history k with
  | some v =>
      obtain ⟨step, bound, held, missed⟩ := built.first k v first
      have stops : map.ends k (place mapSize (home k) step) = true := by simp [ends, held]
      have walked := (walk_eq_some home_lt).mpr ⟨step, Nat.lt_of_lt_of_le bound enough, rfl, stops, missed⟩
      rw [walked, Option.map_some, free, held]
      rfl
  | none =>
      have absent (idx : Nat) (below : idx < mapSize) : map.ends k idx = map.free idx := by
        cases used : map.free idx with
        | true => rw [ends, used, Bool.true_or]
        | false =>
            obtain ⟨pair, member, key⟩ := built.known idx below used
            have other := firstValue_eq_none.mp first pair member
            rw [key] at other
            rw [ends, used, Bool.false_or, beq_eq_false_iff_ne]
            exact other
      by_cases room : history.length < mapSize
      · obtain ⟨idx, below, unused⟩ := built.exists_free room
        obtain ⟨found, walked⟩ := walk_stops home_lt below ((absent idx below).trans unused) enough
        obtain ⟨step, _, here, stops, _⟩ := (walk_eq_some home_lt).mp walked
        rw [absent found (here ▸ place_lt (by decide))] at stops
        rw [walked, Option.map_some, stops, if_pos rfl, if_pos (Or.inr room)]
        rfl
      · have endless : walk mapSize (map.ends k) (home k) fuel = none :=
          walk_endless home_lt fun idx below => (absent idx below).trans (built.none_free (by omega) idx below)
        rw [endless, Option.map_none, if_neg (by simp [room])]

theorem build_concat : build fuel (pairs ++ [(k, v)]) = (build fuel pairs).bind fun map => map.insert fuel k v := by
  rw [build, List.foldlM_append]
  simp [build]

theorem build_built (built : build fuel pairs = some map) : Built map pairs := by
  induction pairs using List.reverseRecOn generalizing map with
  | nil =>
      cases built
      exact empty_built
  | append_singleton pairs pair ih =>
      rw [build_concat, Option.bind_eq_some_iff] at built
      obtain ⟨before, first, inserted⟩ := built
      exact (ih first).insert inserted

theorem build_isSome (enough : mapSize ≤ fuel) : (build fuel pairs).isSome ↔ pairs.length ≤ mapSize := by
  induction pairs using List.reverseRecOn with
  | nil => simp [build]
  | append_singleton pairs pair ih =>
      rw [build_concat, List.length_append, List.length_singleton]
      cases before : build fuel pairs with
      | none =>
          rw [before] at ih
          simp only [Option.isSome_none, Bool.false_eq_true, false_iff] at ih
          simp only [Option.bind_none, Option.isSome_none, Bool.false_eq_true, false_iff]
          omega
      | some map => rw [Option.bind_some, (build_built before).insert_isSome enough, Nat.lt_iff_add_one_le]

end Calls

/-- For any pairs put in, `insert` ends as long as there is a free cell, and `find` gives the value
put in first for a key, or zero.  Only in a full map does the search for a key that is not there not end. -/
theorem finds_first_value (enough : mapSize ≤ fuel) : ((build fuel pairs).isSome ↔ pairs.length ≤ mapSize) ∧
    ∀ map, build fuel pairs = some map → ∀ k, map.find fuel k =
      if (firstValue pairs k).isSome ∨ pairs.length < mapSize then some ((firstValue pairs k).getD 0) else none :=
  ⟨build_isSome enough, fun _ built _ => (build_built built).find enough⟩

theorem finds_first_value_twice : ∃ map, build 1024 [(7, 70), (7, 71)] = some map ∧
    map.find 1024 7 = some 70 ∧ map.find 1024 8 = some 0 := by
  obtain ⟨ends, found⟩ := @finds_first_value 1024 [(7, 70), (7, 71)] (Nat.le_refl mapSize)
  obtain ⟨map, built⟩ := Option.isSome_iff_exists.mp (ends.mpr (by decide))
  exact ⟨map, built, found map built 7, found map built 8⟩

end HashMap

section Lookups

open HashMap

variable {fuel count : Nat} {context : Context}

theorem firstValue_mainPairs {i : Nat} (below : i < 500) :
    firstValue mainPairs (UInt64.ofNat (i + 1)) = some (UInt64.ofNat (i + 1) * 100) := by
  have found : (List.range 500).find? (fun j => UInt64.ofNat (j + 1) = UInt64.ofNat (i + 1)) = some i := by
    rw [List.find?_range_eq_some]
    refine ⟨by simp, List.mem_range.mpr below, fun j less => ?_⟩
    have apart : UInt64.ofNat (j + 1) ≠ UInt64.ofNat (i + 1) := by
      intro same
      have values := congrArg UInt64.toNat same
      rw [UInt64.toNat_ofNat', UInt64.toNat_ofNat'] at values
      omega
    simpa using apart
  rw [firstValue, mainPairs, List.find?_map]
  simp only [Function.comp_def]
  rw [found]
  rfl

structure Ready (context : Context) : Prop where
  built : Built context.map mainPairs
  keys : ∀ i, context.keysToFind i = UInt64.ofNat (i + 1)
  inside : context.keyIdx < 500

theorem Ready.lookup (ready : Ready context) (enough : mapSize ≤ fuel) : ∃ after, context.lookup fuel =
    some (UInt64.ofNat (context.keyIdx + 1) * 100, after) ∧ Ready after ∧
      after.keyIdx = (context.keyIdx + 1) % 500 := by
  refine ⟨{ context with keyIdx := (context.keyIdx + 1) % 500 }, ?_,
    ⟨ready.built, ready.keys, Nat.mod_lt _ (by decide)⟩, rfl⟩
  rw [Context.lookup, ready.keys, ready.built.find enough, firstValue_mainPairs ready.inside]
  rfl

theorem Ready.runs (ready : Ready context) (enough : mapSize ≤ fuel) : ∃ after, context.runs fuel count =
    some ((List.range count).map fun i => UInt64.ofNat ((context.keyIdx + i) % 500 + 1) * 100, after) := by
  induction count generalizing context with
  | zero => exact ⟨context, rfl⟩
  | succ count ih =>
      obtain ⟨next, looked, again, moved⟩ := ready.lookup enough
      obtain ⟨after, rest⟩ := ih again
      refine ⟨after, ?_⟩
      have inside := ready.inside
      simp only [Context.runs, looked, rest, Option.pure_def, Option.bind_eq_bind, Option.bind_some, moved,
        List.range_succ_eq_map, List.map_cons, List.map_map, Nat.add_zero, Nat.mod_eq_of_lt inside]
      refine congrArg some (congrArg (·, after) (congrArg (_ :: ·) ?_))
      refine List.map_congr_left fun i _ => ?_
      simp only [Function.comp_apply, Nat.mod_add_mod]
      rw [show context.keyIdx + 1 + i = context.keyIdx + i.succ by omega]

/-- However long the benchmark runs, every lookup ends, and finds the value of the key whose turn it is. -/
theorem benchmark_lookups (enough : mapSize ≤ fuel) : ∃ context after, main fuel = some context ∧
    context.runs fuel count =
      some ((List.range count).map fun i => UInt64.ofNat (i % 500 + 1) * 100, after) := by
  have fits : mainPairs.length ≤ mapSize := by rw [mainPairs, List.length_map, List.length_range]; decide
  obtain ⟨map, built⟩ := Option.isSome_iff_exists.mp ((build_isSome enough).mpr fits)
  have ready : Ready { map, keysToFind := fun i => UInt64.ofNat (i + 1), keyIdx := 0 } :=
    ⟨build_built built, fun _ => rfl, Nat.zero_lt_succ _⟩
  obtain ⟨after, runs⟩ := ready.runs enough
  refine ⟨{ map, keysToFind := fun i => UInt64.ofNat (i + 1), keyIdx := 0 }, after, ?_, ?_⟩
  · rw [main, built]
    rfl
  · simpa only [Nat.zero_add] using runs

theorem benchmark_lookups_three : ∃ context after, main 1024 = some context ∧
    context.runs 1024 3 = some ([100, 200, 300], after) :=
  benchmark_lookups (Nat.le_refl mapSize)

end Lookups

end HundredDays.BenchMap
