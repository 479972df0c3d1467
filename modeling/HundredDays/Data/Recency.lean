import Mathlib.Data.Finset.Card
import Mathlib.Data.List.TakeWhile
import Mathlib.Logic.Function.Basic

namespace HundredDays.Data.Recency

/-! Least-recently-used replacement, over arbitrary keys and values.

The cache is a list of entries, the one used last in front.  What it holds can be read
off the history of uses: the first keys of that history, each counted once.
-/

variable {K V : Type*} [DecidableEq K] {key other : K} {value : V} {uses keys : List K}
  {entries : List (K × V)} {capacity count : Nat}

/-- The keys of a history, latest use first, without repetitions. -/
def latest : List K → List K
  | [] => []
  | key :: rest => key :: (latest rest).filter (· ≠ key)

theorem mem_latest : key ∈ latest uses ↔ key ∈ uses := by
  induction uses with
  | nil => rfl
  | cons first rest ih =>
      rw [latest, List.mem_cons, List.mem_cons, List.mem_filter, ih, decide_eq_true_eq]
      by_cases same : key = first <;> simp [same]

theorem latest_nodup : (latest uses).Nodup := by
  induction uses with
  | nil => exact List.nodup_nil
  | cons first rest ih =>
      rw [latest, List.nodup_cons]
      exact ⟨by simp, ih.filter _⟩

theorem length_latest : (latest uses).length = uses.toFinset.card := by
  have same : (latest uses).toFinset = uses.toFinset := by
    ext key
    rw [List.mem_toFinset, List.mem_toFinset, mem_latest]
  rw [← same, List.toFinset_card_of_nodup latest_nodup]

/-- The keys used since a key was used. -/
theorem takeWhile_latest :
    (latest uses).takeWhile (· ≠ key) = latest (uses.takeWhile (· ≠ key)) := by
  induction uses with
  | nil => rfl
  | cons first rest ih =>
      by_cases same : first = key
      · simp [latest, same]
      · have commute : ((latest rest).filter (· ≠ first)).takeWhile (· ≠ key) =
            ((latest rest).takeWhile (· ≠ key)).filter (· ≠ first) := by
          generalize latest rest = keys
          induction keys with
          | nil => rfl
          | cons second later onward =>
              by_cases here : second = first
              · subst second
                simpa [same] using onward
              · by_cases there : second = key
                · simp [there, Ne.symm same]
                · simpa [here, there] using onward
        rw [latest, List.takeWhile_cons_of_pos (by simpa using same), commute, ih,
          List.takeWhile_cons_of_pos (by simpa using same), latest]

theorem mem_take_iff : key ∈ keys.take count ↔
    key ∈ keys ∧ (keys.takeWhile (· ≠ key)).length < count := by
  induction keys generalizing count with
  | nil => simp
  | cons first rest ih =>
      cases count with
      | zero => simp
      | succ count =>
          by_cases same : first = key
          · simp [same]
          · have differ : key ≠ first := Ne.symm same
            rw [List.take_succ_cons, List.mem_cons, ih, List.takeWhile_cons_of_pos (by simpa using same),
              List.mem_cons, List.length_cons]
            simp [differ]

/-- A key is among the latest when fewer distinct others were used since its last use. -/
theorem mem_take_latest : key ∈ (latest uses).take count ↔
    key ∈ uses ∧ (uses.takeWhile (· ≠ key)).toFinset.card < count := by
  rw [mem_take_iff, mem_latest, takeWhile_latest, length_latest]

/-- Earlier in the list means used later. -/
theorem latest_order : (latest uses).Pairwise fun first second => uses.idxOf first < uses.idxOf second := by
  induction uses with
  | nil => exact List.Pairwise.nil
  | cons first rest ih =>
      rw [latest, List.pairwise_cons]
      constructor
      · intro second member
        have differ : second ≠ first := by simpa using (List.mem_filter.mp member).2
        rw [List.idxOf_cons_self, List.idxOf_cons_ne _ differ.symm]
        exact Nat.succ_pos _
      · apply List.Pairwise.imp_of_mem ?_ (ih.filter _)
        intro second third inSecond inThird earlier
        have differSecond : second ≠ first := by simpa using (List.mem_filter.mp inSecond).2
        have differThird : third ≠ first := by simpa using (List.mem_filter.mp inThird).2
        rw [List.idxOf_cons_ne _ differSecond.symm, List.idxOf_cons_ne _ differThird.symm]
        exact Nat.succ_lt_succ earlier

section Replacement

/-- Where all names differ, dropping a name drops one member. -/
theorem filter_ne_middle {α : Type*} {name : α → K} {member : α} {left right : List α}
    (distinct : ((left ++ member :: right).map name).Nodup) :
    (left ++ member :: right).filter (fun other => name other ≠ name member) = left ++ right := by
  rw [List.map_append, List.map_cons, List.nodup_middle, List.nodup_cons, ← List.map_append] at distinct
  have kept : ∀ other ∈ left ++ right, decide (name other ≠ name member) = true := by
    intro other inside
    rw [decide_eq_true_eq]
    intro same
    exact distinct.1 (same ▸ List.mem_map_of_mem inside)
  have all := List.filter_eq_self.mpr kept
  rw [List.filter_append] at all ⊢
  simpa using all

/-- Using a key again brings it to the front. -/
theorem take_latest_hit (held : key ∈ (latest uses).take capacity) :
    (latest (key :: uses)).take capacity = key :: ((latest uses).take capacity).filter (· ≠ key) := by
  have distinct : (latest uses).Nodup := latest_nodup
  rw [latest]
  generalize latest uses = keys at held distinct
  obtain ⟨position, before⟩ := mem_take_iff.mp held
  obtain ⟨left, right, split, absent⟩ := List.eq_append_cons_of_mem position
  subst keys
  have length : ((left ++ key :: right).takeWhile (· ≠ key)).length = left.length := by
    rw [List.takeWhile_append_of_pos]
    · simp
    · intro other member
      rw [decide_eq_true_eq]
      intro same
      exact absent (same ▸ member)
  rw [length] at before
  obtain ⟨rest, rfl⟩ := Nat.exists_eq_add_of_lt before
  have taken : (left ++ key :: right).take (left.length + rest + 1) = left ++ key :: right.take rest := by
    rw [List.take_append, List.take_of_length_le (by omega),
      show left.length + rest + 1 - left.length = rest + 1 by omega, List.take_succ_cons]
  have fewer : (left ++ key :: right.take rest).Nodup := taken ▸ (List.take_sublist _ _).nodup distinct
  have dropped : (left ++ key :: right).filter (· ≠ key) = left ++ right :=
    filter_ne_middle ((List.map_id _).symm ▸ distinct)
  have droppedTaken : (left ++ key :: right.take rest).filter (· ≠ key) = left ++ right.take rest :=
    filter_ne_middle ((List.map_id _).symm ▸ fewer)
  rw [taken, dropped, droppedTaken, List.take_succ_cons, List.take_append,
    List.take_of_length_le (by omega), Nat.add_sub_cancel_left]

/-- Using a new key takes away the last one, if the cache is full. -/
theorem take_latest_miss (positive : 1 ≤ capacity) (missing : key ∉ (latest uses).take capacity) :
    (latest (key :: uses)).take capacity =
      key :: (if ((latest uses).take capacity).length = capacity then ((latest uses).take capacity).dropLast
        else (latest uses).take capacity) := by
  obtain ⟨less, rfl⟩ := Nat.exists_eq_add_of_le' positive
  have distinct : (latest uses).Nodup := latest_nodup
  rw [latest]
  generalize latest uses = keys at missing distinct
  have others : (keys.filter (· ≠ key)).take less = keys.take less := by
    by_cases member : key ∈ keys
    · obtain ⟨left, right, split, absent⟩ := List.eq_append_cons_of_mem member
      subst keys
      have far : less + 1 ≤ left.length := by
        by_contra near
        apply missing
        rw [List.take_append]
        have inside : key ∈ (key :: right).take (less + 1 - left.length) := by
          rw [show less + 1 - left.length = less - left.length + 1 by omega, List.take_succ_cons]
          exact List.mem_cons_self
        exact List.mem_append_right _ inside
      have dropped : (left ++ key :: right).filter (· ≠ key) = left ++ right :=
        filter_ne_middle ((List.map_id _).symm ▸ distinct)
      rw [dropped, List.take_append_of_le_length (by omega),
        List.take_append_of_le_length (by omega)]
    · have kept : ∀ other ∈ keys, decide (other ≠ key) = true := by
        intro other inside
        rw [decide_eq_true_eq]
        intro same
        exact member (same ▸ inside)
      rw [List.filter_eq_self.mpr kept]
  rw [List.take_succ_cons, others]
  congr 1
  rw [List.length_take]
  split
  next full =>
    rw [List.dropLast_eq_take, List.length_take, full, Nat.add_sub_cancel, List.take_take,
      Nat.min_eq_left (by omega)]
  next room => rw [List.take_of_length_le (by omega), List.take_of_length_le (by omega)]

end Replacement

section Entries

/-- What is stored for a key. -/
def find (entries : List (K × V)) (key : K) : Option V :=
  (entries.find? fun entry => entry.1 = key).map Prod.snd

def others (entries : List (K × V)) (key : K) : List (K × V) := entries.filter fun entry => entry.1 ≠ key

def put (capacity : Nat) (entries : List (K × V)) (key : K) (value : V) : List (K × V) :=
  (key, value) ::
    if (find entries key).isSome then others entries key
    else if entries.length = capacity then entries.dropLast
    else entries

/-- What is found for a key, and the entries after that. -/
def get (entries : List (K × V)) (key : K) : Option V × List (K × V) :=
  ((find entries key), ((find entries key).map fun value => (key, value) :: others entries key).getD entries)

inductive Request (K V : Type*) where
  | put (key : K) (value : V)
  | get (key : K)

/-- What a get has found; nothing for a put. -/
def answer (entries : List (K × V)) : Request K V → Option V
  | .put _ _ => none
  | .get key => (get entries key).1

def step (capacity : Nat) (entries : List (K × V)) : Request K V → List (K × V)
  | .put key value => put capacity entries key value
  | .get key => (get entries key).2

/-- The keys put or found, latest first. -/
def usesAfter (log : List (Request K V × Option V)) : List K :=
  log.foldl (fun uses exchange =>
    match exchange with
    | (.put key _, _) => key :: uses
    | (.get key, some _) => key :: uses
    | (.get _, none) => uses) []

def lastPut (log : List (Request K V × Option V)) : K → Option V :=
  log.foldl (fun values exchange =>
    match exchange with
    | (.put key value, _) => Function.update values key (some value)
    | (.get _, _) => values) fun _ => none

def putKeys (log : List (Request K V × Option V)) : Finset K :=
  log.foldl (fun keys exchange =>
    match exchange with
    | (.put key _, _) => insert key keys
    | (.get _, _) => keys) ∅

/-- Fewer distinct other keys were put or found since the key was. -/
def Recent (capacity : Nat) (log : List (Request K V × Option V)) (key : K) : Prop :=
  key ∈ usesAfter log ∧ ((usesAfter log).takeWhile (· ≠ key)).toFinset.card < capacity

instance (log : List (Request K V × Option V)) (key : K) : Decidable (Recent capacity log key) :=
  inferInstanceAs (Decidable (_ ∧ _))

/-- The entries are what the history asks for. -/
structure LeastRecent (capacity : Nat) (log : List (Request K V × Option V)) (entries : List (K × V)) : Prop where
  found : ∀ key, find entries key = if Recent capacity log key then lastPut log key else none
  evicts : ∀ key value, entries.length = capacity → find entries key = none → ∃ victim ∈ entries,
    (∀ other ∈ entries, other ≠ victim → (usesAfter log).idxOf other.1 < (usesAfter log).idxOf victim.1) ∧
      put capacity entries key value = (key, value) :: others entries victim.1
  count : entries.length = min capacity (putKeys log).card

theorem find_isSome : (find entries key).isSome = true ↔ key ∈ entries.map Prod.fst := by
  simp [find]

theorem find_eq_none : find entries key = none ↔ key ∉ entries.map Prod.fst := by
  rw [← find_isSome]
  cases find entries key <;> simp

theorem mem_of_find (found : find entries key = some value) : (key, value) ∈ entries := by
  obtain ⟨entry, first, same⟩ := Option.map_eq_some_iff.mp found
  have named : entry.1 = key := by simpa using List.find?_some first
  have member := List.mem_of_find?_eq_some first
  rw [← named, ← same]
  exact member

theorem others_middle {left right : List (K × V)} {entry : K × V}
    (distinct : ((left ++ entry :: right).map Prod.fst).Nodup) :
    others (left ++ entry :: right) entry.1 = left ++ right :=
  filter_ne_middle distinct

theorem find_middle {left right : List (K × V)} (distinct : ((left ++ (key, value) :: right).map Prod.fst).Nodup) :
    find (left ++ (key, value) :: right) key = some value := by
  have absent : left.find? (fun entry => decide (entry.1 = key)) = none := by
    rw [List.find?_eq_none]
    intro entry member
    rw [List.map_append, List.nodup_append] at distinct
    simpa using distinct.2.2 _ (List.mem_map_of_mem member) key (by simp)
  rw [find, List.find?_append, absent]
  simp

theorem put_held {left right : List (K × V)} {old : V}
    (distinct : ((left ++ (key, old) :: right).map Prod.fst).Nodup) :
    put capacity (left ++ (key, old) :: right) key value = (key, value) :: (left ++ right) := by
  rw [put, find_middle distinct, others_middle distinct]
  rfl

theorem get_held {left right : List (K × V)} (distinct : ((left ++ (key, value) :: right).map Prod.fst).Nodup) :
    get (left ++ (key, value) :: right) key = (some value, (key, value) :: (left ++ right)) := by
  rw [get, find_middle distinct, others_middle distinct]
  rfl

theorem put_missing (missing : find entries key = none) : put capacity entries key value =
    (key, value) :: (if entries.length = capacity then entries.dropLast else entries) := by
  rw [put, missing]
  rfl

theorem get_missing (missing : find entries key = none) : get entries key = (none, entries) := by
  rw [get, missing]
  rfl

theorem map_others : (others entries key).map Prod.fst = (entries.map Prod.fst).filter (· ≠ key) := by
  rw [others, List.filter_map]
  rfl

/-- How the entries come from the history. -/
structure Tracks (capacity : Nat) (log : List (Request K V × Option V)) (entries : List (K × V)) : Prop where
  keys : entries.map Prod.fst = (latest (usesAfter log)).take capacity
  values : ∀ entry ∈ entries, lastPut log entry.1 = some entry.2
  used : ∀ key, key ∈ usesAfter log ↔ key ∈ putKeys log

namespace Tracks

variable {log : List (Request K V × Option V)}

theorem begin : Tracks capacity ([] : List (Request K V × Option V)) [] :=
  ⟨by simp [usesAfter, latest], by simp, by simp [usesAfter, putKeys]⟩

theorem keys_nodup (tracks : Tracks capacity log entries) : (entries.map Prod.fst).Nodup :=
  tracks.keys ▸ (List.take_sublist _ _).nodup latest_nodup

theorem used_of_mem (tracks : Tracks capacity log entries) (held : key ∈ entries.map Prod.fst) :
    key ∈ usesAfter log := by
  rw [tracks.keys] at held
  exact mem_latest.mp (List.mem_of_mem_take held)

theorem put (tracks : Tracks capacity log entries) (positive : 1 ≤ capacity) (key : K) (value : V) :
    Tracks capacity (log ++ [(.put key value, none)]) (put capacity entries key value) := by
  have uses : usesAfter (log ++ [(.put key value, none)]) = key :: usesAfter log := by simp [usesAfter]
  have values : lastPut (log ++ [(.put key value, none)]) = Function.update (lastPut log) key (some value) := by
    simp [lastPut]
  have put : putKeys (log ++ [(.put key value, none)]) = insert key (putKeys log) := by simp [putKeys]
  constructor
  · rw [uses, Recency.put, List.map_cons]
    split
    next held =>
      have member := find_isSome.mp held
      rw [tracks.keys] at member
      rw [take_latest_hit member, map_others, tracks.keys]
    next missing =>
      have absent : key ∉ (latest (usesAfter log)).take capacity := by
        rw [← tracks.keys, ← find_isSome]
        exact missing
      rw [take_latest_miss positive absent, ← tracks.keys, List.length_map]
      split
      · rw [List.map_dropLast]
      · rfl
  · intro entry member
    rw [values]
    cases List.mem_cons.mp member with
    | inl new => rw [new, Function.update_self]
    | inr old =>
        have both : entry ∈ entries ∧ entry.1 ≠ key := by
          split at old
          next held =>
            have kept := List.mem_filter.mp old
            exact ⟨kept.1, by simpa using kept.2⟩
          next missing =>
            have inside : entry ∈ entries := by
              split at old
              · exact List.mem_of_mem_dropLast old
              · exact old
            refine ⟨inside, ?_⟩
            intro same
            apply missing
            rw [find_isSome, ← same]
            exact List.mem_map_of_mem inside
        rw [Function.update_of_ne both.2]
        exact tracks.values entry both.1
  · intro other
    rw [uses, put, List.mem_cons, Finset.mem_insert, tracks.used]

theorem get (tracks : Tracks capacity log entries) (key : K) :
    Tracks capacity (log ++ [(.get key, find entries key)]) (get entries key).2 := by
  have values : lastPut (log ++ [(.get key, find entries key)]) = lastPut log := by simp [lastPut]
  have put : putKeys (log ++ [(.get key, find entries key)]) = putKeys log := by simp [putKeys]
  cases found : find entries key with
  | none =>
      have uses : usesAfter (log ++ [(.get key, none)]) = usesAfter log := by simp [usesAfter]
      rw [found] at values put
      rw [get_missing found]
      exact ⟨uses ▸ tracks.keys, values ▸ tracks.values, by rw [uses, put]; exact tracks.used⟩
  | some value =>
      have uses : usesAfter (log ++ [(.get key, some value)]) = key :: usesAfter log := by simp [usesAfter]
      rw [found] at values put
      have held : key ∈ entries.map Prod.fst := by
        rw [← find_isSome, found]
        rfl
      rw [Recency.get, found, Option.map_some, Option.getD_some]
      constructor
      · rw [uses, List.map_cons, map_others, tracks.keys]
        rw [tracks.keys] at held
        rw [take_latest_hit held]
      · intro entry member
        rw [values]
        cases List.mem_cons.mp member with
        | inl same => exact same ▸ tracks.values _ (mem_of_find found)
        | inr other => exact tracks.values entry (List.mem_filter.mp other).1
      · intro other
        rw [uses, put, ← tracks.used, List.mem_cons]
        constructor
        · intro either
          exact either.elim (fun same => same ▸ tracks.used_of_mem held) id
        · exact Or.inr

/-- One request keeps the entries up with the history. -/
theorem step (tracks : Tracks capacity log entries) (positive : 1 ≤ capacity) (request : Request K V) :
    Tracks capacity (log ++ [(request, answer entries request)]) (step capacity entries request) := by
  cases request with
  | put key value => exact tracks.put positive key value
  | get key => exact tracks.get key

theorem leastRecent (tracks : Tracks capacity log entries) (positive : 1 ≤ capacity) :
    LeastRecent capacity log entries := by
  constructor
  · intro key
    split
    next recent =>
      have held := mem_take_latest.mpr recent
      rw [← tracks.keys, ← find_isSome, Option.isSome_iff_exists] at held
      obtain ⟨value, found⟩ := held
      rw [found]
      exact (tracks.values _ (mem_of_find found)).symm
    next stale =>
      rw [find_eq_none, tracks.keys]
      intro held
      exact stale (mem_take_latest.mp held)
  · intro key value full missing
    have nonempty : entries ≠ [] := by
      intro empty
      rw [empty] at full
      simp only [List.length_nil] at full
      omega
    obtain ⟨rest, victim, rfl⟩ := (List.eq_nil_or_concat' entries).resolve_left nonempty
    refine ⟨victim, by simp, ?_, ?_⟩
    · intro other member differ
      have ordered : ((rest ++ [victim]).map Prod.fst).Pairwise
          fun first second => (usesAfter log).idxOf first < (usesAfter log).idxOf second :=
        tracks.keys ▸ latest_order.sublist (List.take_sublist _ _)
      rw [List.map_append, List.pairwise_append] at ordered
      have earlier : other ∈ rest := by simpa [differ] using member
      exact ordered.2.2 _ (List.mem_map_of_mem earlier) _ (by simp)
    · have distinct := tracks.keys_nodup
      rw [others_middle distinct, List.append_nil, put_missing missing, if_pos full, List.dropLast_concat]
  · have length := congrArg List.length tracks.keys
    rw [List.length_map, List.length_take, length_latest] at length
    have same : (usesAfter log).toFinset = putKeys log := by
      ext key
      rw [List.mem_toFinset, tracks.used]
    rw [length, same]

end Tracks

end Entries

section Inclusion

/-! What a smaller cache holds, a larger one holds too. -/

variable {small large : Nat} {few many : List (K × V)}

theorem find_of_mem (distinct : (entries.map Prod.fst).Nodup) (member : (key, value) ∈ entries) :
    find entries key = some value := by
  obtain ⟨left, right, rfl⟩ := List.append_of_mem member
  exact find_middle distinct

theorem others_missing (missing : find entries key = none) : others entries key = entries := by
  refine List.filter_eq_self.mpr fun entry member => ?_
  rw [decide_eq_true_eq]
  rintro rfl
  exact find_eq_none.mp missing (List.mem_map_of_mem member)

theorem length_others (distinct : (entries.map Prod.fst).Nodup) (held : find entries key = some value) :
    (others entries key).length + 1 = entries.length := by
  obtain ⟨left, right, rfl⟩ := List.append_of_mem (mem_of_find held)
  rw [others_middle distinct, List.length_append, List.length_append, List.length_cons]
  omega

theorem front_nodup {rest : List (K × V)} (sublist : List.Sublist rest (others entries key))
    (distinct : (entries.map Prod.fst).Nodup) : (((key, value) :: rest).map Prod.fst).Nodup := by
  have names := sublist.map Prod.fst
  rw [map_others] at names
  rw [List.map_cons, List.nodup_cons]
  exact ⟨fun again => by simpa using List.of_mem_filter (names.subset again), names.nodup (distinct.filter _)⟩

theorem dropLast_sublist_dropLast {α : Type*} {left right : List α} (sublist : List.Sublist left right) :
    List.Sublist left.dropLast right.dropLast := by
  have reversed := (List.reverse_sublist.mpr sublist).tail
  rwa [List.tail_reverse, List.tail_reverse, List.reverse_sublist] at reversed

/-- Until the smaller cache is full the two are one; after that it holds a part of the larger, in one order. -/
structure Includes (small : Nat) (few many : List (K × V)) : Prop where
  sublist : List.Sublist few many
  distinct : (many.map Prod.fst).Nodup
  bounded : few.length ≤ small
  alike : few.length ≠ small → few = many

namespace Includes

omit [DecidableEq K] in
theorem begin : Includes small ([] : List (K × V)) [] :=
  ⟨List.Sublist.refl _, List.nodup_nil, Nat.zero_le _, fun _ => rfl⟩

omit [DecidableEq K] in
theorem few_distinct (includes : Includes small few many) : (few.map Prod.fst).Nodup :=
  (includes.sublist.map Prod.fst).nodup includes.distinct

theorem found (includes : Includes small few many) (held : find few key = some value) :
    find many key = some value :=
  find_of_mem includes.distinct (includes.sublist.subset (mem_of_find held))

/-- Both bring a key to the front. -/
theorem both (includes : Includes small few many) {old : V} (held : find few key = some old) :
    Includes small ((key, value) :: others few key) ((key, value) :: others many key) := by
  have length := length_others includes.few_distinct held
  refine ⟨(includes.sublist.filter _).cons_cons _, front_nodup (List.Sublist.refl _) includes.distinct, ?_, ?_⟩
  · rw [List.length_cons, length]
    exact includes.bounded
  · rw [List.length_cons, length]
    exact fun room => by rw [includes.alike room]

/-- The larger cache alone knows the key, so the smaller one is full. -/
theorem full (includes : Includes small few many) (missing : find few key = none)
    (held : find many key = some value) : few.length = small := by
  by_contra room
  rw [includes.alike room, held] at missing
  cases missing

theorem larger (includes : Includes small few many) (missing : find few key = none)
    (held : find many key = some value) : Includes small few ((key, value) :: others many key) := by
  have inside : List.Sublist few (others many key) := others_missing missing ▸ includes.sublist.filter _
  exact ⟨inside.cons _, front_nodup (List.Sublist.refl _) includes.distinct, includes.bounded,
    fun room => absurd (includes.full missing held) room⟩

theorem get (includes : Includes small few many) (key : K) : Includes small (get few key).2 (get many key).2 := by
  cases held : find few key with
  | some value =>
      rw [Recency.get, Recency.get, held, includes.found held]
      exact includes.both held
  | none =>
      rw [get_missing held]
      cases known : find many key with
      | some value =>
          rw [Recency.get, known]
          exact includes.larger held known
      | none =>
          rw [get_missing known]
          exact includes

theorem put (includes : Includes small few many) (positive : 1 ≤ small) (more : small ≤ large) (key : K) (value : V) :
    Includes small (put small few key value) (put large many key value) := by
  cases held : find few key with
  | some old =>
      rw [Recency.put, Recency.put, held, includes.found held]
      exact includes.both held
  | none =>
      rw [put_missing held]
      cases known : find many key with
      | some old =>
          have full := includes.full held known
          have inside : List.Sublist few (others many key) := others_missing held ▸ includes.sublist.filter _
          rw [Recency.put, known, if_pos full]
          refine ⟨((List.dropLast_sublist few).trans inside).cons_cons _,
            front_nodup (List.Sublist.refl _) includes.distinct, ?_, ?_⟩
          · rw [List.length_cons, List.length_dropLast]
            omega
          · rw [List.length_cons, List.length_dropLast]
            intro room
            omega
      | none =>
          have fresh {rest : List (K × V)} (sublist : List.Sublist rest many) :
              (((key, value) :: rest).map Prod.fst).Nodup :=
            front_nodup ((others_missing known).symm ▸ sublist) includes.distinct
          rw [put_missing known]
          by_cases full : few.length = small
          · rw [if_pos full]
            have length : ((key, value) :: few.dropLast).length = small := by
              rw [List.length_cons, List.length_dropLast]
              omega
            split
            next filled =>
              exact ⟨(dropLast_sublist_dropLast includes.sublist).cons_cons _, fresh (List.dropLast_sublist _),
                length.le, fun room => absurd length room⟩
            next free =>
              exact ⟨((List.dropLast_sublist few).trans includes.sublist).cons_cons _, fresh (List.Sublist.refl _),
                length.le, fun room => absurd length room⟩
          · have same := includes.alike full
            have bounded := includes.bounded
            subst same
            rw [if_neg full, if_neg (by omega)]
            refine ⟨List.Sublist.refl _, fresh (List.Sublist.refl _), ?_, fun _ => rfl⟩
            rw [List.length_cons]
            omega

theorem step (includes : Includes small few many) (positive : 1 ≤ small) (more : small ≤ large)
    (request : Request K V) : Includes small (step small few request) (step large many request) := by
  cases request with
  | put key value => exact includes.put positive more key value
  | get key => exact includes.get key

/-- What the smaller cache finds, the larger one finds. -/
theorem answer (includes : Includes small few many) (request : Request K V)
    (answered : answer few request = some value) : Recency.answer many request = some value := by
  cases request with
  | put key other => cases answered
  | get key => exact includes.found answered

end Includes

end Inclusion

end HundredDays.Data.Recency
