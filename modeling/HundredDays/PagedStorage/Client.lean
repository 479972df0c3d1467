import HundredDays.Semantics.Run
import HundredDays.PagedStorage.Cache.Steps

namespace HundredDays.PagedStorage

open HundredDays.Data HundredDays.Semantics

/-! A client of a page store, and what it takes for a store to implement the page
cache.

The client works through the page pointers that its fetches returned.  It may
hold several for one page; each fetch is matched by at most one unpin.
-/

/-- The operations a page store offers; `ν` is its kind of page pointer and
`none` an operation without a defined outcome. -/
structure PageStore (σ ν : Type) where
  fetch : σ → Int32 → Option (Option ν × σ)
  read : σ → ν → Bytes
  write : σ → ν → Bytes → σ
  unpin : σ → ν → Bool → σ
  flush : σ → Int32 → Option σ
  allocPage : σ → Option (Int32 × σ)
  freePage : σ → Int32 → Option σ

/-- What a client can do.  A handle is an index into the page pointers it holds. -/
inductive Op where
  | fetch (pageId : Int32)
  | read (handle : Nat)
  | write (handle : Nat) (data : Bytes)
  | unpin (handle : Nat) (isDirty : Bool)
  | flush (pageId : Int32)
  | alloc
  | free (pageId : Int32)

/-- What a client learns from its calls. -/
inductive Result where
  | fetched (data : Option Bytes)
  | contents (data : Bytes)
  | allocated (pageId : Int32)
  | freed (pageId : Int32)

/-- A fetch that returned no page. -/
def Result.refused : Result → Bool
  | .fetched none => true
  | _ => false

/-- A held page pointer, the id it was fetched for, and whether the client wrote
through it. -/
structure Handle (ν : Type) where
  page : ν
  pageId : Int32
  wrote : Bool

/-- A page store and its client; `results` is newest first. -/
structure Session (σ ν : Type) where
  store : σ
  handles : List (Handle ν)
  results : List Result

namespace Session

variable {σ ν : Type}

def start (store : σ) : Session σ ν := { store, handles := [], results := [] }

def step (store : PageStore σ ν) (session : Session σ ν) : Op → Option (Session σ ν)
  | .fetch pageId =>
      if pageId < 0 then none
      else (store.fetch session.store pageId).map fun
        | (none, next) => { session with
            store := next, results := .fetched none :: session.results }
        | (some page, next) =>
            { store := next, handles := session.handles ++ [⟨page, pageId, false⟩]
              results := .fetched (some (store.read next page)) :: session.results }
  | .read handle => session.handles[handle]?.map fun held =>
      { session with results := .contents (store.read session.store held.page) :: session.results }
  | .write handle data => session.handles[handle]?.map fun held =>
      { session with
        store := store.write session.store held.page data
        handles := session.handles.set handle { held with wrote := true } }
  | .unpin handle isDirty => session.handles[handle]?.map fun held =>
      { session with
        store := store.unpin session.store held.page isDirty
        handles := session.handles.eraseIdx handle }
  | .flush pageId =>
      if pageId < 0 then none
      else (store.flush session.store pageId).map fun next => { session with store := next }
  | .alloc => (store.allocPage session.store).map fun (pageId, next) =>
      { session with store := next, results := .allocated pageId :: session.results }
  | .free pageId => (store.freePage session.store pageId).map fun next =>
      { session with store := next, results := .freed pageId :: session.results }

end Session

/-- The page cache as a page store: a pointer to a page is its id. -/
def cacheStore (memory : Bool × Bool) : PageStore Cache Int32 where
  fetch cache pageId := (cache.fetch memory.1 pageId).map fun (found, next) =>
    (if found then some pageId else none, next)
  read cache pageId := cache.dataOf pageId
  write cache pageId data := cache.setData pageId fun _ => data
  unpin cache pageId isDirty := cache.unpin pageId isDirty
  flush cache pageId := some (cache.flush pageId)
  allocPage cache := cache.allocPage memory.1 memory.2
  freePage cache pageId := cache.freePage memory.1 memory.2 pageId

/-- How the states of a page store stand for caches.  `Holds state page pageId`
says that the pointer leads to that cached page.  `Generous` states have an
allocator that never refuses. -/
structure Abstraction (σ ν : Type) where
  Implements : σ → Cache → Prop
  Holds : σ → ν → Int32 → Prop
  Generous : σ → Prop

/-- The step from `state` to `next` was a step from `cache` to `image`; the
pointers to pinned pages survived it, and no pointer was left dangling. -/
structure Abstraction.Follows {σ ν : Type} (abstraction : Abstraction σ ν) (state : σ) (cache : Cache)
    (next : σ) (image : Cache) : Prop where
  implements : abstraction.Implements next image
  generous : abstraction.Generous state → abstraction.Generous next
  pinned : ∀ page pageId, abstraction.Holds state page pageId → cache.Pinned pageId 1 →
    abstraction.Holds next page pageId
  valid : ∀ page pageId, abstraction.Holds state page pageId → ∃ other, abstraction.Holds next page other

/-- A page store that implements the page cache, operation by operation. -/
structure Refinement {σ ν : Type} (store : PageStore σ ν) extends Abstraction σ ν where
  fetch : ∀ {state cache} pageId, Implements state cache → 0 ≤ pageId →
    ∃ memory, (Generous state → memory = true) ∧
      Option.Rel (fun result image => toAbstraction.Follows state cache result.2 image.2 ∧
          result.1.isSome = image.1 ∧ ∀ page, result.1 = some page → Holds result.2 page pageId)
        (store.fetch state pageId) (cache.fetch memory pageId)
  read : ∀ {state cache page pageId}, Implements state cache → Holds state page pageId →
    store.read state page = cache.dataOf pageId
  write : ∀ {state cache page pageId} data, Implements state cache → Holds state page pageId →
    toAbstraction.Follows state cache (store.write state page data)
      (cache.setData pageId fun _ => data)
  unpin : ∀ {state cache page pageId} isDirty, Implements state cache → Holds state page pageId →
    toAbstraction.Follows state cache (store.unpin state page isDirty) (cache.unpin pageId isDirty)
  flush : ∀ {state cache} pageId, Implements state cache → 0 ≤ pageId →
    ∃ next, store.flush state pageId = some next ∧
      toAbstraction.Follows state cache next (cache.flush pageId)
  allocPage : ∀ {state cache}, Implements state cache →
    ∃ memory, (Generous state → memory = (true, true)) ∧
      Option.Rel (fun result image => result.1 = image.1 ∧
          toAbstraction.Follows state cache result.2 image.2)
        (store.allocPage state) (cache.allocPage memory.1 memory.2)
  freePage : ∀ {state cache} pageId, Implements state cache →
    ∃ memory, (Generous state → memory = (true, true)) ∧
      Option.Rel (toAbstraction.Follows state cache)
        (store.freePage state pageId) (cache.freePage memory.1 memory.2 pageId)

namespace Session

/-- How many of the client's handles point to a page. -/
def holders {ν : Type} (handles : List (Handle ν)) (pageId : Int32) : Nat :=
  (handles.map Handle.pageId).count pageId

/-- Every held page is cached and pinned at least once for each of its handles. -/
structure Balanced (session : Session Cache Int32) : Prop where
  distinct : session.store.Distinct
  labelled : ∀ held ∈ session.handles, held.page = held.pageId
  pinned : ∀ held ∈ session.handles,
    session.store.Pinned held.pageId (holders session.handles held.pageId)

variable {session next : Session Cache Int32} {held : Handle Int32} {memory : Bool × Bool}
  {handles left right : List (Handle Int32)} {cache : Cache} {results : List Result}

theorem holders_pos (member : held ∈ handles) : 1 ≤ holders handles held.pageId :=
  List.count_pos_iff.mpr (List.mem_map_of_mem member)

/-- A step that leaves the handles and the client's pins alone. -/
theorem Balanced.keep (balanced : session.Balanced) (distinct : cache.Distinct)
    (kept : ∀ pageId count, 1 ≤ count → session.store.Pinned pageId count → cache.Pinned pageId count) :
    Balanced ⟨cache, session.handles, results⟩ where
  distinct := distinct
  labelled := balanced.labelled
  pinned := fun held member => kept _ _ (holders_pos member) (balanced.pinned held member)

theorem Balanced.fetched {pageId : Int32} (balanced : session.Balanced)
    (fetched : Cache.Fetched session.store pageId true cache) :
    Balanced ⟨cache, session.handles ++ [⟨pageId, pageId, false⟩], results⟩ := by
  refine ⟨balanced.distinct.fetched fetched, ?_, ?_⟩
  · intro held member
    rcases List.mem_append.mp member with old | new
    · exact balanced.labelled held old
    · rw [List.mem_singleton.mp new]
  · intro held member
    have counted : holders (session.handles ++ [⟨pageId, pageId, false⟩]) held.pageId =
        if held.pageId = pageId then holders session.handles held.pageId + 1
        else holders session.handles held.pageId := by
      by_cases same : held.pageId = pageId
      · simp [holders, same]
      · simp [holders, same, Ne.symm same]
    by_cases earlier : ∃ other ∈ session.handles, other.pageId = held.pageId
    · obtain ⟨other, old, same⟩ := earlier
      have more := (balanced.pinned other old).fetched (holders_pos old) balanced.distinct fetched
      rw [same] at more
      rw [counted]
      simpa using more
    · have none : holders session.handles held.pageId = 0 := by
        apply List.count_eq_zero.mpr
        intro listed
        obtain ⟨other, old, same⟩ := List.mem_map.mp listed
        exact earlier ⟨other, old, same⟩
      have new : held.pageId = pageId := by
        rcases List.mem_append.mp member with old | new
        · exact absurd ⟨held, old, rfl⟩ earlier
        · rw [List.mem_singleton.mp new]
      rw [counted, if_pos new, none, new]
      exact fetched.pinned

theorem Balanced.wrote {data : Bytes} (balanced : session.Balanced)
    (split : session.handles = left ++ held :: right) :
    Balanced ⟨session.store.setData held.page fun _ => data,
      left ++ { held with wrote := true } :: right, results⟩ := by
  have counted : ∀ pageId, holders (left ++ { held with wrote := true } :: right) pageId =
      holders session.handles pageId := by
    intro pageId
    simp [holders, split]
  have listed : ∀ other ∈ left ++ { held with wrote := true } :: right,
      ∃ old ∈ session.handles, old.page = other.page ∧ old.pageId = other.pageId := by
    intro other member
    rcases List.mem_cons.mp (List.perm_middle.mem_iff.mp member) with rfl | kept
    · exact ⟨held, by simp [split], rfl, rfl⟩
    · refine ⟨other, ?_, rfl, rfl⟩
      rw [split]
      exact List.perm_middle.mem_iff.mpr (List.mem_cons_of_mem held kept)
  refine ⟨balanced.distinct.setData, ?_, ?_⟩
  · intro other member
    obtain ⟨old, before, pages, ids⟩ := listed other member
    rw [← pages, ← ids]
    exact balanced.labelled old before
  · intro other member
    obtain ⟨old, before, _, ids⟩ := listed other member
    rw [counted, ← ids]
    exact (balanced.pinned old before).setData

theorem Balanced.unpinned {isDirty : Bool} (balanced : session.Balanced)
    (split : session.handles = left ++ held :: right) :
    Balanced ⟨session.store.unpin held.page isDirty, left ++ right, results⟩ := by
  have inside : ∀ other ∈ left ++ right, other ∈ session.handles := by
    intro other member
    rw [split]
    exact List.perm_middle.mem_iff.mpr (List.mem_cons_of_mem held member)
  refine ⟨balanced.distinct.unpin, fun other member => balanced.labelled other (inside other member), ?_⟩
  intro other member
  apply Cache.Pinned.unpin
  have counted : holders session.handles other.pageId =
      if other.pageId = held.page then holders (left ++ right) other.pageId + 1
      else holders (left ++ right) other.pageId := by
    rw [balanced.labelled held (by simp [split])]
    by_cases same : other.pageId = held.pageId
    · simp [holders, split, same, Nat.add_assoc]
    · simp [holders, split, same, Ne.symm same]
  rw [← counted]
  exact balanced.pinned other (inside other member)

/-- The client's handles stay pinned through everything it can do. -/
theorem Balanced.step {op : Op} (balanced : session.Balanced)
    (stepped : session.step (cacheStore memory) op = some next) : next.Balanced := by
  cases op with
  | fetch pageId =>
      simp only [Session.step, cacheStore] at stepped
      split at stepped
      · contradiction
      · obtain ⟨⟨result, store⟩, fetched, rfl⟩ := Option.map_eq_some_iff.mp stepped
        obtain ⟨⟨found, image⟩, called, same⟩ := Option.map_eq_some_iff.mp fetched
        obtain ⟨_, effect⟩ := Cache.fetch_some called
        cases found with
        | true =>
            obtain ⟨rfl, rfl⟩ := Prod.mk.inj same
            exact balanced.fetched effect
        | false =>
            obtain ⟨rfl, rfl⟩ := Prod.mk.inj same
            refine balanced.keep (balanced.distinct.fetched effect) ?_
            intro other count used pinned
            simpa using pinned.fetched used balanced.distinct effect
  | read handle =>
      obtain ⟨held, _, rfl⟩ := Option.map_eq_some_iff.mp stepped
      exact balanced.keep balanced.distinct fun _ _ _ pinned => pinned
  | write handle data =>
      obtain ⟨held, found, rfl⟩ := Option.map_eq_some_iff.mp stepped
      obtain ⟨left, right, split, _, replaced⟩ := getElem?_split found
      rw [replaced]
      exact balanced.wrote split
  | unpin handle isDirty =>
      obtain ⟨held, found, rfl⟩ := Option.map_eq_some_iff.mp stepped
      obtain ⟨left, right, split, erased, _⟩ := getElem?_split found
      rw [erased]
      exact balanced.unpinned split
  | flush pageId =>
      simp only [Session.step, cacheStore] at stepped
      split at stepped
      · contradiction
      · cases stepped
        exact balanced.keep balanced.distinct.flush fun _ _ _ pinned => pinned.flush
  | alloc =>
      obtain ⟨⟨pageId, store⟩, called, rfl⟩ := Option.map_eq_some_iff.mp stepped
      have effect := Cache.allocPage_some called
      exact balanced.keep (balanced.distinct.allocated effect)
        fun _ _ used pinned => pinned.allocated used balanced.distinct effect
  | free pageId =>
      obtain ⟨store, called, rfl⟩ := Option.map_eq_some_iff.mp stepped
      have effect := Cache.freePage_some called
      exact balanced.keep (balanced.distinct.freed effect)
        fun _ _ used pinned => pinned.freed used balanced.distinct effect

end Session

namespace Refinement

variable {σ ν : Type} {store : PageStore σ ν} {session : Session σ ν} {image : Session Cache Int32}
  {refinement : Refinement store}

/-- A handle of the store's client, and the cache client's handle for it. -/
def Points (refinement : Refinement store) (state : σ) (held : Handle ν) (imageHeld : Handle Int32) : Prop :=
  refinement.Holds state held.page imageHeld.page ∧ imageHeld.page = imageHeld.pageId ∧
    held.pageId = imageHeld.pageId ∧ held.wrote = imageHeld.wrote

/-- Two sessions whose clients see the same. -/
structure Matches (refinement : Refinement store) (session : Session σ ν)
    (image : Session Cache Int32) : Prop where
  implements : refinement.Implements session.store image.store
  handles : List.Forall₂ (refinement.Points session.store) session.handles image.handles
  results : session.results = image.results

/-- The handles survive a step of the store. -/
theorem Matches.follow {next : σ} {cache : Cache} (matched : refinement.Matches session image)
    (balanced : image.Balanced)
    (follows : refinement.toAbstraction.Follows session.store image.store next cache) :
    List.Forall₂ (refinement.Points next) session.handles image.handles := by
  apply forall₂_imp_mem matched.handles
  rintro held imageHeld member ⟨holds, label, same⟩
  refine ⟨follows.pinned _ _ holds ?_, label, same⟩
  rw [label]
  exact (balanced.pinned imageHeld member).weaken (Session.holders_pos member)

theorem Matches.step (op : Op) (matched : refinement.Matches session image) (balanced : image.Balanced) :
    ∃ memory, (refinement.Generous session.store → memory = (true, true)) ∧
      Option.Rel (fun next imageNext => refinement.Matches next imageNext ∧
          (refinement.Generous session.store → refinement.Generous next.store))
        (session.step store op) (image.step (cacheStore memory) op) := by
  have implements := matched.implements
  have results := matched.results
  cases op with
  | fetch pageId =>
      by_cases negative : pageId < 0
      · refine ⟨(true, true), fun _ => rfl, ?_⟩
        simp only [Session.step, if_pos negative]
        exact .none
      · obtain ⟨memory, granted, called⟩ := refinement.fetch pageId implements (Int32.not_lt.mp negative)
        refine ⟨(memory, true), fun generous => by rw [granted generous], ?_⟩
        simp only [Session.step, if_neg negative, cacheStore, Option.map_map]
        apply rel_map called
        rintro ⟨result, next⟩ ⟨found, cache⟩ ⟨follows, agree, holds⟩
        have follow := matched.follow balanced follows
        cases result with
        | none =>
            cases found with
            | true => contradiction
            | false => exact ⟨⟨follows.implements, follow, by simp [results]⟩, follows.generous⟩
        | some page =>
            cases found with
            | false => contradiction
            | true =>
                have read := refinement.read follows.implements (holds page rfl)
                refine ⟨⟨follows.implements, ?_, by simpa [results] using read⟩, follows.generous⟩
                exact List.rel_append follow (.cons ⟨holds page rfl, rfl, rfl, rfl⟩ .nil)
  | read handle =>
      refine ⟨(true, true), fun _ => rfl, ?_⟩
      apply rel_map (forall₂_getElem? matched.handles handle)
      rintro held imageHeld ⟨holds, _⟩
      have read := refinement.read implements holds
      exact ⟨⟨implements, matched.handles, by simp [results, read, cacheStore]⟩, id⟩
  | write handle data =>
      have pairs : List.Forall₂ (fun held imageHeld => refinement.Points session.store held imageHeld ∧
          imageHeld ∈ image.handles) session.handles image.handles :=
        forall₂_imp_mem matched.handles fun _ _ member points => ⟨points, member⟩
      refine ⟨(true, true), fun _ => rfl, ?_⟩
      apply rel_map (forall₂_getElem? pairs handle)
      rintro held imageHeld ⟨⟨holds, label, ids, _⟩, member⟩
      have follows := refinement.write data implements holds
      refine ⟨⟨follows.implements, ?_, results⟩, follows.generous⟩
      apply forall₂_set (matched.follow balanced follows)
      refine ⟨follows.pinned _ _ holds ?_, label, ids, rfl⟩
      rw [label]
      exact (balanced.pinned imageHeld member).weaken (Session.holders_pos member)
  | unpin handle isDirty =>
      refine ⟨(true, true), fun _ => rfl, ?_⟩
      apply rel_map (forall₂_getElem? matched.handles handle)
      rintro held imageHeld ⟨holds, _⟩
      have follows := refinement.unpin isDirty implements holds
      refine ⟨⟨follows.implements, ?_, results⟩, follows.generous⟩
      exact forall₂_eraseIdx (matched.follow balanced follows)
  | flush pageId =>
      refine ⟨(true, true), fun _ => rfl, ?_⟩
      by_cases negative : pageId < 0
      · simp only [Session.step, if_pos negative]
        exact .none
      · obtain ⟨next, flushed, follows⟩ := refinement.flush pageId implements (Int32.not_lt.mp negative)
        simp only [Session.step, if_neg negative, flushed, cacheStore]
        exact .some ⟨⟨follows.implements, matched.follow balanced follows, results⟩, follows.generous⟩
  | alloc =>
      obtain ⟨memory, granted, called⟩ := refinement.allocPage implements
      refine ⟨memory, granted, ?_⟩
      apply rel_map called
      rintro ⟨pageId, next⟩ ⟨imageId, cache⟩ ⟨same, follows⟩
      dsimp only at same
      subst same
      exact ⟨⟨follows.implements, matched.follow balanced follows, by simp [results]⟩, follows.generous⟩
  | free pageId =>
      obtain ⟨memory, granted, called⟩ := refinement.freePage pageId implements
      refine ⟨memory, granted, ?_⟩
      apply rel_map called
      intro next cache follows
      exact ⟨⟨follows.implements, matched.follow balanced follows, by simp [results]⟩, follows.generous⟩

end Refinement

end HundredDays.PagedStorage
