import HundredDays.PagedStorage.Client

namespace HundredDays.PagedStorage

/-! Allocating and freeing pages are made of fetches, unpins and accesses to page
data.  A page store that implements these implements them.
-/

variable {σ ν : Type} {abstraction : Abstraction σ ν} {state next last : σ} {cache image final : Cache}
  {page hdr : ν} {pageId : Int32}

/-- A step that moves no page, so that every page pointer stays good. -/
structure Abstraction.Edits (abstraction : Abstraction σ ν) (state next : σ) (image : Cache) : Prop where
  implements : abstraction.Implements next image
  generous : abstraction.Generous state → abstraction.Generous next
  holds : ∀ page pageId, abstraction.Holds state page pageId → abstraction.Holds next page pageId

namespace Abstraction

theorem Edits.trans (first : abstraction.Edits state next image) (second : abstraction.Edits next last final) :
    abstraction.Edits state last final where
  implements := second.implements
  generous := fun generous => second.generous (first.generous generous)
  holds := fun page pageId held => second.holds page pageId (first.holds page pageId held)

theorem Edits.follows (edits : abstraction.Edits state next image) :
    abstraction.Follows state cache next image where
  implements := edits.implements
  generous := edits.generous
  pinned := fun page pageId held _ => edits.holds page pageId held
  valid := fun page pageId held => ⟨pageId, edits.holds page pageId held⟩

theorem Follows.edits (first : abstraction.Follows state cache next image)
    (second : abstraction.Edits next last final) : abstraction.Follows state cache last final where
  implements := second.implements
  generous := fun generous => second.generous (first.generous generous)
  pinned := fun page pageId held pinned => second.holds page pageId (first.pinned page pageId held pinned)
  valid := by
    intro page pageId held
    obtain ⟨other, still⟩ := first.valid page pageId held
    exact ⟨other, second.holds page other still⟩

theorem Follows.trans (first : abstraction.Follows state cache next image)
    (second : abstraction.Follows next image last final)
    (kept : ∀ pageId, cache.Pinned pageId 1 → image.Pinned pageId 1) :
    abstraction.Follows state cache last final where
  implements := second.implements
  generous := fun generous => second.generous (first.generous generous)
  pinned := fun page pageId held pinned =>
    second.pinned page pageId (first.pinned page pageId held pinned) (kept pageId pinned)
  valid := by
    intro page pageId held
    obtain ⟨other, still⟩ := first.valid page pageId held
    exact second.valid page other still

end Abstraction

/-- The calls that allocating and freeing are made of.  A page is unpinned with
both its pointer and its id, since the two implementations differ in which they use. -/
structure Primitives (σ ν : Type) where
  fetch : σ → Int32 → Option (Option ν × σ)
  read : σ → ν → Bytes
  setData : σ → ν → (Bytes → Bytes) → σ
  unpin : σ → ν → Int32 → Bool → σ

namespace Primitives

def allocPage (calls : Primitives σ ν) (state : σ) : Option (Int32 × σ) := do
  let (hdrPage, state) ← calls.fetch state 0
  let hdr ← hdrPage
  if (calls.read state hdr).header.freeListHead ≠ -1 then
    let newPageId := (calls.read state hdr).header.freeListHead
    let (freePage, state) ← calls.fetch state newPageId
    let free ← freePage
    let nextFree := (calls.read state free).nextFree
    let state := calls.setData state hdr fun data => data.setFreeListHead nextFree
    let state := calls.unpin state free newPageId false
    some (newPageId, calls.unpin state hdr 0 true)
  else
    let newPageId := (calls.read state hdr).header.totalPages.toInt32
    let state := calls.setData state hdr fun data => data.setTotalPages (data.header.totalPages + 1)
    some (newPageId, calls.unpin state hdr 0 true)

def freePage (calls : Primitives σ ν) (state : σ) (pageId : Int32) : Option σ :=
  if pageId ≤ 0 then some state
  else do
    let (hdrPage, state) ← calls.fetch state 0
    let hdr ← hdrPage
    let (target, state) ← calls.fetch state pageId
    let freed ← target
    let state := calls.setData state freed fun _ => Bytes.zero
    let state := calls.setData state freed fun data =>
      data.setI32 0 (calls.read state hdr).header.freeListHead
    let state := calls.setData state hdr fun data => data.setFreeListHead pageId
    let state := calls.unpin state freed pageId true
    some (calls.unpin state hdr 0 true)

/-- Each call does to the cache what its name says. -/
structure Sound (calls : Primitives σ ν) (abstraction : Abstraction σ ν) : Prop where
  distinct : ∀ {state cache}, abstraction.Implements state cache → cache.Distinct
  fetch : ∀ {state cache pageId}, abstraction.Implements state cache → 0 ≤ pageId →
    ∃ memory, (abstraction.Generous state → memory = true) ∧
      Option.Rel (fun result image => abstraction.Follows state cache result.2 image.2 ∧
          result.1.isSome = image.1 ∧ ∀ page, result.1 = some page → abstraction.Holds result.2 page pageId)
        (calls.fetch state pageId) (cache.fetch memory pageId)
  negative : ∀ {state cache pageId}, abstraction.Implements state cache → pageId < 0 →
    ∀ page next, calls.fetch state pageId ≠ some (some page, next)
  read : ∀ {state cache page pageId}, abstraction.Implements state cache →
    abstraction.Holds state page pageId → calls.read state page = cache.dataOf pageId
  setData : ∀ {state cache page pageId} change, abstraction.Implements state cache →
    abstraction.Holds state page pageId →
    abstraction.Edits state (calls.setData state page change) (cache.setData pageId change)
  unpin : ∀ {state cache page pageId} isDirty, abstraction.Implements state cache →
    abstraction.Holds state page pageId →
    abstraction.Edits state (calls.unpin state page pageId isDirty) (cache.unpin pageId isDirty)

/-- What a fetch that must return a page does on both sides. -/
inductive Required (calls : Primitives σ ν) (abstraction : Abstraction σ ν) (state : σ) (cache : Cache)
    (pageId : Int32) (memory : Bool) : Prop
  | found (page : ν) (next : σ) (image : Cache) (fetched : calls.fetch state pageId = some (some page, next))
      (required : cache.require memory pageId = some image)
      (follows : abstraction.Follows state cache next image) (held : abstraction.Holds next page pageId)
  | missing (fetched : calls.fetch state pageId = none ∨ ∃ next, calls.fetch state pageId = some (none, next))
      (required : cache.require memory pageId = none)

variable {calls : Primitives σ ν}

namespace Sound

theorem required (sound : calls.Sound abstraction) (implements : abstraction.Implements state cache)
    (pageId : Int32) :
    ∃ memory, (abstraction.Generous state → memory = true) ∧
      calls.Required abstraction state cache pageId memory := by
  by_cases negative : pageId < 0
  · refine ⟨true, fun _ => rfl, .missing ?_ (by simp [Cache.require, Cache.fetch, negative])⟩
    cases fetched : calls.fetch state pageId with
    | none => exact .inl rfl
    | some pair =>
        obtain ⟨page, next⟩ := pair
        cases page with
        | none => exact .inr ⟨next, rfl⟩
        | some page => exact absurd fetched (sound.negative implements negative page next)
  · obtain ⟨memory, granted, agrees⟩ := sound.fetch implements (Int32.not_lt.mp negative)
    refine ⟨memory, granted, ?_⟩
    generalize called : calls.fetch state pageId = result at agrees
    generalize imaged : cache.fetch memory pageId = found at agrees
    cases agrees with
    | none => exact .missing (.inl called) (by simp [Cache.require, imaged])
    | @some pair imagePair facts =>
        obtain ⟨page, next⟩ := pair
        obtain ⟨hit, image⟩ := imagePair
        obtain ⟨follows, same, holds⟩ := facts
        cases page with
        | none =>
            have refused : hit = false := same.symm
            subst refused
            exact .missing (.inr ⟨next, called⟩) (by simp [Cache.require, imaged])
        | some page =>
            have granted : hit = true := same.symm
            subst granted
            exact .found page next image called (by simp [Cache.require, imaged]) follows (holds page rfl)

/-- The pinned header stays where it is while a second page is fetched. -/
theorem second {memory : Bool} (sound : calls.Sound abstraction) (implements : abstraction.Implements state cache)
    (required : cache.require memory 0 = some image) (follows : abstraction.Follows state cache next image)
    (header : abstraction.Holds next hdr 0) (again : abstraction.Follows next image last final) :
    abstraction.Follows state cache last final ∧ abstraction.Holds last hdr 0 := by
  have opening := (Cache.require_some required).2
  refine ⟨follows.trans again ?_, again.pinned hdr 0 header opening.pinned⟩
  intro other pinned
  have more := pinned.fetched (Nat.le_refl 1) (sound.distinct implements) opening
  exact more.weaken (by split <;> omega)

theorem allocPage (sound : calls.Sound abstraction) (implements : abstraction.Implements state cache) :
    ∃ memory, (abstraction.Generous state → memory = (true, true)) ∧
      Option.Rel (fun result image => result.1 = image.1 ∧
          abstraction.Follows state cache result.2 image.2)
        (calls.allocPage state) (cache.allocPage memory.1 memory.2) := by
  obtain ⟨memory, granted, opening⟩ := sound.required implements 0
  cases opening with
  | missing missing required =>
      refine ⟨(memory, true), fun generous => by rw [granted generous], ?_⟩
      rcases missing with missing | ⟨next, missing⟩ <;>
        simp only [Primitives.allocPage, Cache.allocPage, missing, required, Option.bind_eq_bind,
          Option.bind_none, Option.bind_some] <;> exact .none
  | found hdr first opened fetched required follows header =>
      have read := sound.read follows.implements header
      by_cases empty : (opened.dataOf 0).header.freeListHead = -1
      · refine ⟨(memory, true), fun generous => by rw [granted generous], ?_⟩
        have edits := sound.setData (fun data => data.setTotalPages (data.header.totalPages + 1))
          follows.implements header
        have unpinned := sound.unpin true edits.implements (edits.holds hdr 0 header)
        simp only [Primitives.allocPage, Cache.allocPage, fetched, required, Option.bind_eq_bind,
          Option.bind_some, read, empty, ne_eq, not_true_eq_false, if_false]
        exact .some ⟨rfl, follows.edits (edits.trans unpinned)⟩
      · obtain ⟨again, allowed, reusing⟩ := sound.required follows.implements
          (opened.dataOf 0).header.freeListHead
        refine ⟨(memory, again), fun generous => by rw [granted generous, allowed (follows.generous generous)], ?_⟩
        simp only [Primitives.allocPage, Cache.allocPage, fetched, required, Option.bind_eq_bind,
          Option.bind_some, read, ne_eq, empty, not_false_eq_true, if_true]
        cases reusing with
        | missing missing refused =>
            rcases missing with missing | ⟨next, missing⟩ <;>
              simp only [missing, refused, Option.bind_none, Option.bind_some] <;> exact .none
        | found free second image taken reused next held =>
            obtain ⟨both, hdrHeld⟩ := sound.second implements required follows header next
            have link := sound.read both.implements held
            have edits := sound.setData (fun data => data.setFreeListHead
              (image.dataOf (opened.dataOf 0).header.freeListHead).nextFree) both.implements hdrHeld
            have released := sound.unpin false edits.implements (edits.holds _ _ held)
            have closed := sound.unpin true released.implements
              (released.holds _ _ (edits.holds _ _ hdrHeld))
            simp only [taken, reused, Option.bind_some, link]
            exact .some ⟨rfl, both.edits ((edits.trans released).trans closed)⟩

theorem freePage (sound : calls.Sound abstraction) (implements : abstraction.Implements state cache) :
    ∃ memory, (abstraction.Generous state → memory = (true, true)) ∧
      Option.Rel (abstraction.Follows state cache)
        (calls.freePage state pageId) (cache.freePage memory.1 memory.2 pageId) := by
  by_cases ignored : pageId ≤ 0
  · refine ⟨(true, true), fun _ => rfl, ?_⟩
    simp only [Primitives.freePage, Cache.freePage, if_pos ignored]
    exact .some (Abstraction.Edits.follows ⟨implements, id, fun _ _ held => held⟩)
  have apart : (0 : Int32) ≠ pageId := by
    rintro rfl
    exact ignored (Int32.le_refl 0)
  obtain ⟨memory, granted, opening⟩ := sound.required implements 0
  cases opening with
  | missing missing required =>
      refine ⟨(memory, true), fun generous => by rw [granted generous], ?_⟩
      rcases missing with missing | ⟨next, missing⟩ <;>
        simp only [Primitives.freePage, Cache.freePage, if_neg ignored, missing, required,
          Option.bind_eq_bind, Option.bind_none, Option.bind_some] <;> exact .none
  | found hdr first opened fetched required follows header =>
      obtain ⟨again, allowed, targeting⟩ := sound.required follows.implements pageId
      refine ⟨(memory, again), fun generous => by rw [granted generous, allowed (follows.generous generous)], ?_⟩
      simp only [Primitives.freePage, Cache.freePage, if_neg ignored, fetched, required,
        Option.bind_eq_bind, Option.bind_some]
      cases targeting with
      | missing missing refused =>
          rcases missing with missing | ⟨next, missing⟩ <;>
            simp only [missing, refused, Option.bind_none, Option.bind_some] <;> exact .none
      | found freed second image taken reached next held =>
          obtain ⟨both, hdrHeld⟩ := sound.second implements required follows header next
          have cleared := sound.setData (fun _ => Bytes.zero) both.implements held
          have head := sound.read cleared.implements (cleared.holds _ _ hdrHeld)
          have linked := sound.setData (fun data => data.setI32 0 (image.dataOf 0).header.freeListHead)
            cleared.implements (cleared.holds _ _ held)
          have written := cleared.trans linked
          rw [Cache.setData_setData] at written
          have headed := sound.setData (fun data => data.setFreeListHead pageId) written.implements
            (written.holds _ _ hdrHeld)
          have edits := written.trans headed
          have released := sound.unpin true edits.implements (edits.holds _ _ held)
          have closed := sound.unpin true released.implements
            (released.holds _ _ (edits.holds _ _ hdrHeld))
          have same : (image.setData pageId fun _ => Bytes.zero).dataOf 0 = image.dataOf 0 :=
            Cache.dataOf_update_other apart fun _ => rfl
          simp only [taken, reached, Option.bind_some, head, same]
          exact .some (both.edits ((edits.trans released).trans closed))

end Sound

end Primitives

end HundredDays.PagedStorage
