import Mathlib.Data.List.Nodup
import HundredDays.PagedStorage.Cache

namespace HundredDays.PagedStorage

open HundredDays.Data HundredDays.Memory

/-! What one step of the page cache can do, stated once. -/

namespace Cache

variable {cache room : Cache} {frame victim : Frame} {left right : List Frame} {memory : Bool}
  {pageId : Int32}

theorem acquire_room (space : cache.frames.length < cache.capacity) :
    cache.acquire true = some cache := by
  rw [acquire, if_neg (by omega)]
  rfl

theorem acquire_denied (space : cache.frames.length < cache.capacity) :
    cache.acquire false = none := by
  rw [acquire, if_neg (by omega)]
  rfl

theorem acquire_refused (full : cache.capacity ≤ cache.frames.length)
    (pinned : ∀ frame ∈ cache.frames, unpinned frame = false) : cache.acquire memory = none := by
  rw [acquire, if_pos full, takeLast_none.mpr pinned]

theorem acquire_evicts (memory : Bool) (full : cache.capacity ≤ cache.frames.length)
    (split : cache.frames = left ++ victim :: right) (free : unpinned victim = true)
    (pinned : ∀ frame ∈ right, unpinned frame = false) :
    cache.acquire memory = some { (cache.flushFrame victim).1 with
      frames := left ++ right
      history := .evicted victim.pageId :: (cache.flushFrame victim).1.history } := by
  rw [acquire, if_pos full, split, takeLast_append free pinned]

theorem fetch_hit (nonneg : 0 ≤ pageId) (split : cache.frames = left ++ frame :: right)
    (same : frame.pageId = pageId) (absent : ∀ other ∈ left, other.pageId ≠ pageId) :
    cache.fetch memory pageId = some (true, { cache with
      frames := { frame with pinCount := frame.pinCount + 1 } :: (left ++ right)
      history := .touched pageId :: cache.history }) := by
  have passes : holds pageId frame = true := by simp [holds, same]
  have fails : ∀ other ∈ left, holds pageId other = false := by
    intro other member
    simp [holds, absent other member]
  rw [fetch, if_neg (Int32.not_lt.mpr nonneg), split, takeFirst_append passes fails]

theorem takeFirst_absent (absent : ∀ frame ∈ cache.frames, frame.pageId ≠ pageId) :
    takeFirst (holds pageId) cache.frames = none := by
  apply takeFirst_none.mpr
  intro frame member
  simp [holds, absent frame member]

theorem fetch_refused (nonneg : 0 ≤ pageId)
    (absent : ∀ frame ∈ cache.frames, frame.pageId ≠ pageId)
    (refused : cache.acquire memory = none) : cache.fetch memory pageId = some (false, cache) := by
  rw [fetch, if_neg (Int32.not_lt.mpr nonneg), takeFirst_absent absent, refused]

theorem fetch_miss (nonneg : 0 ≤ pageId)
    (absent : ∀ frame ∈ cache.frames, frame.pageId ≠ pageId)
    (acquired : cache.acquire memory = some room) :
    cache.fetch memory pageId = some (true, { room with
      frames := ⟨pageId, room.onFile pageId, 1, false⟩ :: room.frames
      history := .touched pageId :: room.history }) := by
  rw [fetch, if_neg (Int32.not_lt.mpr nonneg), takeFirst_absent absent, acquired]

theorem fetch_defined (nonneg : 0 ≤ pageId) : ∃ result, cache.fetch memory pageId = some result := by
  rw [fetch, if_neg (Int32.not_lt.mpr nonneg)]
  cases takeFirst (holds pageId) cache.frames with
  | some pair => exact ⟨_, rfl⟩
  | none => cases cache.acquire memory <;> exact ⟨_, rfl⟩

/-- How a miss gets a frame: from free space, or from the last unpinned one. -/
inductive Acquired (cache : Cache) : Cache → Prop
  | space (free : cache.frames.length < cache.capacity) : Acquired cache cache
  | evicted (left right : List Frame) (victim : Frame)
      (full : cache.capacity ≤ cache.frames.length)
      (split : cache.frames = left ++ victim :: right) (free : unpinned victim = true)
      (pinned : ∀ frame ∈ right, unpinned frame = false) :
      Acquired cache { (cache.flushFrame victim).1 with
        frames := left ++ right
        history := .evicted victim.pageId :: (cache.flushFrame victim).1.history }

theorem acquire_some (acquired : cache.acquire memory = some room) : Acquired cache room := by
  unfold acquire at acquired
  split at acquired
  · rename_i full
    cases taken : takeLast unpinned cache.frames with
    | none => simp [taken] at acquired
    | some pair =>
        obtain ⟨victim, rest⟩ := pair
        obtain ⟨left, right, split, rfl, free, pinned⟩ := takeLast_some taken
        simp only [taken, Option.some.injEq] at acquired
        subst acquired
        exact .evicted left right victim full split free pinned
  · rename_i space
    cases memory with
    | false => simp at acquired
    | true =>
        simp only [if_true, Option.some.injEq] at acquired
        subst acquired
        exact .space (by omega)

/-- Everything a fetch can do. -/
inductive Fetched (cache : Cache) (pageId : Int32) : Bool → Cache → Prop
  | hit (left right : List Frame) (frame : Frame) (split : cache.frames = left ++ frame :: right)
      (same : frame.pageId = pageId) :
      Fetched cache pageId true { cache with
        frames := { frame with pinCount := frame.pinCount + 1 } :: (left ++ right)
        history := .touched pageId :: cache.history }
  | refused (absent : ∀ frame ∈ cache.frames, frame.pageId ≠ pageId) :
      Fetched cache pageId false cache
  | miss (room : Cache) (absent : ∀ frame ∈ cache.frames, frame.pageId ≠ pageId)
      (acquired : Acquired cache room) :
      Fetched cache pageId true { room with
        frames := ⟨pageId, room.onFile pageId, 1, false⟩ :: room.frames
        history := .touched pageId :: room.history }

theorem fetch_some {result : Bool} (fetched : cache.fetch memory pageId = some (result, room)) :
    0 ≤ pageId ∧ Fetched cache pageId result room := by
  unfold fetch at fetched
  split at fetched
  · contradiction
  · rename_i nonneg
    refine ⟨Int32.not_lt.mp nonneg, ?_⟩
    cases taken : takeFirst (holds pageId) cache.frames with
    | some pair =>
        obtain ⟨frame, rest⟩ := pair
        obtain ⟨left, right, split, rfl, same, _⟩ := takeFirst_some taken
        simp only [taken, Option.some.injEq, Prod.mk.injEq] at fetched
        obtain ⟨rfl, rfl⟩ := fetched
        exact .hit left right frame split (by simpa [holds] using same)
    | none =>
        have absent : ∀ frame ∈ cache.frames, frame.pageId ≠ pageId := by
          intro frame member
          simpa [holds] using takeFirst_none.mp taken frame member
        cases acquired : cache.acquire memory with
        | none =>
            simp only [taken, acquired, Option.some.injEq, Prod.mk.injEq] at fetched
            obtain ⟨rfl, rfl⟩ := fetched
            exact .refused absent
        | some cache' =>
            simp only [taken, acquired, Option.some.injEq, Prod.mk.injEq] at fetched
            obtain ⟨rfl, rfl⟩ := fetched
            exact .miss cache' absent (acquire_some acquired)

theorem require_some (required : cache.require memory pageId = some room) :
    0 ≤ pageId ∧ Fetched cache pageId true room := by
  unfold require at required
  split at required
  · rename_i fetched
    cases required
    exact fetch_some fetched
  · contradiction

/-- No page is cached twice. -/
def Distinct (cache : Cache) : Prop := (cache.frames.map Frame.pageId).Nodup

theorem Distinct.unique (distinct : cache.Distinct) (first : frame ∈ cache.frames)
    (second : victim ∈ cache.frames) (same : frame.pageId = victim.pageId) : frame = victim :=
  List.inj_on_of_nodup_map distinct first second same

theorem Distinct.split (distinct : cache.Distinct) (split : cache.frames = left ++ frame :: right) :
    ((left ++ right).map Frame.pageId).Nodup ∧
      ∀ other ∈ left ++ right, other.pageId ≠ frame.pageId := by
  unfold Distinct at distinct
  rw [split, List.map_append, List.map_cons, List.nodup_middle, ← List.map_append,
    List.nodup_cons] at distinct
  refine ⟨distinct.2, ?_⟩
  intro other member same
  exact distinct.1 (List.mem_map.mpr ⟨other, member, same⟩)

theorem Distinct.acquired (distinct : cache.Distinct) (acquired : Acquired cache room) :
    room.Distinct := by
  cases acquired with
  | space => exact distinct
  | evicted left right victim full split => exact (distinct.split split).1

theorem Acquired.subset (acquired : Acquired cache room) : room.frames ⊆ cache.frames := by
  cases acquired with
  | space => exact fun _ member => member
  | evicted left right victim full split =>
      rw [split]
      exact ((List.sublist_cons_self victim right).append_left left).subset

theorem Distinct.fetched {result : Bool} (distinct : cache.Distinct)
    (fetched : Fetched cache pageId result room) : room.Distinct := by
  cases fetched with
  | hit left right frame split same =>
      obtain ⟨nodup, apart⟩ := distinct.split split
      refine List.nodup_cons.mpr ⟨?_, nodup⟩
      rintro member
      obtain ⟨other, inside, ids⟩ := List.mem_map.mp member
      exact apart other inside ids
  | refused => exact distinct
  | miss before absent acquired =>
      refine List.nodup_cons.mpr ⟨?_, distinct.acquired acquired⟩
      rintro member
      obtain ⟨other, inside, ids⟩ := List.mem_map.mp member
      exact absent other (acquired.subset inside) ids

theorem map_pageId_update {change : Frame → Frame}
    (keeps : ∀ frame, (change frame).pageId = frame.pageId) :
    (cache.update pageId change).frames.map Frame.pageId = cache.frames.map Frame.pageId := by
  rw [Cache.update, List.map_map]
  apply List.map_congr_left
  intro frame _
  by_cases same : frame.pageId = pageId <;> simp [same, keeps]

theorem Distinct.update {change : Frame → Frame} (distinct : cache.Distinct)
    (keeps : ∀ frame, (change frame).pageId = frame.pageId) : (cache.update pageId change).Distinct := by
  rw [Distinct, map_pageId_update keeps]
  exact distinct

theorem Distinct.find (distinct : cache.Distinct) (member : frame ∈ cache.frames) :
    cache.frames.find? (holds frame.pageId) = some frame := by
  cases found : cache.frames.find? (holds frame.pageId) with
  | none =>
      have absent := List.find?_eq_none.mp found frame member
      simp [holds] at absent
  | some other =>
      have same : other.pageId = frame.pageId := by
        simpa [holds] using List.find?_some found
      rw [distinct.unique (List.mem_of_find?_eq_some found) member same]

theorem dataOf_eq (distinct : cache.Distinct) (member : frame ∈ cache.frames) :
    cache.dataOf frame.pageId = frame.data := by
  rw [dataOf, distinct.find member]
  rfl

theorem update_update {first second : Frame → Frame}
    (keeps : ∀ frame, (first frame).pageId = frame.pageId) :
    (cache.update pageId first).update pageId second =
      cache.update pageId fun frame => second (first frame) := by
  simp only [update, List.map_map]
  congr 1
  apply List.map_congr_left
  intro frame _
  by_cases same : frame.pageId = pageId <;> simp [same, keeps]

theorem setData_setData {first second : Bytes → Bytes} :
    (cache.setData pageId first).setData pageId second =
      cache.setData pageId fun data => second (first data) :=
  update_update fun _ => rfl

theorem dataOf_update_other {other : Int32} {change : Frame → Frame} (apart : other ≠ pageId)
    (keeps : ∀ frame, (change frame).pageId = frame.pageId) :
    (cache.update pageId change).dataOf other = cache.dataOf other := by
  have ids : holds other ∘ (fun frame => if frame.pageId = pageId then change frame else frame) =
      holds other := by
    funext frame
    by_cases same : frame.pageId = pageId <;> simp [holds, same, keeps]
  rw [dataOf, dataOf, update, List.find?_map, ids]
  cases found : cache.frames.find? (holds other) with
  | none => rfl
  | some frame =>
      have label : frame.pageId = other := by simpa [holds] using List.find?_some found
      simp [label, apart]

theorem Distinct.setData {change : Bytes → Bytes} (distinct : cache.Distinct) :
    (cache.setData pageId change).Distinct :=
  Distinct.update distinct fun _ => rfl

theorem Distinct.unpin {isDirty : Bool} (distinct : cache.Distinct) :
    (cache.unpin pageId isDirty).Distinct :=
  Distinct.update distinct fun _ => rfl

theorem flush_absent (absent : cache.frames.find? (holds pageId) = none) :
    cache.flush pageId = cache := by
  rw [Cache.flush, absent]

theorem flush_found (found : cache.frames.find? (holds pageId) = some frame) :
    cache.flush pageId = (cache.flushFrame frame).1.update pageId fun listed =>
      { listed with isDirty := (cache.flushFrame frame).2.isDirty } := by
  rw [Cache.flush, found]

theorem Distinct.flush (distinct : cache.Distinct) : (cache.flush pageId).Distinct := by
  cases found : cache.frames.find? (holds pageId) with
  | none =>
      rw [flush_absent found]
      exact distinct
  | some frame =>
      have before : (cache.flushFrame frame).1.Distinct := by
        rw [Distinct, flushFrame_frames]
        exact distinct
      rw [flush_found found]
      exact before.update fun _ => rfl

/-- A page that is cached and pinned at least `count` times. -/
def Pinned (cache : Cache) (pageId : Int32) (count : Nat) : Prop :=
  ∃ frame ∈ cache.frames, frame.pageId = pageId ∧ count ≤ frame.pinCount

variable {count : Nat} {other : Int32}

theorem Pinned.weaken {fewer : Nat} (pinned : cache.Pinned pageId count) (less : fewer ≤ count) :
    cache.Pinned pageId fewer := by
  obtain ⟨frame, member, same, enough⟩ := pinned
  exact ⟨frame, member, same, by omega⟩

/-- A frame in use is never the one that is evicted. -/
theorem Pinned.acquired (pinned : cache.Pinned pageId count) (used : 1 ≤ count)
    (acquired : Acquired cache room) : room.Pinned pageId count := by
  obtain ⟨frame, member, same, enough⟩ := pinned
  refine ⟨frame, ?_, same, enough⟩
  cases acquired with
  | space => exact member
  | evicted left right victim full split free =>
      rw [split] at member
      rcases List.mem_cons.mp (List.perm_middle.mem_iff.mp member) with rfl | kept
      · simp only [unpinned, beq_iff_eq] at free
        omega
      · exact kept

/-- A fetch pins its page once more and leaves the other pins alone. -/
theorem Pinned.fetched {result : Bool} (pinned : cache.Pinned other count) (used : 1 ≤ count)
    (distinct : cache.Distinct) (fetched : Fetched cache pageId result room) :
    room.Pinned other (if result = true ∧ other = pageId then count + 1 else count) := by
  cases fetched with
  | hit left right frame split same =>
      obtain ⟨found, member, ids, enough⟩ := pinned
      have listed := member
      rw [split] at member
      rcases List.mem_cons.mp (List.perm_middle.mem_iff.mp member) with rfl | kept
      · refine ⟨{ found with pinCount := found.pinCount + 1 }, by simp, ids, ?_⟩
        dsimp only
        split <;> omega
      · have apart : other ≠ pageId := by
          intro here
          exact (distinct.split split).2 found kept (ids.trans (here.trans same.symm))
        refine ⟨found, List.mem_cons_of_mem _ kept, ids, ?_⟩
        simpa [apart] using enough
  | refused => simpa using pinned
  | miss before absent acquired =>
      have apart : other ≠ pageId := by
        obtain ⟨found, member, ids, _⟩ := pinned
        exact fun same => absent found member (ids.trans same)
      obtain ⟨found, member, ids, enough⟩ := pinned.acquired used acquired
      refine ⟨found, by simp [member], ids, ?_⟩
      simpa [apart] using enough

theorem Fetched.pinned (fetched : Fetched cache pageId true room) : room.Pinned pageId 1 := by
  cases fetched with
  | hit left right frame split same => exact ⟨_, List.mem_cons_self, same, Nat.le_add_left 1 _⟩
  | miss before absent acquired => exact ⟨_, List.mem_cons_self, rfl, Nat.le_refl 1⟩

theorem Pinned.update {change : Frame → Frame} {fewer : Nat} (pinned : cache.Pinned other count)
    (keeps : ∀ frame, (change frame).pageId = frame.pageId)
    (changed : other = pageId → ∀ frame, count ≤ frame.pinCount → fewer ≤ (change frame).pinCount)
    (unchanged : other ≠ pageId → fewer ≤ count) : (cache.update pageId change).Pinned other fewer := by
  obtain ⟨frame, member, ids, enough⟩ := pinned
  by_cases same : frame.pageId = pageId
  · refine ⟨change frame, List.mem_map.mpr ⟨frame, member, if_pos same⟩, (keeps frame).trans ids, ?_⟩
    exact changed (ids.symm.trans same) frame enough
  · refine ⟨frame, List.mem_map.mpr ⟨frame, member, if_neg same⟩, ids, ?_⟩
    exact Nat.le_trans (unchanged fun here => same (ids.trans here)) enough

theorem Pinned.setData {change : Bytes → Bytes} (pinned : cache.Pinned other count) :
    (cache.setData pageId change).Pinned other count :=
  pinned.update (fun _ => rfl) (fun _ _ enough => enough) fun _ => Nat.le_refl _

theorem Pinned.unpin {isDirty : Bool}
    (pinned : cache.Pinned other (if other = pageId then count + 1 else count)) :
    (cache.unpin pageId isDirty).Pinned other count := by
  refine Pinned.update pinned ?_ ?_ ?_
  · exact fun _ => rfl
  · intro same frame enough
    rw [if_pos same] at enough
    dsimp only
    omega
  · intro apart
    rw [if_neg apart]

theorem Pinned.flush (pinned : cache.Pinned other count) : (cache.flush pageId).Pinned other count := by
  cases found : cache.frames.find? (holds pageId) with
  | none =>
      rw [flush_absent found]
      exact pinned
  | some frame =>
      have before : (cache.flushFrame frame).1.Pinned other count := by
        rw [Pinned, flushFrame_frames]
        exact pinned
      rw [flush_found found]
      exact before.update (fun _ => rfl) (fun _ _ enough => enough) fun _ => Nat.le_refl _

/-- What an allocation did: it fetched the header, and the head of the free list
unless that is empty. -/
inductive Allocated (memory : Bool × Bool) (cache : Cache) : Int32 → Cache → Prop
  | reused (first second : Cache) (head : Int32)
      (opened : cache.require memory.1 0 = some first)
      (listed : (first.dataOf 0).header.freeListHead = head) (nonempty : head ≠ -1)
      (fetched : first.require memory.2 head = some second) :
      Allocated memory cache head (((second.setData 0 fun data =>
        data.setFreeListHead (second.dataOf head).nextFree).unpin head false).unpin 0 true)
  | appended (first : Cache) (opened : cache.require memory.1 0 = some first)
      (empty : (first.dataOf 0).header.freeListHead = -1) :
      Allocated memory cache (first.dataOf 0).header.totalPages.toInt32
        ((first.setData 0 fun data => data.setTotalPages (data.header.totalPages + 1)).unpin 0 true)

theorem allocPage_some {first second : Bool}
    (allocated : cache.allocPage first second = some (pageId, room)) :
    Allocated (first, second) cache pageId room := by
  simp only [allocPage, Option.bind_eq_bind, Option.bind_eq_some_iff] at allocated
  obtain ⟨header, opened, allocated⟩ := allocated
  split at allocated
  · rename_i nonempty
    obtain ⟨freed, fetched, allocated⟩ := Option.bind_eq_some_iff.mp allocated
    simp only [Option.some.injEq, Prod.mk.injEq] at allocated
    obtain ⟨rfl, rfl⟩ := allocated
    exact .reused header freed _ opened rfl nonempty fetched
  · rename_i empty
    simp only [Option.some.injEq, Prod.mk.injEq] at allocated
    obtain ⟨rfl, rfl⟩ := allocated
    exact .appended header opened (Decidable.not_not.mp empty)

/-- What freeing a page did. -/
inductive Freed (memory : Bool × Bool) (cache : Cache) (pageId : Int32) : Cache → Prop
  | ignored (header : pageId ≤ 0) : Freed memory cache pageId cache
  | listed (first second : Cache) (positive : 0 < pageId)
      (opened : cache.require memory.1 0 = some first)
      (fetched : first.require memory.2 pageId = some second) :
      Freed memory cache pageId ((((second.setData pageId fun _ =>
        Bytes.zero.setI32 0 (second.dataOf 0).header.freeListHead).setData 0 fun data =>
          data.setFreeListHead pageId).unpin pageId true).unpin 0 true)

theorem freePage_some {first second : Bool} (freed : cache.freePage first second pageId = some room) :
    Freed (first, second) cache pageId room := by
  unfold freePage at freed
  split at freed
  · rename_i header
    cases freed
    exact .ignored header
  · rename_i positive
    simp only [Option.bind_eq_bind, Option.bind_eq_some_iff] at freed
    obtain ⟨header, opened, target, fetched, freed⟩ := freed
    cases freed
    exact .listed header target (Int32.not_le.mp positive) opened fetched

variable {memories : Bool × Bool}

theorem Distinct.allocated (distinct : cache.Distinct) (allocated : Allocated memories cache pageId room) :
    room.Distinct := by
  cases allocated with
  | reused first second head opened listed nonempty fetched =>
      have opening := distinct.fetched (require_some opened).2
      have fetching := opening.fetched (require_some fetched).2
      exact fetching.setData.unpin.unpin
  | appended first opened empty =>
      have opening := distinct.fetched (require_some opened).2
      exact opening.setData.unpin

theorem Distinct.freed (distinct : cache.Distinct) (freed : Freed memories cache pageId room) :
    room.Distinct := by
  cases freed with
  | ignored => exact distinct
  | listed first second positive opened fetched =>
      have opening := distinct.fetched (require_some opened).2
      have fetching := opening.fetched (require_some fetched).2
      exact fetching.setData.setData.unpin.unpin

/-- The inner fetches of an allocation are unpinned again before it returns. -/
theorem Pinned.allocated (pinned : cache.Pinned other count) (used : 1 ≤ count)
    (distinct : cache.Distinct) (allocated : Allocated memories cache pageId room) :
    room.Pinned other count := by
  cases allocated with
  | reused first second head opened listed nonempty fetched =>
      have opening := distinct.fetched (require_some opened).2
      have one := pinned.fetched used distinct (require_some opened).2
      have two := one.fetched (by split <;> omega) opening (require_some fetched).2
      apply Pinned.unpin
      apply Pinned.unpin
      apply Pinned.setData
      simpa only [true_and] using two
  | appended first opened empty =>
      have one := pinned.fetched used distinct (require_some opened).2
      apply Pinned.unpin
      apply Pinned.setData
      simpa only [true_and] using one

theorem Pinned.freed (pinned : cache.Pinned other count) (used : 1 ≤ count)
    (distinct : cache.Distinct) (freed : Freed memories cache pageId room) :
    room.Pinned other count := by
  cases freed with
  | ignored => exact pinned
  | listed first second positive opened fetched =>
      have opening := distinct.fetched (require_some opened).2
      have one := pinned.fetched used distinct (require_some opened).2
      have two := one.fetched (by split <;> omega) opening (require_some fetched).2
      apply Pinned.unpin
      apply Pinned.unpin
      apply Pinned.setData
      apply Pinned.setData
      simpa only [true_and] using two

end Cache

end HundredDays.PagedStorage
