import HundredDays.PagedStorage.Cache.Exhaustion

namespace HundredDays.PagedStorage

open HundredDays.Data HundredDays.Memory

/-! What a page cache owes to the file when writes to it may fail.

A page is owed the contents it had when it was last unpinned as dirty, together
with what was written to it since while it stayed dirty.  A `pwrite` that
transfers too little does no harm as long as the page stays dirty in the cache.
-/

abbrev Owed := Int32 → Option Bytes

namespace Owed

def commit (owed : Owed) (pageId : Int32) (data : Bytes) : Owed := Function.update owed pageId (some data)

/-- A write to a dirty page changes what is owed, if anything is. -/
def rewrite (owed : Owed) (pageId : Int32) (isDirty : Bool) (data : Bytes) : Owed :=
  if isDirty then Function.update owed pageId ((owed pageId).map fun _ => data) else owed

end Owed

namespace Cache

variable {cache room image : Cache} {frame : Frame} {pageId other : Int32} {owed : Owed} {data : Bytes}
  {change : Frame → Frame} {memory : Bool}

/-- Whatever is owed is on file, or in a dirty frame. -/
structure Owes (cache : Cache) (owed : Owed) : Prop where
  distinct : cache.Distinct
  nonneg : ∀ frame ∈ cache.frames, 0 ≤ frame.pageId
  pages : ∀ pageId data, owed pageId = some data → 0 ≤ pageId
  dirty : ∀ frame ∈ cache.frames, frame.isDirty = true → ∀ data, owed frame.pageId = some data →
    frame.data = data
  kept : ∀ pageId data, owed pageId = some data → cache.onFile pageId = data ∨
    ∃ frame ∈ cache.frames, frame.pageId = pageId ∧ frame.data = data ∧ frame.isDirty = true

/-- If a fetch evicts a dirty frame, the `pwrite` for it brings the page to the file. -/
def EvictionLands (cache : Cache) : Prop :=
  ∀ left victim right, cache.capacity ≤ cache.frames.length → cache.frames = left ++ victim :: right →
    unpinned victim = true → (∀ frame ∈ right, unpinned frame = false) → victim.isDirty = true →
    cache.fd.Lands victim.data (fileOffset victim.pageId)

def FetchLands (cache : Cache) (pageId : Int32) : Prop := cache.cached pageId = false → cache.EvictionLands

/-- The same for the two fetches of an allocation. -/
def AllocLands (cache : Cache) : Prop :=
  cache.FetchLands 0 ∧ ∀ memory first, cache.require memory 0 = some first →
    (first.dataOf 0).header.freeListHead ≠ -1 → first.FetchLands (first.dataOf 0).header.freeListHead

def FreeLands (cache : Cache) (pageId : Int32) : Prop :=
  0 < pageId → cache.FetchLands 0 ∧ ∀ memory first, cache.require memory 0 = some first →
    first.FetchLands pageId

theorem onFile_flushFrame_lands (nonneg : 0 ≤ frame.pageId) (dirty : frame.isDirty = true) :
    (cache.flushFrame frame).1.onFile frame.pageId = frame.data ↔
      cache.fd.Lands frame.data (fileOffset frame.pageId) := by
  cases called : cache.fd.pwrite frame.data (frame.pageId.toInt * pageSize) with
  | mk written fd =>
      have same := called
      rw [fileOffset_eq nonneg] at called
      rw [← File.window_pwrite_lands called]
      simp only [flushFrame, dirty, if_true, same]
      split <;> rfl

/-- A flush that makes a frame clean brought its page to the file. -/
theorem onFile_flushFrame_clean (nonneg : 0 ≤ frame.pageId) (dirty : frame.isDirty = true)
    (clean : (cache.flushFrame frame).2.isDirty = false) :
    (cache.flushFrame frame).1.onFile frame.pageId = frame.data := by
  cases called : cache.fd.pwrite frame.data (frame.pageId.toInt * pageSize) with
  | mk written fd =>
      simp only [flushFrame, dirty, if_true, called] at clean ⊢
      split at clean
      · rename_i whole
        rw [if_pos whole]
        rw [whole, fileOffset_eq nonneg] at called
        exact File.window_pwrite called
      · simp [dirty] at clean

/-- Unpinning changes no contents. -/
theorem contents_unpin {isDirty : Bool} : (cache.unpin pageId isDirty).contents other = cache.contents other := by
  have ids : holds other ∘ (fun frame => if frame.pageId = pageId then
      { frame with isDirty := isDirty || frame.isDirty, pinCount := frame.pinCount - 1 } else frame) = holds other := by
    funext frame
    by_cases same : frame.pageId = pageId <;> simp [holds, same]
  rw [contents, contents, unpin, update, List.find?_map, ids]
  cases cache.frames.find? (holds other) with
  | none => rfl
  | some frame => by_cases same : frame.pageId = pageId <;> simp [same]

namespace Owes

theorem forget (owes : cache.Owes owed) (pageId : Int32) : cache.Owes (Function.update owed pageId none) := by
  have fewer : ∀ other data, Function.update owed pageId none other = some data → owed other = some data := by
    intro other data still
    by_cases same : other = pageId
    · subst same
      simp at still
    · rwa [Function.update_of_ne same] at still
  exact ⟨owes.distinct, owes.nonneg, fun _ _ still => owes.pages _ _ (fewer _ _ still),
    fun frame member dirty _ still => owes.dirty frame member dirty _ (fewer _ _ still),
    fun _ _ still => owes.kept _ _ (fewer _ _ still)⟩

/-- A page that is owed nothing may change in any way. -/
theorem update_free (owes : cache.Owes owed) (free : owed pageId = none)
    (label : ∀ frame, (change frame).pageId = frame.pageId) : (cache.update pageId change).Owes owed := by
  refine ⟨owes.distinct.update label, ?_, owes.pages, ?_, ?_⟩
  · intro frame member
    obtain ⟨old, listed, rfl⟩ := List.mem_map.mp member
    split
    · rw [label]
      exact owes.nonneg old listed
    · exact owes.nonneg old listed
  · intro frame member dirty data still
    obtain ⟨old, listed, rfl⟩ := List.mem_map.mp member
    by_cases same : old.pageId = pageId
    · rw [if_pos same, label, same, free] at still
      cases still
    · rw [if_neg same] at dirty still ⊢
      exact owes.dirty old listed dirty data still
  · intro other data still
    rcases owes.kept other data still with filed | ⟨frame, listed, rfl, rest⟩
    · exact .inl filed
    · have apart : frame.pageId ≠ pageId := by
        intro same
        rw [same, free] at still
        cases still
      exact .inr ⟨frame, List.mem_map.mpr ⟨frame, listed, if_neg apart⟩, rfl, rest⟩

/-- A change that is not one of contents or of the dirty flag. -/
theorem update_same (owes : cache.Owes owed)
    (same : ∀ frame, (change frame).pageId = frame.pageId ∧ (change frame).data = frame.data ∧
      (change frame).isDirty = frame.isDirty) : (cache.update pageId change).Owes owed := by
  have seen : ∀ frame, (if frame.pageId = pageId then change frame else frame).pageId = frame.pageId ∧
      (if frame.pageId = pageId then change frame else frame).data = frame.data ∧
      (if frame.pageId = pageId then change frame else frame).isDirty = frame.isDirty := by
    intro frame
    split
    · exact same frame
    · exact ⟨rfl, rfl, rfl⟩
  refine ⟨owes.distinct.update fun frame => (same frame).1, ?_, owes.pages, ?_, ?_⟩
  · intro frame member
    obtain ⟨old, listed, rfl⟩ := List.mem_map.mp member
    rw [(seen old).1]
    exact owes.nonneg old listed
  · intro frame member dirty data still
    obtain ⟨old, listed, rfl⟩ := List.mem_map.mp member
    rw [(seen old).2.2] at dirty
    rw [(seen old).1] at still
    rw [(seen old).2.1]
    exact owes.dirty old listed dirty data still
  · intro other data still
    rcases owes.kept other data still with filed | ⟨frame, listed, label, contents, dirty⟩
    · exact .inl filed
    · refine .inr ⟨_, List.mem_map.mpr ⟨frame, listed, rfl⟩, ?_⟩
      rw [(seen frame).1, (seen frame).2.1, (seen frame).2.2]
      exact ⟨label, contents, dirty⟩

theorem unpin_clean (owes : cache.Owes owed) : (cache.unpin pageId false).Owes owed :=
  owes.update_same fun _ => ⟨rfl, rfl, rfl⟩

/-- A page is owed what it holds when it is unpinned as dirty. -/
theorem unpin_dirty (owes : cache.Owes (Function.update owed pageId none)) (member : frame ∈ cache.frames)
    (label : frame.pageId = pageId) : (cache.unpin pageId true).Owes (owed.commit pageId frame.data) := by
  have before : (cache.unpin pageId true).Owes (Function.update owed pageId none) :=
    owes.update_free (Function.update_self ..) fun _ => rfl
  have here : { frame with isDirty := true || frame.isDirty, pinCount := frame.pinCount - 1 } ∈
      (cache.unpin pageId true).frames := List.mem_map.mpr ⟨frame, member, if_pos label⟩
  have elsewhere : ∀ other, other ≠ pageId →
      owed.commit pageId frame.data other = Function.update owed pageId none other := by
    intro other apart
    rw [Owed.commit, Function.update_of_ne apart, Function.update_of_ne apart]
  refine ⟨before.distinct, before.nonneg, ?_, ?_, ?_⟩
  · intro other data still
    by_cases same : other = pageId
    · rw [same, ← label]
      exact owes.nonneg frame member
    · exact before.pages other data (elsewhere other same ▸ still)
  · intro listed inside dirty data still
    by_cases same : listed.pageId = pageId
    · have only := before.distinct.unique inside here (same.trans label.symm)
      rw [Owed.commit, same, Function.update_self] at still
      rw [only]
      exact Option.some.inj still
    · exact before.dirty listed inside dirty data (elsewhere _ same ▸ still)
  · intro other data still
    by_cases same : other = pageId
    · rw [Owed.commit, same, Function.update_self] at still
      exact .inr ⟨_, here, label.trans same.symm, Option.some.inj still, rfl⟩
    · exact before.kept other data (elsewhere other same ▸ still)

/-- Writing to a page while it is cached. -/
theorem write (owes : cache.Owes owed) (member : frame ∈ cache.frames) (label : frame.pageId = pageId) :
    (cache.setData pageId fun _ => data).Owes (owed.rewrite pageId frame.isDirty data) := by
  cases dirty : frame.isDirty with
  | false =>
      simp only [Owed.rewrite, Bool.false_eq_true, if_false]
      refine ⟨owes.distinct.setData, ?_, owes.pages, ?_, ?_⟩
      · intro listed inside
        obtain ⟨old, earlier, rfl⟩ := List.mem_map.mp inside
        split <;> exact owes.nonneg old earlier
      · intro listed inside marked contents still
        obtain ⟨old, earlier, rfl⟩ := List.mem_map.mp inside
        by_cases same : old.pageId = pageId
        · have only := owes.distinct.unique earlier member (same.trans label.symm)
          rw [if_pos same, only] at marked
          simp [dirty] at marked
        · rw [if_neg same] at marked still ⊢
          exact owes.dirty old earlier marked contents still
      · intro other contents still
        rcases owes.kept other contents still with filed | ⟨old, earlier, rfl, rest⟩
        · exact .inl filed
        · have apart : old.pageId ≠ pageId := by
            intro same
            have only := owes.distinct.unique earlier member (same.trans label.symm)
            rw [only, dirty] at rest
            simp at rest
          exact .inr ⟨old, List.mem_map.mpr ⟨old, earlier, if_neg apart⟩, rfl, rest⟩
  | true =>
      simp only [Owed.rewrite, if_true]
      have here : { frame with data } ∈ (cache.setData pageId fun _ => data).frames :=
        List.mem_map.mpr ⟨frame, member, if_pos label⟩
      have hidden : (cache.setData pageId fun _ => data).Owes (Function.update owed pageId none) :=
        (owes.forget pageId).update_free (Function.update_self ..) fun _ => rfl
      have elsewhere : ∀ other, other ≠ pageId → Function.update owed pageId
          ((owed pageId).map fun _ => data) other = Function.update owed pageId none other := by
        intro other apart
        rw [Function.update_of_ne apart, Function.update_of_ne apart]
      refine ⟨hidden.distinct, hidden.nonneg, ?_, ?_, ?_⟩
      · intro other contents still
        by_cases same : other = pageId
        · rw [same, ← label]
          exact owes.nonneg frame member
        · exact hidden.pages other contents (elsewhere other same ▸ still)
      · intro listed inside marked contents still
        by_cases same : listed.pageId = pageId
        · have only := hidden.distinct.unique inside here (same.trans label.symm)
          rw [same, Function.update_self, Option.map_eq_some_iff] at still
          obtain ⟨_, _, rfl⟩ := still
          rw [only]
        · exact hidden.dirty listed inside marked contents (elsewhere _ same ▸ still)
      · intro other contents still
        by_cases same : other = pageId
        · rw [same, Function.update_self, Option.map_eq_some_iff] at still
          obtain ⟨_, _, rfl⟩ := still
          exact .inr ⟨_, here, label.trans same.symm, rfl, dirty⟩
        · exact hidden.kept other contents (elsewhere other same ▸ still)

/-- Whatever `pwrite` does in a flush, the page stays. -/
theorem flush (owes : cache.Owes owed) : (cache.flush pageId).Owes owed := by
  cases found : cache.frames.find? (holds pageId) with
  | none =>
      rw [flush_absent found]
      exact owes
  | some frame =>
      have member := List.mem_of_find?_eq_some found
      have label : frame.pageId = pageId := by simpa [holds] using List.find?_some found
      have nonneg := owes.nonneg frame member
      subst label
      cases dirty : frame.isDirty with
      | false =>
          have same : cache.flush frame.pageId = cache.update frame.pageId fun listed =>
              { listed with isDirty := false } := by
            rw [flush_found found, flushFrame_clean dirty, dirty]
          have clean : cache.update frame.pageId (fun listed => { listed with isDirty := false }) = cache := by
            have frames : (cache.frames.map fun listed =>
                if listed.pageId = frame.pageId then { listed with isDirty := false } else listed) =
                cache.frames := by
              refine (List.map_congr_left fun listed inside => ?_).trans (List.map_id _)
              split
              · rename_i here
                rw [owes.distinct.unique inside member here, ← dirty]
                rfl
              · rfl
            rw [Cache.update, frames]
          rw [same, clean]
          exact owes
      | true =>
          rw [flush_found found]
          have others : ∀ other, 0 ≤ other → other ≠ frame.pageId →
              (cache.flushFrame frame).1.onFile other = cache.onFile other :=
            fun other positive apart => onFile_flushFrame_other nonneg positive (Ne.symm apart)
          have cleaned : (cache.flushFrame frame).2.isDirty = false →
              (cache.flushFrame frame).1.onFile frame.pageId = frame.data :=
            onFile_flushFrame_clean nonneg dirty
          have frames : (cache.flushFrame frame).1.frames = cache.frames := flushFrame_frames
          have distinct : (cache.flushFrame frame).1.Distinct := by
            rw [Distinct, frames]
            exact owes.distinct
          generalize (cache.flushFrame frame).1 = flushed at others cleaned frames distinct ⊢
          generalize (cache.flushFrame frame).2.isDirty = remains at cleaned ⊢
          have here : { frame with isDirty := remains } ∈
              (flushed.update frame.pageId fun listed => { listed with isDirty := remains }).frames :=
            List.mem_map.mpr ⟨frame, frames ▸ member, if_pos rfl⟩
          refine ⟨distinct.update fun _ => rfl, ?_, owes.pages, ?_, ?_⟩
          · intro listed inside
            obtain ⟨old, earlier, rfl⟩ := List.mem_map.mp inside
            split <;> exact owes.nonneg old (frames ▸ earlier)
          · intro listed inside marked contents still
            obtain ⟨old, earlier, rfl⟩ := List.mem_map.mp inside
            rw [frames] at earlier
            by_cases same : old.pageId = frame.pageId
            · have only := owes.distinct.unique earlier member same
              rw [if_pos same] at still ⊢
              rw [only] at still ⊢
              exact owes.dirty frame member dirty contents still
            · rw [if_neg same] at marked still ⊢
              exact owes.dirty old earlier marked contents still
          · intro other contents still
            by_cases same : other = frame.pageId
            · have contained := owes.dirty frame member dirty contents (same ▸ still)
              cases remains with
              | false =>
                  left
                  rw [same]
                  exact (cleaned rfl).trans contained
              | true => exact .inr ⟨_, here, same.symm, contained, rfl⟩
            · rcases owes.kept other contents still with filed | ⟨old, earlier, rfl, rest⟩
              · left
                rw [← filed]
                exact others other (owes.pages other contents still) same
              · refine .inr ⟨old, List.mem_map.mpr ⟨old, frames ▸ earlier, if_neg same⟩, rfl, rest⟩

/-- An eviction whose write lands drops nothing that is owed. -/
theorem acquired (owes : cache.Owes owed) (lands : cache.EvictionLands) (acquired : Acquired cache room) :
    room.Owes owed := by
  cases acquired with
  | space => exact owes
  | evicted left right victim full split free pinned =>
      have member : victim ∈ cache.frames := by simp [split]
      have nonneg := owes.nonneg victim member
      obtain ⟨distinct, apart⟩ := owes.distinct.split split
      have subset : ∀ frame ∈ left ++ right, frame ∈ cache.frames := by
        intro frame inside
        rw [split]
        exact List.perm_middle.mem_iff.mpr (List.mem_cons_of_mem victim inside)
      refine ⟨distinct, fun frame inside => owes.nonneg frame (subset frame inside), owes.pages,
        fun frame inside => owes.dirty frame (subset frame inside), ?_⟩
      intro other contents still
      change (cache.flushFrame victim).1.onFile other = contents ∨ _
      by_cases same : other = victim.pageId
      · left
        cases dirty : victim.isDirty with
        | true =>
            have landed := (onFile_flushFrame_lands nonneg dirty).mpr
              (lands left victim right full split free pinned dirty)
            rw [same, landed]
            exact owes.dirty victim member dirty contents (same ▸ still)
        | false =>
            rw [flushFrame_clean dirty]
            rcases owes.kept other contents still with filed | ⟨frame, inside, label, _, marked⟩
            · exact filed
            · rw [owes.distinct.unique inside member (label.trans same), dirty] at marked
              cases marked
      · rcases owes.kept other contents still with filed | ⟨frame, inside, rfl, rest⟩
        · left
          rw [← filed]
          exact onFile_flushFrame_other nonneg (owes.pages other contents still) (Ne.symm same)
        · right
          refine ⟨frame, ?_, rfl, rest⟩
          rw [split] at inside
          rcases List.mem_cons.mp (List.perm_middle.mem_iff.mp inside) with rfl | remains
          · exact absurd rfl same
          · exact remains

theorem fetched {result : Bool} (owes : cache.Owes owed) (nonneg : 0 ≤ pageId)
    (lands : cache.FetchLands pageId) (fetched : Fetched cache pageId result room) : room.Owes owed := by
  have distinct := owes.distinct.fetched fetched
  cases fetched with
  | hit left right frame split same =>
      have members : ∀ listed, listed ∈ cache.frames ↔ listed = frame ∨ listed ∈ left ++ right := by
        intro listed
        rw [split, List.perm_middle.mem_iff, List.mem_cons]
      refine ⟨distinct, ?_, owes.pages, ?_, ?_⟩
      · intro listed inside
        rcases List.mem_cons.mp inside with rfl | old
        · exact owes.nonneg frame ((members frame).mpr (.inl rfl))
        · exact owes.nonneg listed ((members listed).mpr (.inr old))
      · intro listed inside
        rcases List.mem_cons.mp inside with rfl | old
        · exact owes.dirty frame ((members frame).mpr (.inl rfl))
        · exact owes.dirty listed ((members listed).mpr (.inr old))
      · intro other contents still
        rcases owes.kept other contents still with filed | ⟨listed, inside, label, rest⟩
        · exact .inl filed
        · right
          rcases (members listed).mp inside with rfl | old
          · exact ⟨_, List.mem_cons_self, label, rest⟩
          · exact ⟨listed, List.mem_cons_of_mem _ old, label, rest⟩
  | refused => exact owes
  | miss before absent acquired =>
      have room := owes.acquired (lands (cached_false.mpr absent)) acquired
      refine ⟨distinct, ?_, owes.pages, ?_, ?_⟩
      · intro listed inside
        rcases List.mem_cons.mp inside with rfl | old
        · exact nonneg
        · exact room.nonneg listed old
      · intro listed inside marked
        rcases List.mem_cons.mp inside with rfl | old
        · cases marked
        · exact room.dirty listed old marked
      · intro other contents still
        rcases room.kept other contents still with filed | ⟨listed, inside, rest⟩
        · exact .inl filed
        · exact .inr ⟨listed, List.mem_cons_of_mem _ inside, rest⟩

theorem required (owes : cache.Owes owed) (lands : cache.FetchLands pageId)
    (required : cache.require memory pageId = some room) : room.Owes owed :=
  owes.fetched (require_some required).1 lands (require_some required).2

/-- A page that is cached is owed what it holds once it is unpinned as dirty. -/
theorem commit (owes : cache.Owes (Function.update owed pageId none)) (here : cache.Pinned pageId 1) :
    (cache.unpin pageId true).Owes (owed.commit pageId ((cache.unpin pageId true).contents pageId)) := by
  obtain ⟨frame, member, label, _⟩ := here
  have committed := owes.unpin_dirty member label
  have listed : { frame with isDirty := true || frame.isDirty, pinCount := frame.pinCount - 1 } ∈
      (cache.unpin pageId true).frames := List.mem_map.mpr ⟨frame, member, if_pos label⟩
  have found := committed.distinct.find listed
  dsimp only at found
  rw [label] at found
  rw [Cache.contents, found]
  exact committed

theorem commit_both (owes : cache.Owes (Function.update (Function.update owed 0 none) pageId none))
    (apart : pageId ≠ 0) (header : cache.Pinned 0 1) (page : cache.Pinned pageId 1) :
    ((cache.unpin pageId true).unpin 0 true).Owes
      ((owed.commit pageId (cache.contents pageId)).commit 0 (cache.contents 0)) := by
  have first := owes.commit page
  have hidden : Owed.commit (Function.update owed 0 none) pageId ((cache.unpin pageId true).contents pageId) =
      Function.update (owed.commit pageId (cache.contents pageId)) 0 none := by
    rw [contents_unpin]
    exact Function.update_comm apart.symm ..
  rw [hidden] at first
  have second := first.commit (Pinned.unpin (by rwa [if_neg apart.symm]))
  rwa [contents_unpin, contents_unpin] at second

variable {memories : Bool × Bool} {newPageId : Int32}

/-- An allocation owes the header. -/
theorem allocated (owes : cache.Owes owed) (lands : cache.AllocLands)
    (allocated : Allocated memories cache newPageId room) : room.Owes (owed.commit 0 (room.contents 0)) := by
  cases allocated with
  | reused first second head opened listed nonempty fetched =>
      have one := owes.required lands.1 opened
      have two := one.required (listed ▸ lands.2 _ first opened (listed ▸ nonempty)) fetched
      have held := ((require_some opened).2.pinned).fetched (Nat.le_refl 1) one.distinct (require_some fetched).2
      have edited : (second.setData 0 fun data =>
          data.setFreeListHead (second.dataOf newPageId).nextFree).Owes (Function.update owed 0 none) :=
        (two.forget 0).update_free (Function.update_self ..) fun _ => rfl
      refine edited.unpin_clean.commit ?_
      apply Pinned.unpin
      apply Pinned.setData
      simpa only [true_and] using held
  | appended first opened empty =>
      have one := owes.required lands.1 opened
      exact commit ((one.forget 0).update_free (Function.update_self ..) fun _ => rfl)
        (require_some opened).2.pinned.setData

/-- Freeing a page owes it and the header. -/
theorem freed (owes : cache.Owes owed) (lands : cache.FreeLands pageId)
    (freed : Freed memories cache pageId room) : room.Owes
      (if pageId ≤ 0 then owed else (owed.commit pageId (room.contents pageId)).commit 0 (room.contents 0)) := by
  cases freed with
  | ignored header =>
      rw [if_pos header]
      exact owes
  | listed first second positive opened fetched =>
      rw [if_neg (Int32.not_le.mpr positive)]
      have apart : pageId ≠ 0 := (Int32.ne_of_lt positive).symm
      obtain ⟨header, page⟩ := lands positive
      have one := owes.required header opened
      have two := one.required (page _ first opened) fetched
      have hdr := ((require_some opened).2.pinned).fetched (Nat.le_refl 1) one.distinct (require_some fetched).2
      have target := (require_some fetched).2.pinned
      have cleared : (second.setData pageId fun _ =>
          Bytes.zero.setI32 0 (second.dataOf 0).header.freeListHead).Owes
            (Function.update (Function.update owed 0 none) pageId none) :=
        ((two.forget 0).forget pageId).update_free (Function.update_self ..) fun _ => rfl
      have headed : ((second.setData pageId fun _ =>
          Bytes.zero.setI32 0 (second.dataOf 0).header.freeListHead).setData 0 fun data =>
            data.setFreeListHead pageId).Owes
            (Function.update (Function.update owed 0 none) pageId none) := by
        refine cleared.update_free ?_ fun _ => rfl
        rw [Function.update_of_ne apart.symm, Function.update_self]
      simp only [contents_unpin]
      exact headed.commit_both apart (hdr.weaken (by split <;> omega)).setData.setData target.setData.setData

end Owes

end Cache

end HundredDays.PagedStorage
