import HundredDays.PagedStorage.Cache.Steps

namespace HundredDays.PagedStorage

open HundredDays.Memory

/-! What a page holds, wherever the cache keeps it.

A page is tracked by the contents that its client expects.  The file may lag
behind a dirty frame, and also behind a clean one that a client has written to
and not unpinned yet; such a page is `loose`.
-/

namespace Cache

variable {cache room : Cache} {frame : Frame} {memory : Bool} {memories : Bool × Bool}
  {pageId other : Int32} {data link : Bytes} {loose : Bool}

/-- The file takes whole pages and has a header, and no page id is negative. -/
structure Stored (cache : Cache) : Prop where
  distinct : cache.Distinct
  nonneg : ∀ frame ∈ cache.frames, 0 ≤ frame.pageId
  whole : cache.fd.Whole pageSize
  nonempty : 0 < cache.fd.size

structure Tracks (cache : Cache) (pageId : Int32) (data : Bytes) (loose : Bool) : Prop where
  cached : ∀ frame ∈ cache.frames, frame.pageId = pageId → frame.data = data
  clean : ∀ frame ∈ cache.frames, frame.pageId = pageId → frame.isDirty = false → loose = false →
    cache.onFile pageId = data
  filed : (∀ frame ∈ cache.frames, frame.pageId ≠ pageId) → cache.onFile pageId = data

theorem fileOffset_apart (first : 0 ≤ pageId) (second : 0 ≤ other) (apart : pageId ≠ other) :
    fileOffset pageId + pageSize ≤ fileOffset other ∨ fileOffset other + pageSize ≤ fileOffset pageId := by
  have firstNat : 0 ≤ pageId.toInt := by simpa [Int32.le_iff_toInt_le] using first
  have secondNat : 0 ≤ other.toInt := by simpa [Int32.le_iff_toInt_le] using second
  have ids : pageId.toInt ≠ other.toInt := fun same => apart (Int32.toInt_inj.mp same)
  simp only [fileOffset, pageSize]
  omega

theorem flushFrame_clean (clean : frame.isDirty = false) : cache.flushFrame frame = (cache, frame) := by
  simp [flushFrame, clean]

/-- A dirty frame whose page the file takes whole. -/
theorem flushFrame_dirty (whole : cache.fd.Whole pageSize) (nonneg : 0 ≤ frame.pageId)
    (dirty : frame.isDirty = true) :
    cache.flushFrame frame = ({ cache with
      fd := cache.fd.transfer frame.data (fileOffset frame.pageId) pageSize
      pwriteCount := cache.pwriteCount + 1
      history := .written frame.pageId frame.data :: cache.history }, { frame with isDirty := false }) := by
  simp only [flushFrame, dirty, if_true, fileOffset_eq nonneg, File.pwrite_whole whole]

theorem onFile_flushFrame (whole : cache.fd.Whole pageSize) (frameNonneg : 0 ≤ frame.pageId)
    (nonneg : 0 ≤ pageId) : (cache.flushFrame frame).1.onFile pageId =
      if frame.isDirty = true ∧ frame.pageId = pageId then frame.data else cache.onFile pageId := by
  cases dirty : frame.isDirty with
  | false => simp [flushFrame_clean dirty]
  | true =>
      rw [flushFrame_dirty whole frameNonneg dirty]
      by_cases same : frame.pageId = pageId
      · subst same
        simp only [and_self, if_true, onFile]
        exact File.window_transfer
      · simp only [same, and_false, if_false, onFile]
        exact File.window_transfer_disjoint (fileOffset_apart nonneg frameNonneg (Ne.symm same))

theorem flushFrame_whole (whole : cache.fd.Whole pageSize) (nonneg : 0 ≤ frame.pageId) :
    (cache.flushFrame frame).1.fd.Whole pageSize := by
  cases dirty : frame.isDirty with
  | false => rwa [flushFrame_clean dirty]
  | true =>
      rw [flushFrame_dirty whole nonneg dirty]
      exact whole.transfer

theorem flushFrame_nonempty (whole : cache.fd.Whole pageSize) (nonneg : 0 ≤ frame.pageId)
    (nonempty : 0 < cache.fd.size) : 0 < (cache.flushFrame frame).1.fd.size := by
  cases dirty : frame.isDirty with
  | false => rwa [flushFrame_clean dirty]
  | true =>
      rw [flushFrame_dirty whole nonneg dirty]
      exact File.size_transfer_pos (by decide)

theorem flushFrame_flushed (whole : cache.fd.Whole pageSize) (nonneg : 0 ≤ frame.pageId) :
    (cache.flushFrame frame).2.isDirty = false := by
  cases dirty : frame.isDirty with
  | false => rw [flushFrame_clean dirty, dirty]
  | true => rw [flushFrame_dirty whole nonneg dirty]

namespace Stored

theorem pinned_nonneg {count : Nat} (stored : cache.Stored) (pinned : cache.Pinned pageId count) :
    0 ≤ pageId := by
  obtain ⟨frame, member, rfl, _⟩ := pinned
  exact stored.nonneg frame member

theorem acquired (stored : cache.Stored) (acquired : Acquired cache room) : room.Stored := by
  refine ⟨stored.distinct.acquired acquired, fun frame member =>
    stored.nonneg frame (acquired.subset member), ?_, ?_⟩
  · cases acquired with
    | space => exact stored.whole
    | evicted left right victim full split =>
        exact flushFrame_whole stored.whole (stored.nonneg victim (by simp [split]))
  · cases acquired with
    | space => exact stored.nonempty
    | evicted left right victim full split =>
        exact flushFrame_nonempty stored.whole (stored.nonneg victim (by simp [split])) stored.nonempty

theorem fetched {result : Bool} (stored : cache.Stored) (nonneg : 0 ≤ pageId)
    (fetched : Fetched cache pageId result room) : room.Stored := by
  have distinct := stored.distinct.fetched fetched
  cases fetched with
  | hit left right frame split same =>
      refine ⟨distinct, ?_, stored.whole, stored.nonempty⟩
      intro other member
      rcases List.mem_cons.mp member with rfl | kept
      · exact stored.nonneg frame (by simp [split])
      · apply stored.nonneg other
        rw [split]
        exact List.perm_middle.mem_iff.mpr (List.mem_cons_of_mem frame kept)
  | refused => exact stored
  | miss before absent acquired =>
      have kept := stored.acquired acquired
      refine ⟨distinct, ?_, kept.whole, kept.nonempty⟩
      intro other member
      rcases List.mem_cons.mp member with rfl | kept'
      · exact nonneg
      · exact kept.nonneg other kept'

theorem required (stored : cache.Stored) (required : cache.require memory pageId = some room) :
    room.Stored :=
  stored.fetched (require_some required).1 (require_some required).2

theorem update {change : Frame → Frame} (stored : cache.Stored)
    (keeps : ∀ frame, (change frame).pageId = frame.pageId) : (cache.update pageId change).Stored := by
  refine ⟨stored.distinct.update keeps, ?_, stored.whole, stored.nonempty⟩
  intro frame member
  obtain ⟨before, listed, rfl⟩ := List.mem_map.mp member
  split
  · rw [keeps]
    exact stored.nonneg before listed
  · exact stored.nonneg before listed

theorem setData {change : Bytes → Bytes} (stored : cache.Stored) : (cache.setData pageId change).Stored :=
  Stored.update stored fun _ => rfl

theorem unpin {isDirty : Bool} (stored : cache.Stored) : (cache.unpin pageId isDirty).Stored :=
  Stored.update stored fun _ => rfl

theorem flushFrame (stored : cache.Stored) (nonneg : 0 ≤ frame.pageId) :
    (cache.flushFrame frame).1.Stored where
  distinct := by
    rw [Distinct, flushFrame_frames]
    exact stored.distinct
  nonneg := by
    rw [flushFrame_frames]
    exact stored.nonneg
  whole := flushFrame_whole stored.whole nonneg
  nonempty := flushFrame_nonempty stored.whole nonneg stored.nonempty

theorem flush (stored : cache.Stored) : (cache.flush pageId).Stored := by
  cases found : cache.frames.find? (holds pageId) with
  | none => rwa [flush_absent found]
  | some frame =>
      rw [flush_found found]
      exact (stored.flushFrame (stored.nonneg frame (List.mem_of_find?_eq_some found))).update fun _ => rfl

theorem allocated (stored : cache.Stored) (allocated : Allocated memories cache pageId room) :
    room.Stored := by
  cases allocated with
  | reused first second head opened listed nonempty fetched =>
      exact ((stored.required opened).required fetched).setData.unpin.unpin
  | appended first opened empty => exact (stored.required opened).setData.unpin

theorem freed (stored : cache.Stored) (freed : Freed memories cache pageId room) : room.Stored := by
  cases freed with
  | ignored => exact stored
  | listed first second positive opened fetched =>
      exact ((stored.required opened).required fetched).setData.setData.unpin.unpin

end Stored

namespace Tracks

theorem loosen (tracks : cache.Tracks pageId data false) : cache.Tracks pageId data loose :=
  ⟨tracks.cached, fun frame member same clean _ => tracks.clean frame member same clean rfl, tracks.filed⟩

theorem dataOf (tracks : cache.Tracks pageId data loose) (pinned : cache.Pinned pageId 1) :
    cache.dataOf pageId = data := by
  obtain ⟨frame, member, same, _⟩ := pinned
  cases found : cache.frames.find? (holds pageId) with
  | none =>
      have absent := List.find?_eq_none.mp found frame member
      simp [holds, same] at absent
  | some listed =>
      have label : listed.pageId = pageId := by simpa [holds] using List.find?_some found
      rw [Cache.dataOf, found]
      exact tracks.cached listed (List.mem_of_find?_eq_some found) label

/-- Evicting a frame leaves every page as it was: the victim is written back
first, and a loose page is in use and so never the victim. -/
theorem acquired (tracks : cache.Tracks pageId data loose) (stored : cache.Stored) (nonneg : 0 ≤ pageId)
    (held : loose = true → cache.Pinned pageId 1) (acquired : Acquired cache room) :
    room.Tracks pageId data loose := by
  cases acquired with
  | space => exact tracks
  | evicted left right victim full split free =>
      have listed : victim ∈ cache.frames := by simp [split]
      obtain ⟨_, apart⟩ := stored.distinct.split split
      have inside : ∀ frame ∈ left ++ right, frame ∈ cache.frames := by
        intro frame member
        rw [split]
        exact List.perm_middle.mem_iff.mpr (List.mem_cons_of_mem victim member)
      have file := onFile_flushFrame stored.whole (stored.nonneg victim listed) nonneg
      by_cases same : victim.pageId = pageId
      · have strict : loose = false := by
          rw [Bool.eq_false_iff]
          intro isLoose
          obtain ⟨frame, member, label, used⟩ := held isLoose
          rw [stored.distinct.unique member listed (label.trans same.symm)] at used
          simp only [unpinned, beq_iff_eq] at free
          omega
        have gone : ∀ frame ∈ left ++ right, frame.pageId ≠ pageId :=
          fun frame member label => apart frame member (label.trans same.symm)
        refine ⟨fun frame member label => absurd label (gone frame member),
          fun frame member label => absurd label (gone frame member), fun _ => ?_⟩
        refine file.trans ?_
        cases dirty : victim.isDirty with
        | false => simpa using tracks.clean victim listed same dirty strict
        | true => simpa [same] using tracks.cached victim listed same
      · have kept : (cache.flushFrame victim).1.onFile pageId = cache.onFile pageId := by
          rw [file, if_neg fun both => same both.2]
        refine ⟨fun frame member label => tracks.cached frame (inside frame member) label, ?_, ?_⟩
        · intro frame member label clean strict
          exact kept.trans (tracks.clean frame (inside frame member) label clean strict)
        · intro absent
          refine kept.trans (tracks.filed ?_)
          intro frame member
          rw [split] at member
          rcases List.mem_cons.mp (List.perm_middle.mem_iff.mp member) with rfl | remains
          · exact same
          · exact absent frame remains

theorem fetched {result : Bool} (tracks : cache.Tracks pageId data loose) (stored : cache.Stored)
    (nonneg : 0 ≤ pageId) (held : loose = true → cache.Pinned pageId 1)
    (fetched : Fetched cache other result room) : room.Tracks pageId data loose := by
  cases fetched with
  | hit left right frame split same =>
      have before : ∀ found ∈ { frame with pinCount := frame.pinCount + 1 } :: (left ++ right),
          ∃ old ∈ cache.frames, old.pageId = found.pageId ∧ old.data = found.data ∧
            old.isDirty = found.isDirty := by
        intro found member
        rcases List.mem_cons.mp member with rfl | kept
        · exact ⟨frame, by simp [split], rfl, rfl, rfl⟩
        · refine ⟨found, ?_, rfl, rfl, rfl⟩
          rw [split]
          exact List.perm_middle.mem_iff.mpr (List.mem_cons_of_mem frame kept)
      refine ⟨?_, ?_, ?_⟩
      · intro found member label
        obtain ⟨old, listed, ids, contents, _⟩ := before found member
        rw [← contents]
        exact tracks.cached old listed (ids.trans label)
      · intro found member label clean strict
        obtain ⟨old, listed, ids, _, dirty⟩ := before found member
        exact tracks.clean old listed (ids.trans label) (dirty.trans clean) strict
      · intro absent
        apply tracks.filed
        intro old listed
        rw [split] at listed
        rcases List.mem_cons.mp (List.perm_middle.mem_iff.mp listed) with rfl | remains
        · exact absent { old with pinCount := old.pinCount + 1 } (by simp)
        · exact absent old (List.mem_cons_of_mem _ remains)
  | refused => exact tracks
  | miss before absent acquired =>
      have kept := tracks.acquired stored nonneg held acquired
      refine ⟨?_, ?_, ?_⟩
      · intro frame member label
        rcases List.mem_cons.mp member with rfl | old
        · dsimp only at label
          subst label
          exact kept.filed fun frame inside => absent frame (acquired.subset inside)
        · exact kept.cached frame old label
      · intro frame member label clean strict
        rcases List.mem_cons.mp member with rfl | old
        · dsimp only at label
          subst label
          exact kept.filed fun frame inside => absent frame (acquired.subset inside)
        · exact kept.clean frame old label clean strict
      · intro missing
        exact kept.filed fun frame inside => missing frame (List.mem_cons_of_mem _ inside)

/-- A change of frames that keeps ids and data, and clears no dirty bit. -/
theorem update {change : Frame → Frame} (tracks : cache.Tracks pageId data loose)
    (keeps : ∀ frame, (change frame).pageId = frame.pageId)
    (same : other = pageId → ∀ frame, (change frame).data = frame.data ∧
      ((change frame).isDirty = false → frame.isDirty = false)) :
    (cache.update other change).Tracks pageId data loose := by
  have before : ∀ frame ∈ (cache.update other change).frames, frame.pageId = pageId →
      ∃ old ∈ cache.frames, old.pageId = pageId ∧ frame.data = old.data ∧
        (frame.isDirty = false → old.isDirty = false) := by
    intro frame member label
    obtain ⟨old, listed, rfl⟩ := List.mem_map.mp member
    split at label
    · rename_i here
      rw [keeps] at label
      obtain ⟨contents, dirty⟩ := same (here.symm.trans label) old
      rw [if_pos here]
      exact ⟨old, listed, label, contents, dirty⟩
    · rename_i elsewhere
      rw [if_neg elsewhere]
      exact ⟨old, listed, label, rfl, id⟩
  refine ⟨?_, ?_, ?_⟩
  · intro frame member label
    obtain ⟨old, listed, ids, contents, _⟩ := before frame member label
    exact contents.trans (tracks.cached old listed ids)
  · intro frame member label clean strict
    obtain ⟨old, listed, ids, _, dirty⟩ := before frame member label
    exact tracks.clean old listed ids (dirty clean) strict
  · intro absent
    apply tracks.filed
    intro frame listed label
    have changed := absent _ (List.mem_map_of_mem listed)
    split at changed
    · rw [keeps] at changed
      exact changed label
    · exact changed label

theorem unpin (tracks : cache.Tracks pageId data loose) (other : Int32) (isDirty : Bool) :
    (cache.unpin other isDirty).Tracks pageId data loose :=
  Tracks.update tracks (fun _ => rfl) fun _ _ =>
    ⟨rfl, fun clean => (Bool.or_eq_false_iff.mp clean).2⟩

theorem setData_other (tracks : cache.Tracks pageId data loose) (change : Bytes → Bytes)
    (apart : other ≠ pageId) : (cache.setData other change).Tracks pageId data loose :=
  Tracks.update tracks (fun _ => rfl) fun same => absurd same apart

/-- Writing to a page in use makes it loose. -/
theorem setData (tracks : cache.Tracks pageId data loose) (change : Bytes → Bytes)
    (pinned : cache.Pinned pageId 1) :
    (cache.setData pageId change).Tracks pageId (change data) true where
  cached := by
    intro frame member label
    obtain ⟨old, listed, rfl⟩ := List.mem_map.mp member
    split at label
    · rename_i here
      rw [if_pos here]
      exact congrArg change (tracks.cached old listed here)
    · contradiction
  clean := fun _ _ _ _ strict => absurd strict (by simp)
  filed := by
    intro absent
    have still : (cache.setData pageId change).Pinned pageId 1 := pinned.setData
    obtain ⟨frame, member, same, _⟩ := still
    exact absurd same (absent frame member)

/-- Overwriting a page in use, whatever it held. -/
theorem overwritten (data : Bytes) (pinned : cache.Pinned pageId 1) :
    (cache.setData pageId fun _ => data).Tracks pageId data true where
  cached := by
    intro frame member label
    obtain ⟨old, listed, rfl⟩ := List.mem_map.mp member
    split at label
    · rename_i here
      rw [if_pos here]
    · contradiction
  clean := fun _ _ _ _ strict => absurd strict (by simp)
  filed := by
    intro absent
    have still : (cache.setData pageId fun _ => data).Pinned pageId 1 := pinned.setData
    obtain ⟨frame, member, same, _⟩ := still
    exact absurd same (absent frame member)

/-- Unpinning with the dirty mark makes the page reliable again. -/
theorem unpin_dirty (tracks : cache.Tracks pageId data loose) (pinned : cache.Pinned pageId 1) :
    (cache.unpin pageId true).Tracks pageId data false where
  cached := (tracks.unpin pageId true).cached
  clean := by
    intro frame member label clean
    obtain ⟨old, listed, rfl⟩ := List.mem_map.mp member
    split at label
    · rename_i here
      rw [if_pos here] at clean
      simp at clean
    · contradiction
  filed := by
    intro absent
    obtain ⟨frame, member, same, enough⟩ := pinned
    have kept : (cache.unpin pageId true).Pinned pageId 0 := by
      apply Pinned.unpin
      rw [if_pos rfl]
      exact ⟨frame, member, same, enough⟩
    obtain ⟨found, inside, label, _⟩ := kept
    exact absurd label (absent found inside)

theorem flush (tracks : cache.Tracks pageId data loose) (stored : cache.Stored) (nonneg : 0 ≤ pageId) :
    (cache.flush other).Tracks pageId data loose := by
  cases found : cache.frames.find? (holds other) with
  | none => rwa [flush_absent found]
  | some frame =>
      have member := List.mem_of_find?_eq_some found
      have label : frame.pageId = other := by simpa [holds] using List.find?_some found
      have clean := flushFrame_flushed stored.whole (stored.nonneg frame member)
      have file := onFile_flushFrame stored.whole (stored.nonneg frame member) nonneg
      rw [flush_found found, clean]
      by_cases same : other = pageId
      · subst same
        refine ⟨?_, ?_, ?_⟩
        · intro listed inside ids
          obtain ⟨old, before, rfl⟩ := List.mem_map.mp inside
          rw [flushFrame_frames] at before
          split at ids
          · rename_i here
            rw [if_pos here]
            exact tracks.cached old before here
          · rename_i elsewhere
            exact absurd ids elsewhere
        · intro _ _ _ _ strict
          refine file.trans ?_
          cases dirty : frame.isDirty with
          | false => simpa using tracks.clean frame member label dirty strict
          | true => simpa [label] using tracks.cached frame member label
        · intro absent
          have still := absent { frame with isDirty := false }
          refine absurd label (still ?_)
          rw [Cache.update, flushFrame_frames]
          exact List.mem_map.mpr ⟨frame, member, if_pos label⟩
      · have kept : (cache.flushFrame frame).1.onFile pageId = cache.onFile pageId := by
          rw [file, if_neg fun both => same (label.symm.trans both.2)]
        have before : (cache.flushFrame frame).1.Tracks pageId data loose := by
          refine ⟨?_, ?_, ?_⟩
          · rw [flushFrame_frames]
            exact tracks.cached
          · rw [flushFrame_frames, kept]
            exact tracks.clean
          · rw [flushFrame_frames, kept]
            exact tracks.filed
        exact before.update (fun _ => rfl) fun here => absurd here same

theorem required (tracks : cache.Tracks pageId data loose) (stored : cache.Stored) (nonneg : 0 ≤ pageId)
    (held : loose = true → cache.Pinned pageId 1) (required : cache.require memory other = some room) :
    room.Tracks pageId data loose ∧ (loose = true → room.Pinned pageId 1) := by
  have effect := (require_some required).2
  refine ⟨tracks.fetched stored nonneg held effect, fun isLoose => ?_⟩
  exact ((held isLoose).fetched (Nat.le_refl 1) stored.distinct effect).weaken (by split <;> omega)

/-- An allocation touches no page but the header. -/
theorem allocated_other {newPageId : Int32} (tracks : cache.Tracks pageId data loose)
    (stored : cache.Stored) (positive : 0 < pageId) (held : loose = true → cache.Pinned pageId 1)
    (allocated : Allocated memories cache newPageId room) : room.Tracks pageId data loose := by
  have nonneg := Int32.le_of_lt positive
  have apart : (0 : Int32) ≠ pageId := Int32.ne_of_lt positive
  cases allocated with
  | reused first second head opened listed nonempty fetched =>
      obtain ⟨one, still⟩ := tracks.required stored nonneg held opened
      obtain ⟨two, _⟩ := one.required (stored.required opened) nonneg still fetched
      exact ((two.setData_other _ apart).unpin _ _).unpin _ _
  | appended first opened empty =>
      obtain ⟨one, _⟩ := tracks.required stored nonneg held opened
      exact (one.setData_other _ apart).unpin _ _

/-- An allocation from an empty free list appends a page. -/
theorem appended {newPageId : Int32} (header : cache.Tracks 0 data loose) (stored : cache.Stored)
    (held : loose = true → cache.Pinned 0 1) (empty : data.header.freeListHead = -1)
    (allocated : Allocated memories cache newPageId room) :
    newPageId = data.header.totalPages.toInt32 ∧
      room.Tracks 0 (data.setTotalPages (data.header.totalPages + 1)) false := by
  cases allocated with
  | reused first second head opened listed nonempty fetched =>
      obtain ⟨one, _⟩ := header.required stored (Int32.le_refl 0) held opened
      rw [one.dataOf (require_some opened).2.pinned, empty] at listed
      exact absurd listed.symm nonempty
  | appended first opened =>
      obtain ⟨one, _⟩ := header.required stored (Int32.le_refl 0) held opened
      have pinned := (require_some opened).2.pinned
      rw [one.dataOf pinned]
      exact ⟨rfl, (one.setData _ pinned).unpin_dirty pinned.setData⟩

/-- An allocation from a free list takes its first page. -/
theorem reused {newPageId : Int32} (header : cache.Tracks 0 data loose) (stored : cache.Stored)
    (held : loose = true → cache.Pinned 0 1) (nonempty : data.header.freeListHead ≠ -1)
    (allocated : Allocated memories cache newPageId room) :
    newPageId = data.header.freeListHead ∧ 0 ≤ newPageId ∧
      ∀ link other, cache.Tracks newPageId link other →
        (other = true → cache.Pinned newPageId 1) → room.Tracks 0 (data.setFreeListHead link.nextFree) false := by
  cases allocated with
  | reused first second head opened listed _ fetched =>
      obtain ⟨one, still⟩ := header.required stored (Int32.le_refl 0) held opened
      have opening := (require_some opened).2.pinned
      rw [one.dataOf opening] at listed
      refine ⟨listed.symm, (require_some fetched).1, ?_⟩
      intro link other linked linkHeld
      have firstStored := stored.required opened
      obtain ⟨two, _⟩ := one.required firstStored (Int32.le_refl 0) still fetched
      obtain ⟨linkOne, linkStill⟩ := linked.required stored (require_some fetched).1 linkHeld opened
      obtain ⟨linkTwo, _⟩ := linkOne.required firstStored (require_some fetched).1 linkStill fetched
      have pins := opening.fetched (Nat.le_refl 1) firstStored.distinct (require_some fetched).2
      rw [linkTwo.dataOf (require_some fetched).2.pinned]
      have changed := two.setData (fun data => data.setFreeListHead link.nextFree)
        (pins.weaken (by split <;> omega))
      refine (changed.unpin newPageId false).unpin_dirty ?_
      apply Pinned.unpin
      apply Pinned.setData
      simpa only [true_and] using pins
  | appended first opened empty =>
      obtain ⟨one, _⟩ := header.required stored (Int32.le_refl 0) held opened
      rw [one.dataOf (require_some opened).2.pinned] at empty
      exact absurd empty nonempty

/-- Freeing a page touches no page but that one and the header. -/
theorem freed_other {freedId : Int32} (tracks : cache.Tracks pageId data loose) (stored : cache.Stored)
    (positive : 0 < pageId) (held : loose = true → cache.Pinned pageId 1) (apart : freedId ≠ pageId)
    (freed : Freed memories cache freedId room) : room.Tracks pageId data loose := by
  have nonneg := Int32.le_of_lt positive
  have notHeader : (0 : Int32) ≠ pageId := Int32.ne_of_lt positive
  cases freed with
  | ignored => exact tracks
  | listed first second _ opened fetched =>
      obtain ⟨one, still⟩ := tracks.required stored nonneg held opened
      obtain ⟨two, _⟩ := one.required (stored.required opened) nonneg still fetched
      exact (((two.setData_other _ apart).setData_other _ notHeader).unpin _ _).unpin _ _

/-- A freed page becomes the head of the free list and points to the old head. -/
theorem freed {freedId : Int32} (header : cache.Tracks 0 data loose) (stored : cache.Stored)
    (held : loose = true → cache.Pinned 0 1) (positive : 0 < freedId)
    (freed : Freed memories cache freedId room) :
    room.Tracks 0 (data.setFreeListHead freedId) false ∧
      room.Tracks freedId (Bytes.zero.setI32 0 data.header.freeListHead) false := by
  have apart : (0 : Int32) ≠ freedId := Int32.ne_of_lt positive
  cases freed with
  | ignored header => exact absurd positive (Int32.not_lt.mpr header)
  | listed first second _ opened fetched =>
      have firstStored := stored.required opened
      obtain ⟨one, still⟩ := header.required stored (Int32.le_refl 0) held opened
      obtain ⟨two, _⟩ := one.required firstStored (Int32.le_refl 0) still fetched
      have opening := (require_some opened).2.pinned
      have target := (require_some fetched).2.pinned
      have pins : second.Pinned 0 1 := by
        have more := opening.fetched (Nat.le_refl 1) firstStored.distinct (require_some fetched).2
        exact more.weaken (by split <;> omega)
      rw [two.dataOf pins]
      constructor
      · have changed := (two.setData_other (fun _ => Bytes.zero.setI32 0 data.header.freeListHead)
          apart.symm).setData (fun data => data.setFreeListHead freedId) pins.setData
        refine (changed.unpin freedId true).unpin_dirty ?_
        apply Pinned.unpin
        rw [if_neg apart]
        exact pins.setData.setData
      · have changed := (Tracks.overwritten (Bytes.zero.setI32 0 data.header.freeListHead)
          target).setData_other (fun data => data.setFreeListHead freedId) apart
        exact (changed.unpin_dirty target.setData.setData).unpin _ _

end Tracks

section Lifecycle

variable {todo : List Frame} {fd : File}

theorem flushAll_whole (whole : cache.fd.Whole pageSize) (nonneg : ∀ frame ∈ todo, 0 ≤ frame.pageId) :
    (cache.flushAll todo).fd.Whole pageSize := by
  induction todo generalizing cache with
  | nil => exact whole
  | cons frame rest ih =>
      exact ih (flushFrame_whole whole (nonneg frame (by simp)))
        fun other member => nonneg other (List.mem_cons_of_mem frame member)

theorem flushAll_nonempty (whole : cache.fd.Whole pageSize) (nonneg : ∀ frame ∈ todo, 0 ≤ frame.pageId)
    (nonempty : 0 < cache.fd.size) : 0 < (cache.flushAll todo).fd.size := by
  induction todo generalizing cache with
  | nil => exact nonempty
  | cons frame rest ih =>
      have first := nonneg frame (by simp)
      exact ih (flushFrame_whole whole first)
        (fun other member => nonneg other (List.mem_cons_of_mem frame member))
        (flushFrame_nonempty whole first nonempty)

theorem flushAll_other (whole : cache.fd.Whole pageSize) (nonneg : ∀ frame ∈ todo, 0 ≤ frame.pageId)
    (pageNonneg : 0 ≤ pageId) (absent : ∀ frame ∈ todo, frame.pageId ≠ pageId) :
    (cache.flushAll todo).onFile pageId = cache.onFile pageId := by
  induction todo generalizing cache with
  | nil => rfl
  | cons frame rest ih =>
      have first := nonneg frame (by simp)
      rw [flushAll, ih (flushFrame_whole whole first)
        (fun other member => nonneg other (List.mem_cons_of_mem frame member))
        (fun other member => absent other (List.mem_cons_of_mem frame member)),
        onFile_flushFrame whole first pageNonneg, if_neg fun both => absent frame (by simp) both.2]

/-- Flushing every frame brings the file up to date with a listed page. -/
theorem flushAll_found (whole : cache.fd.Whole pageSize) (nonneg : ∀ frame ∈ todo, 0 ≤ frame.pageId)
    (distinct : (todo.map Frame.pageId).Nodup) (member : frame ∈ todo) :
    (cache.flushAll todo).onFile frame.pageId =
      if frame.isDirty = true then frame.data else cache.onFile frame.pageId := by
  induction todo generalizing cache with
  | nil => contradiction
  | cons first rest ih =>
      obtain ⟨fresh, others⟩ := List.nodup_cons.mp distinct
      have firstNonneg := nonneg first (by simp)
      have restNonneg : ∀ frame ∈ rest, 0 ≤ frame.pageId :=
        fun other inside => nonneg other (List.mem_cons_of_mem first inside)
      have whole' := flushFrame_whole whole firstNonneg
      have file := onFile_flushFrame whole firstNonneg (nonneg frame member)
      rcases List.mem_cons.mp member with rfl | later
      · have absent : ∀ other ∈ rest, other.pageId ≠ frame.pageId :=
          fun other inside same => fresh (List.mem_map.mpr ⟨other, inside, same⟩)
        rw [flushAll, flushAll_other whole' restNonneg firstNonneg absent, file]
        simp
      · have apart : first.pageId ≠ frame.pageId :=
          fun same => fresh (List.mem_map.mpr ⟨frame, later, same.symm⟩)
        rw [if_neg fun both => apart both.2] at file
        rw [flushAll, ih whole' restNonneg others later, file]

theorem opened_nonempty (nonempty : 0 < fd.size) : opened fd =
    { fd, frames := [], capacity := cacheCapacity, pwriteCount := 0, history := [] } := by
  rw [opened, if_neg (by omega)]

/-- What a pager opened on this file stands for: the file's pages, zero beyond
its end, and the first header where the file is new. -/
def initialPages (fd : File) (pageId : Int32) : Bytes :=
  if fd.size = 0 ∧ pageId = 0 then initialHeader else fd.window pageSize (fileOffset pageId)

/-- The new header is on file as soon as the pager is open. -/
theorem opened_new (whole : fd.Whole pageSize) (new : fd.size = 0) : opened fd =
    { fd := fd.transfer initialHeader 0 pageSize, frames := [⟨0, initialHeader, 0, false⟩]
      capacity := cacheCapacity, pwriteCount := 1, history := [.written 0 initialHeader, .touched 0] } := by
  have start : fileOffset 0 = 0 := by simp [fileOffset]
  rw [opened, if_pos new]
  generalize initialHeader = header
  let frame : Frame := ⟨0, header, 0, true⟩
  let cache : Cache := ⟨fd, [frame], cacheCapacity, 0, [.touched 0]⟩
  have found : cache.frames.find? (holds 0) = some frame := by simp [cache, frame, holds]
  have dirty : cache.flushFrame frame = _ := flushFrame_dirty whole (Int32.le_refl 0) rfl
  rw [flush_found found, dirty, start]
  simp [update, cache, frame]

theorem opened_stored (whole : fd.Whole pageSize) : (opened fd).Stored := by
  by_cases new : fd.size = 0
  · rw [opened_new whole new]
    refine ⟨by simp [Distinct], by simp, whole.transfer, ?_⟩
    exact File.size_transfer_pos (by decide)
  · rw [opened_nonempty (by omega)]
    exact ⟨by simp [Distinct], by simp, whole, by dsimp only; omega⟩

theorem opened_tracks (whole : fd.Whole pageSize) (nonneg : 0 ≤ pageId) :
    (opened fd).Tracks pageId (initialPages fd pageId) false := by
  by_cases new : fd.size = 0
  · rw [opened_new whole new]
    by_cases header : pageId = 0
    · subst header
      simp only [initialPages, new, and_self, if_true]
      refine ⟨by simp, fun _ _ _ _ _ => File.window_transfer, fun _ => File.window_transfer⟩
    · simp only [initialPages, header, and_false, if_false]
      have apart := fileOffset_apart nonneg (Int32.le_refl 0) header
      refine ⟨by simp [Ne.symm header], by simp [Ne.symm header], fun _ => ?_⟩
      exact File.window_transfer_disjoint apart
  · rw [opened_nonempty (by omega)]
    refine ⟨by simp, by simp, fun _ => ?_⟩
    rw [initialPages, if_neg fun both => new both.1]
    rfl

theorem Stored.reopened (stored : cache.Stored) :
    (opened (cache.flushAll cache.frames).fd).Stored :=
  opened_stored (flushAll_whole stored.whole stored.nonneg)

/-- Closing and opening again changes no page. -/
theorem Tracks.reopened (tracks : cache.Tracks pageId data false) (stored : cache.Stored)
    (nonneg : 0 ≤ pageId) : (opened (cache.flushAll cache.frames).fd).Tracks pageId data false := by
  rw [opened_nonempty (flushAll_nonempty stored.whole stored.nonneg stored.nonempty)]
  refine ⟨by simp, by simp, fun _ => ?_⟩
  change (cache.flushAll cache.frames).onFile pageId = data
  by_cases listed : ∃ frame ∈ cache.frames, frame.pageId = pageId
  · obtain ⟨frame, member, rfl⟩ := listed
    rw [flushAll_found stored.whole stored.nonneg stored.distinct member]
    cases dirty : frame.isDirty with
    | false => simpa using tracks.clean frame member rfl dirty rfl
    | true => simpa using tracks.cached frame member rfl
  · have absent : ∀ frame ∈ cache.frames, frame.pageId ≠ pageId :=
      fun frame member same => listed ⟨frame, member, same⟩
    rw [flushAll_other stored.whole stored.nonneg nonneg absent]
    exact tracks.filed absent

end Lifecycle

end Cache

end HundredDays.PagedStorage
