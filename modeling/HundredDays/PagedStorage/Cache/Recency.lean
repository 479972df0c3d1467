import Mathlib.Data.List.Sublists
import HundredDays.PagedStorage.Cache.Steps

namespace HundredDays.PagedStorage

/-! The cached pages stand in the order in which they were last fetched. -/

/-- The pages that were ever fetched or inserted, the latest first. -/
def recency : List Event → List Int32
  | [] => []
  | .touched pageId :: rest => pageId :: (recency rest).filter (· ≠ pageId)
  | .evicted _ :: rest => recency rest
  | .written _ _ :: rest => recency rest

namespace Cache

variable {cache room : Cache} {frame : Frame} {pageId : Int32} {memories : Bool × Bool}

def Recent (cache : Cache) : Prop := (cache.frames.map Frame.pageId).Sublist (recency cache.history)

@[simp] theorem recency_flushFrame : recency (cache.flushFrame frame).1.history = recency cache.history := by
  unfold flushFrame
  split
  · dsimp only
    split <;> rfl
  · rfl

theorem Recent.acquired (recent : cache.Recent) (acquired : Acquired cache room) : room.Recent := by
  cases acquired with
  | space => exact recent
  | evicted left right victim full split =>
      rw [Recent, split] at recent
      change (List.map Frame.pageId (left ++ right)).Sublist
        (recency (cache.flushFrame victim).1.history)
      rw [recency_flushFrame]
      exact (((List.sublist_cons_self victim right).append_left left).map _).trans recent

/-- Moving a page to the front of both lists. -/
theorem touched_sublist {ids earlier : List Int32} (sublist : ids.Sublist earlier)
    (absent : ∀ other ∈ ids, other ≠ pageId) :
    (pageId :: ids).Sublist (pageId :: earlier.filter (· ≠ pageId)) := by
  have kept : ids.filter (· ≠ pageId) = ids := by
    apply List.filter_eq_self.mpr
    intro other member
    simpa using absent other member
  rw [← kept]
  exact (sublist.filter _).cons_cons pageId

theorem Recent.fetched {result : Bool} (recent : cache.Recent) (distinct : cache.Distinct)
    (fetched : Fetched cache pageId result room) : room.Recent := by
  cases fetched with
  | hit left right frame split same =>
      obtain ⟨_, apart⟩ := distinct.split split
      rw [Recent, split] at recent
      have shorter := (((List.sublist_cons_self frame right).append_left left).map Frame.pageId).trans recent
      rw [Recent]
      simp only [List.map_cons, same, recency]
      apply touched_sublist shorter
      intro other member
      obtain ⟨listed, inside, rfl⟩ := List.mem_map.mp member
      rw [← same]
      exact apart listed inside
  | refused => exact recent
  | miss before absent acquired =>
      apply touched_sublist (recent.acquired acquired)
      intro other member
      obtain ⟨listed, inside, rfl⟩ := List.mem_map.mp member
      exact absent listed (acquired.subset inside)

theorem Recent.update {change : Frame → Frame} (recent : cache.Recent)
    (keeps : ∀ frame, (change frame).pageId = frame.pageId) : (cache.update pageId change).Recent := by
  rw [Recent, map_pageId_update keeps]
  exact recent

theorem Recent.setData {change : Bytes → Bytes} (recent : cache.Recent) :
    (cache.setData pageId change).Recent :=
  Recent.update recent fun _ => rfl

theorem Recent.unpin {isDirty : Bool} (recent : cache.Recent) : (cache.unpin pageId isDirty).Recent :=
  Recent.update recent fun _ => rfl

theorem Recent.flush (recent : cache.Recent) : (cache.flush pageId).Recent := by
  cases found : cache.frames.find? (holds pageId) with
  | none =>
      rw [flush_absent found]
      exact recent
  | some frame =>
      have before : (cache.flushFrame frame).1.Recent := by
        rw [Recent, flushFrame_frames, recency_flushFrame]
        exact recent
      rw [flush_found found]
      exact before.update fun _ => rfl

theorem opened_recent {fd : Memory.File} : (opened fd).Recent := by
  unfold opened
  dsimp only
  split
  · apply Recent.flush
    simp [Recent, recency]
  · simp [Recent]

theorem Recent.allocated (recent : cache.Recent) (distinct : cache.Distinct)
    (allocated : Allocated memories cache pageId room) : room.Recent := by
  cases allocated with
  | reused first second head opened listed nonempty fetched =>
      have one := recent.fetched distinct (require_some opened).2
      have two := one.fetched (distinct.fetched (require_some opened).2) (require_some fetched).2
      exact two.setData.unpin.unpin
  | appended first opened empty =>
      exact (recent.fetched distinct (require_some opened).2).setData.unpin

theorem Recent.freed (recent : cache.Recent) (distinct : cache.Distinct)
    (freed : Freed memories cache pageId room) : room.Recent := by
  cases freed with
  | ignored => exact recent
  | listed first second positive opened fetched =>
      have one := recent.fetched distinct (require_some opened).2
      have two := one.fetched (distinct.fetched (require_some opened).2) (require_some fetched).2
      exact two.setData.setData.unpin.unpin

end Cache

end HundredDays.PagedStorage
