import HundredDays.PagedStorage.Operations

namespace HundredDays.PagedStorage

open HundredDays.Data HundredDays.Memory

/-! Opening a pager, closing it, and losing it to a crash. -/

variable {pager : Pager} {fd : File} {heap : Heap} {node : Addr} {order : List Addr}
  {buckets : Nat → List Addr} {cache : Cache}

theorem Structured.blank (self : Addr) (fd : File) (heap : Heap) : Structured
    { self, fd, lruList := listInit, hashMap := fun _ => none, capacity := cacheCapacity
      pwriteCount := 0, page := fun _ => blankPage, heap, history := [] } [] fun _ => [] where
  lists := Links.Lists.nil _ _
  size := rfl
  bounded := by simp [listInit]
  chains := fun _ => rfl
  members := by simp
  chainNodup := fun _ => List.nodup_nil
  distinct := List.nodup_nil
  nonneg := by simp
  live := by simp

/-- Opening succeeds unless `malloc` refuses, and gives the cache of that file. -/
theorem pagerOpen_exists (fd : File) (heap : Heap) : pagerOpen fd heap = some none ∧ heap.oracle.Refuses ∨
    ∃ pager, pagerOpen fd heap = some (some pager) ∧ pager.Implements (Cache.opened fd) ∧
      pager.heap.oracle = heap.oracle := by
  cases first : heap.malloc with
  | mk granted afterSelf =>
      cases granted with
      | none => exact .inl ⟨by simp [pagerOpen, first], Heap.refuses first⟩
      | some self =>
          obtain ⟨_, _, oracle⟩ := Heap.malloc_some first
          by_cases new : fd.size = 0
          · cases second : afterSelf.malloc with
            | mk granted afterPage =>
                cases granted with
                | none =>
                    refine .inl ⟨by simp [pagerOpen, first, new, second], ?_⟩
                    rw [← oracle]
                    exact Heap.refuses second
                | some node =>
                    obtain ⟨_, live, still⟩ := Heap.malloc_some second
                    obtain ⟨installed, buckets, done, structured, view, label, same, _⟩ :=
                      (Structured.blank self fd afterPage).install node 0 initialHeader 0 true (by simp)
                        (by simp [listInit, cacheCapacity]) (Int32.le_refl 0) (by simp) (by simp [live])
                    refine .inr ⟨pagerFlush installed node, ?_, ⟨[node], buckets, structured.pagerFlush node, ?_⟩, ?_⟩
                    · obtain ⟨inserted, chained, rfl⟩ := Option.map_eq_some_iff.mp done
                      simp only [pagerOpen, first, new, if_true, second, Option.bind_eq_bind]
                      rw [chained]
                      rfl
                    · rw [structured.view_pagerFlush (by simp), label, view]
                      simp only [Cache.opened, new, if_true]
                      rfl
                    · rw [pagerFlush_eq installed node []]
                      exact (congrArg Heap.oracle same).trans (still.trans oracle)
          · refine .inr ⟨_, by simp only [pagerOpen, first, new, if_false],
              ⟨[], _, Structured.blank self fd afterSelf, ?_⟩, oracle⟩
            simp only [Cache.opened, new, if_false]
            rfl

theorem pagerOpen_implements (opened : pagerOpen fd heap = some (some pager)) :
    pager.Implements (Cache.opened fd) ∧ pager.heap.oracle = heap.oracle := by
  rcases pagerOpen_exists fd heap with ⟨refused, _⟩ | ⟨other, done, facts⟩
  · rw [refused] at opened
    simp at opened
  · rw [done] at opened
    cases opened
    exact facts

theorem flushFrame_fd {other : Cache} {frame : Frame} (same : cache.fd = other.fd) :
    (cache.flushFrame frame).1.fd = (other.flushFrame frame).1.fd := by
  unfold Cache.flushFrame
  rw [same]
  split
  · dsimp only
    split <;> rfl
  · exact same

theorem flushAll_fd {other : Cache} {frames : List Frame} (same : cache.fd = other.fd) :
    (cache.flushAll frames).fd = (other.flushAll frames).fd := by
  induction frames generalizing cache other with
  | nil => exact same
  | cons frame rest ih => exact ih (flushFrame_fd same)

/-- Closing flushes every listed page in LRU order. -/
theorem releaseFrom_flush {steps : Nat} {start : Option Addr} (distinct : order.Nodup)
    (chain : Chain (fun node => (pager.page node).next) start order) (enough : order.length ≤ steps) :
    ∃ released, releaseFrom pagerFlush pager steps start = some released ∧
      released.fd = ((pager.view []).flushAll (order.map pager.frameAt)).fd ∧
      released.heap.oracle = pager.heap.oracle := by
  induction order generalizing pager steps start with
  | nil =>
      subst start
      cases steps <;> exact ⟨pager, rfl, rfl, rfl⟩
  | cons node rest ih =>
      obtain ⟨rfl, onward⟩ := chain
      cases steps with
      | zero => simp at enough
      | succ steps =>
          have equation := pagerFlush_eq pager node []
          obtain ⟨outside, nodup⟩ := List.nodup_cons.mp distinct
          have links : ∀ other, ((pagerFlush pager node).page other).next = (pager.page other).next := by
            intro other
            rw [equation]
            by_cases same : other = node
            · subst same
              simp [Pager.modify, Pager.follow]
            · simp [Pager.modify, Pager.follow, same]
          have kept : rest.map (pagerFlush pager node).frameAt = rest.map pager.frameAt := by
            rw [equation]
            exact Pager.map_frameAt_modify outside
          let freed : Pager := { pagerFlush pager node with heap := (pagerFlush pager node).heap.free node }
          have rest_chain : Chain (fun other => (freed.page other).next) (pager.page node).next rest :=
            onward.congr fun other _ => links other
          obtain ⟨final, done, file, oracle⟩ := ih nodup rest_chain (Nat.le_of_succ_le_succ enough)
          refine ⟨final, done, ?_, ?_⟩
          · rw [file]
            change (((pagerFlush pager node).view []).flushAll
              (rest.map (pagerFlush pager node).frameAt)).fd = _
            rw [kept]
            apply flushAll_fd
            rw [equation]
            rfl
          · rw [oracle]
            change (pagerFlush pager node).heap.oracle = _
            rw [equation]
            rfl

namespace Structured

theorem pagerClose_file (structured : Structured pager order buckets) :
    ∃ heap, pagerClose pager = some (((pager.view order).flushAll (pager.view order).frames).fd, heap) ∧
      heap.oracle = pager.heap.oracle := by
  have chain := structured.lists.segment.chain
  rw [← structured.lists.head] at chain
  have enough : order.length ≤ pager.walkBound := by
    rw [Pager.walkBound, structured.size]
    omega
  obtain ⟨released, done, file, oracle⟩ := releaseFrom_flush structured.lists.nodup chain enough
  refine ⟨released.heap.free released.self, ?_, oracle⟩
  have walked : releaseFrom PagedStorage.pagerFlush pager pager.walkBound pager.lruList.head = some released := done
  have same : released.fd = ((pager.view order).flushAll (pager.view order).frames).fd := by
    rw [file]
    exact flushAll_fd rfl
  rw [pagerClose, walked, Option.map_some, same]

end Structured

theorem releaseFrom_keep {steps : Nat} {start : Option Addr}
    (chain : Chain (fun node => (pager.page node).next) start order) (enough : order.length ≤ steps) :
    ∃ released, releaseFrom (fun pager _ => pager) pager steps start = some released ∧
      released.fd = pager.fd := by
  induction order generalizing pager steps start with
  | nil =>
      subst start
      cases steps <;> exact ⟨pager, rfl, rfl⟩
  | cons node rest ih =>
      obtain ⟨rfl, onward⟩ := chain
      cases steps with
      | zero => simp at enough
      | succ steps =>
          let freed : Pager := { pager with heap := pager.heap.free node }
          have rest_chain : Chain (fun other => (freed.page other).next) (pager.page node).next rest := onward
          have released := ih rest_chain (Nat.le_of_succ_le_succ enough)
          exact released

/-- A crash leaves the file as the flushes before it left it. -/
theorem Structured.pagerDestroyNoFlush_file (structured : Structured pager order buckets) :
    ∃ heap, pagerDestroyNoFlush pager = some (pager.fd, heap) := by
  have chain := structured.lists.segment.chain
  rw [← structured.lists.head] at chain
  have enough : order.length ≤ pager.walkBound := by
    rw [Pager.walkBound, structured.size]
    omega
  obtain ⟨released, done, file⟩ := releaseFrom_keep chain enough
  refine ⟨released.heap.free released.self, ?_⟩
  have walked : releaseFrom (fun pager _ => pager) pager pager.walkBound pager.lruList.head =
    some released := done
  rw [pagerDestroyNoFlush, walked, Option.map_some, file]

end HundredDays.PagedStorage
