import HundredDays.PagedStorage.PageGuard.Balance

namespace HundredDays.PagedStorage

open HundredDays.Memory HundredDays.Semantics

/-! `AllocPage` and `FreePage` are runs of the calls that others make, so that what holds
over all runs holds with them in between. -/

namespace GuardSession

variable {session middle after : GuardSession} {call : GuardCall} {pool : BufferPoolManager} {pageId : Int32} {frameId : Nat} {rest : List Int32}
  {order : List Nat}

/-- There are calls that lead there. -/
def Reaches (session after : GuardSession) : Prop := ∃ calls, run step session calls = some after

theorem Reaches.andThen (reaches : session.Reaches middle) (stepped : middle.step call = some after) :
    session.Reaches after := by
  obtain ⟨calls, completed⟩ := reaches
  exact ⟨calls ++ [call], run_concat_iff.mpr ⟨middle, completed, stepped⟩⟩

theorem step_borrow (shelved : session.pool.Shelved order)
    (fetched : session.pool.fetchAny pageId = some (some frameId, pool)) :
    session.pool.Brings pool pageId frameId ∧ ∃ owed, session.step (.borrow pageId) =
      some { session with pool, borrowed := pageId :: session.borrowed, owed } := by
  obtain ⟨null, _⟩ | ⟨_, same, brings⟩ := shelved.fetch fetched
  · cases null
  · cases same
    constructor
    · exact brings
    · apply Exists.intro
      rw [step, fetchPage, fetched]
      rfl

theorem step_write (found : session.pool.pageTable pageId = some frameId) (change : Bytes → Bytes) :
    session.step (.write pageId (change (session.pool.pages frameId).data)) =
      some { session with pool := session.pool.setData frameId change } := by
  rw [step, found]
  rfl

theorem step_giveBack (isDirty : Bool) (borrowed : session.borrowed = pageId :: rest) :
    session.step (.giveBack pageId isDirty) =
      some { session with pool := session.pool.unpinPage pageId isDirty, borrowed := rest } := by
  rw [step, borrowed, if_pos List.mem_cons_self, List.erase_cons_head]

/-- The two pages that `FreePage`, or `AllocPage` with a page to reuse, has at once. -/
theorem borrow_both {first second : BufferPoolManager} {hdr : Nat} (shelved : session.pool.Shelved order)
    (opened : session.pool.fetchAny 0 = some (some hdr, first))
    (fetched : first.fetchAny pageId = some (some frameId, second)) :
    second.pageTable 0 = some hdr ∧ second.pageTable pageId = some frameId ∧
      ∃ owed, session.Reaches { session with pool := second, borrowed := pageId :: 0 :: session.borrowed, owed } := by
  obtain ⟨brings, between, called⟩ := step_borrow shelved opened
  obtain ⟨next, kept⟩ := brings.shelved
  have shelvedNext : ({ session with pool := first, borrowed := 0 :: session.borrowed,
                                     owed := between } : GuardSession).pool.Shelved next := kept
  obtain ⟨again, owed, calledAgain⟩ := step_borrow shelvedNext fetched
  have pinned : 0 < first.pins 0 := by
    rw [brings.pins]
    exact Nat.succ_pos _
  have itself : session.Reaches session := ⟨[], run_nil⟩
  exact ⟨(again.table_eq pinned).trans brings.found, again.found, owed, (itself.andThen called).andThen calledAgain⟩

theorem allocPage_run {newPageId : Int32} (held : session.Held)
    (allocated : BufferPoolManager.primitivesAny.allocPage session.pool = some (newPageId, pool)) :
    ∃ owed, session.Reaches { session with pool, owed } := by
  obtain ⟨order, shelved⟩ := held.shelved
  simp only [Primitives.allocPage, Option.bind_eq_bind, Option.bind_eq_some_iff] at allocated
  obtain ⟨⟨hdrPage, first⟩, opened, hdr, present, allocated⟩ := allocated
  dsimp only at present allocated
  subst present
  split at allocated
  next =>
    simp only [Option.bind_eq_some_iff] at allocated
    obtain ⟨⟨freePage, second⟩, fetched, free, present, allocated⟩ := allocated
    dsimp only at present allocated
    subst present
    cases allocated
    obtain ⟨header, _, owed, both⟩ := borrow_both shelved opened fetched
    have linked := both.andThen (step_write header fun data => data.setFreeListHead (second.pages free).data.nextFree)
    exact ⟨owed, (linked.andThen (step_giveBack false rfl)).andThen (step_giveBack true rfl)⟩
  next =>
    cases allocated
    obtain ⟨brings, owed, called⟩ := step_borrow shelved opened
    have itself : session.Reaches session := ⟨[], run_nil⟩
    have counted := (itself.andThen called).andThen
      (step_write brings.found fun data => data.setTotalPages (data.header.totalPages + 1))
    exact ⟨owed, counted.andThen (step_giveBack true rfl)⟩

theorem freePage_run (held : session.Held)
    (freed : BufferPoolManager.primitivesAny.freePage session.pool pageId = some pool) :
    ∃ owed, session.Reaches { session with pool, owed } := by
  obtain ⟨order, shelved⟩ := held.shelved
  rw [Primitives.freePage] at freed
  split at freed
  next =>
    cases freed
    exact ⟨session.owed, [], run_nil⟩
  next =>
    simp only [Option.bind_eq_bind, Option.bind_eq_some_iff] at freed
    obtain ⟨⟨hdrPage, first⟩, opened, hdr, present, ⟨target, second⟩, fetched, page, reached, freed⟩ := freed
    dsimp only at present reached freed
    subst present reached
    cases freed
    obtain ⟨header, found, owed, both⟩ := borrow_both shelved opened fetched
    have cleared := both.andThen (step_write found fun _ => Bytes.zero)
    have linked := cleared.andThen (step_write found fun data =>
      data.setI32 0 ((second.setData page fun _ => Bytes.zero).pages hdr).data.header.freeListHead)
    have headed := linked.andThen (step_write header fun data => data.setFreeListHead pageId)
    exact ⟨owed, (headed.andThen (step_giveBack true rfl)).andThen (step_giveBack true rfl)⟩

end GuardSession

end HundredDays.PagedStorage
