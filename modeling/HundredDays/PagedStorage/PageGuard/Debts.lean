import HundredDays.PagedStorage.PageGuard.Balance
import HundredDays.PagedStorage.WriteFailures

namespace HundredDays.PagedStorage

open HundredDays.Data HundredDays.Memory HundredDays.Semantics

/-! A page that a marked guard gave up is dirty until it is written back.  An eviction does
not look whether its write succeeded. -/

namespace GuardSession

variable {session after : GuardSession} {guard : Nat} {pageId victim : Int32} {call : GuardCall}

/-- `GetPageId`, of a guard with a page. -/
def pageOf (session : GuardSession) (guard : Nat) : Option Int32 :=
  (session.guard guard).page.map fun frameId => (session.pool.pages frameId).pageId

/-- The pins are those of the guards that have the page and of the others that borrowed it, and each fetch of a guard
is held by one variable or was unpinned once, with the id of the page that was fetched. -/
structure Balanced (session : GuardSession) : Prop where
  pins : ∀ pageId, session.pool.pins pageId =
    references session.scope session.pageOf (some pageId) + session.borrowed.count pageId
  once : ∀ number < session.fetched, holders session.scope session.origin Fetch.number number +
    session.unpins.countP (fun unpin => unpin.1.map Fetch.number = some number) = 1
  hits : ∀ unpin ∈ session.unpins, ∃ fetch, unpin = (some fetch, fetch.pageId)
  pages : ∀ guard, session.pageOf guard = (session.origin guard).map Fetch.pageId

def Settled (session : GuardSession) : Prop :=
  ∀ pageId, session.owed pageId = true → session.pool.dirty pageId = true

/-- The fetch evicts no page that is owed without writing it back. -/
def Spares (session : GuardSession) (pageId : Int32) : Prop :=
  ∀ victim, session.pool.evicts pageId = some victim → session.owed victim = true →
    session.pool.writesBack victim = true

def Safe (session : GuardSession) : GuardCall → Prop
  | .fetch _ pageId => session.Spares pageId
  | .borrow pageId => session.Spares pageId
  | _ => True

theorem Held.balanced (held : session.Held) : session.Balanced := by
  have pages : ∀ guard, session.pageOf guard = (session.origin guard).map Fetch.pageId := by
    intro guard
    rw [pageOf]
    cases has : session.origin guard with
    | none =>
        rw [held.empty guard has]
        rfl
    | some fetch =>
        obtain ⟨_, frameId, value, found⟩ := held.held guard fetch has
        obtain ⟨order, shelved⟩ := held.shelved
        rw [value]
        exact congrArg some ((shelved.table _ _).mp found).2
  refine ⟨fun pageId => ?_, fun number early => ?_, held.hits, pages⟩
  · rw [held.pins, holders, references_congr fun guard _ => pages guard]
  · rw [held.once, if_pos early]

theorem settle_eq_true (still : session.settle victim pageId = true) :
    session.owed pageId = true ∧ ¬ (pageId = victim ∧ session.pool.writesBack victim = true) := by
  rw [settle] at still
  split at still
  next whole =>
    by_cases same : pageId = victim
    · subst same
      rw [Function.update_self] at still
      cases still
    · rw [Function.update_of_ne same] at still
      exact ⟨still, fun both => same both.1⟩
  next failed => exact ⟨still, fun both => failed both.2⟩

theorem settle_kept (owed : session.owed pageId = true)
    (kept : pageId = victim → session.pool.writesBack victim = false) : session.settle victim pageId = true := by
  rw [settle]
  split
  next whole =>
    have differs : pageId ≠ victim := by
      intro same
      rw [kept same] at whole
      cases whole
    rw [Function.update_of_ne differs]
    exact owed
  next => exact owed

namespace Settled

/-- After a fetch everything that is owed is dirty exactly when the eviction spared it. -/
theorem fetchPage_iff {result : Option Nat} (settled : session.Settled) (held : session.Held)
    (fetched : session.fetchPage pageId = some (result, after)) : after.Settled ↔ session.Spares pageId := by
  obtain ⟨order, shelved⟩ := held.shelved
  obtain ⟨⟨page, pool⟩, called, same⟩ := Option.map_eq_some_iff.mp fetched
  cases same
  obtain ⟨null, unchanged, kept⟩ | ⟨frameId, found, brings⟩ := shelved.fetch called
  · subst unchanged
    constructor
    · intro _ victim evicted
      cases kept.symm.trans evicted
    · intro _
      rw [kept]
      exact settled
  · constructor
    · intro clean victim evicted owed
      by_contra failed
      have still := @settle_kept session victim victim owed fun _ => Bool.eq_false_iff.mpr failed
      have dirty := clean victim (by rw [evicted]; exact still)
      rw [BufferPoolManager.dirty_missing (brings.evicted victim evicted).2.2] at dirty
      cases dirty
    · intro spares page owed
      change pool.dirty page = true
      by_cases here : page = pageId
      · subst here
        rw [brings.dirty]
        cases evicted : session.pool.evicts page with
        | none =>
            rw [evicted] at owed
            exact settled page owed
        | some victim =>
            rw [evicted] at owed
            exact settled page (settle_eq_true owed).1
      · cases evicted : session.pool.evicts pageId with
        | none =>
            rw [evicted] at owed
            rw [(brings.others page here (by simp [evicted])).dirty]
            exact settled page owed
        | some victim =>
            rw [evicted] at owed
            obtain ⟨before, left⟩ := settle_eq_true owed
            have apart : page ≠ victim := by
              intro same
              subst same
              exact left ⟨rfl, spares page evicted before⟩
            rw [(brings.others page here (by simp [evicted, Ne.symm apart])).dirty]
            exact settled page before

theorem drop (settled : session.Settled) (held : session.Held) : (session.drop guard).Settled := by
  cases has : session.origin guard with
  | none =>
      rw [held.drop_empty has]
      exact settled
  | some fetch =>
      obtain ⟨_, frameId, _, found⟩ := held.held guard fetch has
      obtain ⟨order, shelved⟩ := held.shelved
      obtain ⟨_, _, _, here, others⟩ := shelved.unpin found fetch.marked
      rw [held.drop_fetched has]
      intro page owed
      change (session.pool.unpinPage fetch.pageId fetch.marked).dirty page = true
      by_cases same : page = fetch.pageId
      · subst same
        rw [here]
        cases marked : fetch.marked with
        | true => rfl
        | false =>
            simp only [marked, Bool.false_eq_true, if_false] at owed
            exact settled fetch.pageId owed
      · rw [(others page same).dirty]
        cases marked : fetch.marked with
        | true =>
            simp only [marked, if_true, Function.update_of_ne same] at owed
            exact settled page owed
        | false =>
            simp only [marked, Bool.false_eq_true, if_false] at owed
            exact settled page owed

/-- One call, from a state in which all that is owed is dirty. -/
theorem step_iff (settled : session.Settled) (held : session.Held) (stepped : session.step call = some after) :
    after.Settled ↔ session.Safe call := by
  cases call with
  | construct guard =>
      simp only [GuardSession.step] at stepped
      split_ifs at stepped
      cases stepped
      exact iff_of_true settled trivial
  | fetch guard pageId =>
      simp only [GuardSession.step] at stepped
      split_ifs at stepped
      obtain ⟨⟨result, next⟩, fetched, same⟩ := Option.map_eq_some_iff.mp stepped
      have spared := settled.fetchPage_iff held fetched
      subst same
      cases result with
      | none => exact spared
      | some frameId => exact spared
  | moveConstruct guard other =>
      simp only [GuardSession.step] at stepped
      split_ifs at stepped
      cases stepped
      exact iff_of_true settled trivial
  | moveAssign guard other =>
      simp only [GuardSession.step] at stepped
      split_ifs at stepped
      · cases stepped
        exact iff_of_true settled trivial
      · cases stepped
        exact iff_of_true (settled.drop held) trivial
  | markDirty guard =>
      simp only [GuardSession.step] at stepped
      split_ifs at stepped
      cases stepped
      exact iff_of_true settled trivial
  | drop guard =>
      simp only [GuardSession.step] at stepped
      split_ifs at stepped
      cases stepped
      exact iff_of_true (settled.drop held) trivial
  | destroy guard =>
      simp only [GuardSession.step] at stepped
      split_ifs at stepped
      cases stepped
      exact iff_of_true (settled.drop held) trivial
  | borrow pageId =>
      obtain ⟨⟨result, next⟩, fetched, same⟩ := Option.map_eq_some_iff.mp stepped
      have spared := settled.fetchPage_iff held fetched
      subst same
      exact spared
  | giveBack pageId isDirty =>
      simp only [GuardSession.step] at stepped
      split_ifs at stepped with listed
      cases stepped
      have counted := List.count_pos_iff.mpr listed
      have pins := held.pins pageId
      obtain ⟨frameId, found⟩ := @BufferPoolManager.found_of_pins session.pool pageId (by omega)
      obtain ⟨order, shelved⟩ := held.shelved
      obtain ⟨_, _, _, here, others⟩ := shelved.unpin found isDirty
      apply iff_of_true _ trivial
      intro page owed
      change (session.pool.unpinPage pageId isDirty).dirty page = true
      by_cases same : page = pageId
      · subst same
        rw [here, settled page owed, Bool.or_true]
      · rw [(others page same).dirty]
        exact settled page owed
  | write pageId data =>
      obtain ⟨frameId, found, same⟩ := Option.map_eq_some_iff.mp stepped
      subst same
      obtain ⟨order, shelved⟩ := held.shelved
      obtain ⟨_, agrees⟩ := shelved.write found data
      apply iff_of_true _ trivial
      intro page owed
      exact (agrees page).dirty.trans (settled page owed)
  | flush pageId =>
      cases stepped
      obtain ⟨order, shelved⟩ := held.shelved
      obtain ⟨_, _, _, _, here, others⟩ := shelved.flush pageId
      apply iff_of_true _ trivial
      intro page owed
      obtain ⟨before, left⟩ := settle_eq_true owed
      change (session.pool.flushPage pageId).dirty page = true
      by_cases same : page = pageId
      · subst same
        have failed : session.pool.writesBack page = false := Bool.eq_false_iff.mpr fun whole => left ⟨rfl, whole⟩
        rw [here, settled page before, failed]
        rfl
      · rw [(others page same).dirty]
        exact settled page before

end Settled

/-! ### From the constructor of the pool on -/

theorem fetchAny_of_fetchPage {pool : BufferPoolManager} {result : Option Nat × BufferPoolManager}
    (missing : pool.pageTable pageId = none) (fetched : pool.fetchPage pageId = some result) :
    pool.fetchAny pageId = some result := by
  simp only [BufferPoolManager.fetchPage, missing] at fetched
  simp only [BufferPoolManager.fetchAny, missing]
  cases took : pool.takeFrame with
  | none =>
      rw [took] at fetched
      exact fetched
  | some pair =>
      rw [took] at fetched
      obtain ⟨data, read, made⟩ := Option.bind_eq_some_iff.mp fetched
      rw [← made]
      simp only [read, Option.getD_some]

theorem created_shelved {fd : File} {capacity : Nat} {pool : BufferPoolManager}
    (created : BufferPoolManager.create fd capacity = some pool) :
    (∃ order, pool.Shelved order) ∧ ∀ pageId, pool.pins pageId = 0 := by
  have blank := (BufferPoolManager.Pooled.blank fd capacity).shelved
  have unpinned : ∀ pageId, (BufferPoolManager.blank fd capacity).pins pageId = 0 := fun _ => rfl
  by_cases new : fd.size = 0
  · rw [BufferPoolManager.create, if_pos new] at created
    obtain ⟨⟨hdrPage, fetched⟩, called, created⟩ := Option.bind_eq_some_iff.mp created
    obtain ⟨hdr, present, created⟩ := Option.bind_eq_some_iff.mp created
    cases present
    cases created
    obtain ⟨null, _⟩ | ⟨frameId, same, brings⟩ := blank.fetch (fetchAny_of_fetchPage rfl called)
    · cases null
    · cases same
      obtain ⟨order, shelved⟩ := brings.shelved
      obtain ⟨headed, agrees⟩ := shelved.write brings.found (((((fetched.pages hdr).data.setPageSize
        (UInt32.ofNat pageSize)).setTotalPages 1).setFreeListHead (-1)))
      obtain ⟨unpin, _, here, _, others⟩ := headed.unpin ((agrees 0).table.trans brings.found) true
      obtain ⟨flushed, _, _, kept, _, elsewhere⟩ := unpin.flush 0
      refine ⟨⟨_, flushed⟩, fun pageId => ?_⟩
      have pins := brings.pins_eq pageId
      rw [unpinned] at pins
      by_cases header : pageId = 0
      · subst header
        rw [if_pos rfl] at pins
        refine kept.trans ?_
        rw [here, (agrees 0).pins, pins]
      · rw [if_neg header] at pins
        exact (elsewhere pageId header).pins.trans ((others pageId header).pins.trans ((agrees pageId).pins.trans pins))
  · rw [BufferPoolManager.create, if_neg new] at created
    cases created
    exact ⟨⟨_, blank⟩, unpinned⟩

theorem start_held {fd : File} {capacity : Nat} {pool : BufferPoolManager}
    (created : BufferPoolManager.create fd capacity = some pool) : (start pool).Held := by
  obtain ⟨shelved, unpinned⟩ := created_shelved created
  exact ⟨shelved, fun _ _ => rfl, by simp [start], fun pageId => unpinned pageId, fun _ => rfl, by simp [start]⟩

/-- In every run whose evictions spare what is owed the pins are balanced and everything that is owed is dirty, and so
after the next call exactly when its eviction spares what is owed. -/
theorem guards_balanced (fd : File) (capacity : Nat) (pool : BufferPoolManager) (calls : List GuardCall)
    (session : GuardSession) (created : BufferPoolManager.create fd capacity = some pool)
    (safe : Meets step Safe (start pool) calls) (completed : run step (start pool) calls = some session) :
    session.Balanced ∧ session.Settled ∧ ∀ call after, session.step call = some after →
      (after.Balanced ∧ after.Settled ↔ session.Safe call) := by
  have initial : (start pool).Held ∧ (start pool).Settled := ⟨start_held created, by simp [Settled, start]⟩
  obtain ⟨held, settled⟩ := run_invariant_meeting (fun session : GuardSession => session.Held ∧ session.Settled)
    (fun session call after kept met stepped =>
      ⟨kept.1.step session call after stepped, (kept.2.step_iff kept.1 stepped).mpr met⟩) initial safe completed
  refine ⟨held.balanced, settled, fun call after stepped => ?_⟩
  rw [← settled.step_iff held stepped]
  exact and_iff_right (held.step session call after stepped).balanced

/-- A guard is marked and goes out of scope. -/
def giveUpMarked : List GuardCall := [.fetch 0 1, .markDirty 0, .destroy 0]

theorem guards_balanced_one_page : ∃ pool session,
    BufferPoolManager.create (File.empty fun _ => pageSize) 2 = some pool ∧
      run step (start pool) giveUpMarked = some session ∧ session.Balanced ∧ session.Settled ∧
      ∀ call after, session.step call = some after → (after.Balanced ∧ after.Settled ↔ session.Safe call) := by
  have completes : ((BufferPoolManager.create (File.empty fun _ => pageSize) 2).bind fun pool =>
      if pool.evicts 1 = none then run step (start pool) giveUpMarked else none).isSome = true := by
    decide +kernel
  obtain ⟨session, both⟩ := Option.isSome_iff_exists.mp completes
  obtain ⟨pool, created, both⟩ := Option.bind_eq_some_iff.mp both
  obtain ⟨room, completed⟩ := Option.ite_none_right_eq_some.mp both
  have safe : Meets step Safe (start pool) giveUpMarked := by
    refine ⟨fun victim evicted => ?_, fun _ _ => ⟨trivial, fun _ _ => ⟨trivial, fun _ _ => trivial⟩⟩⟩
    cases room.symm.trans evicted
  exact ⟨pool, session, created, completed, guards_balanced _ 2 pool giveUpMarked session created safe completed⟩

/-- On a disk that takes no more the eviction loses the mark: the page is neither dirty nor was it written. -/
theorem marked_page_lost : ∃ pool session, BufferPoolManager.create fullDisk 1 = some pool ∧
    run step (start pool) (giveUpMarked ++ [.fetch 0 2]) = some session ∧ session.owed 1 = true ∧
      session.pool.pageTable 1 = none ∧ session.pool.pwriteCount = 1 ∧ ¬ session.Settled := by
  have loses : ((BufferPoolManager.create fullDisk 1).bind fun pool =>
      (run step (start pool) (giveUpMarked ++ [.fetch 0 2])).filter fun session =>
        session.owed 1 = true ∧ session.pool.pageTable 1 = none ∧ session.pool.pwriteCount = 1).isSome = true := by
    decide +kernel
  obtain ⟨session, both⟩ := Option.isSome_iff_exists.mp loses
  obtain ⟨pool, created, both⟩ := Option.bind_eq_some_iff.mp both
  obtain ⟨completed, lost⟩ := Option.filter_eq_some_iff.mp both
  obtain ⟨owing, missing, written⟩ := of_decide_eq_true lost
  refine ⟨pool, session, created, completed, owing, missing, written, fun settled => ?_⟩
  have dirty := settled 1 owing
  rw [BufferPoolManager.dirty_missing missing] at dirty
  cases dirty

end GuardSession

end HundredDays.PagedStorage
