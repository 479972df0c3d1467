import HundredDays.PagedStorage.PageGuard.Shelves
import HundredDays.Semantics.Run

namespace HundredDays.PagedStorage

open HundredDays.Data HundredDays.Memory HundredDays.Semantics

/-! The pins of a page are its guards and what others have borrowed. -/

/-! ### Counting variables -/

variable {α : Type*} [DecidableEq α] {scope : Finset Nat} {origin : Nat → Option Fetch} {guard other : Nat}
  {key : Fetch → α} {value : α} {fetch : Option Fetch}

/-- How many variables have a fetch with this key. -/
def holders (scope : Finset Nat) (origin : Nat → Option Fetch) (key : Fetch → α) (value : α) : Nat :=
  references scope (fun guard => (origin guard).map key) (some value)

omit [DecidableEq α] in
theorem map_update (guard : Nat) (fetch : Option Fetch) :
    (fun other => (Function.update origin guard fetch other).map key) =
      Function.update (fun other => (origin other).map key) guard (fetch.map key) := by
  funext other
  by_cases same : other = guard
  · subst same
    simp
  · simp [same]

theorem holders_insert (fresh : guard ∉ scope) :
    holders (insert guard scope) (Function.update origin guard fetch) key value =
      holders scope origin key value + if fetch.map key = some value then 1 else 0 := by
  rw [holders, map_update, references_insert_update fresh, holders]

theorem holders_update (member : guard ∈ scope) :
    holders scope (Function.update origin guard fetch) key value +
        (if (origin guard).map key = some value then 1 else 0) =
      holders scope origin key value + if fetch.map key = some value then 1 else 0 := by
  rw [holders, map_update, holders]
  exact references_update member (fetch.map key)

/-- A variable gives up its fetch. -/
theorem holders_give {given : Fetch} (member : guard ∈ scope) (has : origin guard = some given) :
    holders scope (Function.update origin guard none) key value + (if key given = value then 1 else 0) =
      holders scope origin key value := by
  have counted : holders scope (Function.update origin guard none) key value + _ = _ := holders_update member
  simpa [has] using counted

/-- Marking a fetch changes neither its number nor its page. -/
theorem holders_mark (member : guard ∈ scope) (blind : ∀ fetch : Fetch, key { fetch with marked := true } = key fetch) :
    holders scope (Function.update origin guard
      ((origin guard).map fun fetch => { fetch with marked := true })) key value = holders scope origin key value := by
  have counted : holders scope (Function.update origin guard
    ((origin guard).map fun fetch => { fetch with marked := true })) key value + _ = _ := holders_update member
  have kept : ((origin guard).map fun fetch => { fetch with marked := true }).map key = (origin guard).map key := by
    cases origin guard with
    | none => rfl
    | some fetch => exact congrArg some (blind fetch)
  rw [kept] at counted
  exact Nat.add_right_cancel counted

theorem holders_erase (empty : origin guard = none) :
    holders (scope.erase guard) origin key value = holders scope origin key value := by
  by_cases member : guard ∈ scope
  · have counted : references (scope.erase guard) (fun guard => (origin guard).map key) (some value) + _ = _ :=
      references_erase member
    rw [empty, Option.map_none, if_neg (by simp), Nat.add_zero] at counted
    exact counted
  · rw [Finset.erase_eq_of_notMem member]

/-- Nothing is counted twice when a fetch goes from one variable to another. -/
theorem holders_transfer (member : guard ∈ scope) (listed : other ∈ scope) (apart : guard ≠ other)
    (empty : origin guard = none) :
    holders scope (Function.update (Function.update origin guard (origin other)) other none) key value =
      holders scope origin key value := by
  have first : holders scope (Function.update origin guard (origin other)) key value + _ = _ := holders_update member
  have second : holders scope (Function.update (Function.update origin guard (origin other)) other none) key value +
      _ = _ := holders_update listed
  rw [empty, Option.map_none, if_neg (by simp)] at first
  rw [Function.update_of_ne (Ne.symm apart), Option.map_none, if_neg (by simp : ¬ none = some value)] at second
  omega

namespace GuardSession

variable {session after : GuardSession} {pool : BufferPoolManager} {pageId : Int32} {frameId : Nat}

/-- The guards with a page have it from a fetch, whose page is pinned for them. -/
structure Held (session : GuardSession) : Prop where
  shelved : ∃ order, session.pool.Shelved order
  empty : ∀ guard, session.origin guard = none → (session.guard guard).page = none
  held : ∀ guard fetch, session.origin guard = some fetch → guard ∈ session.scope ∧
    ∃ frameId, session.guard guard = ⟨true, some frameId, fetch.marked⟩ ∧
      session.pool.pageTable fetch.pageId = some frameId
  pins : ∀ pageId, session.pool.pins pageId =
    holders session.scope session.origin Fetch.pageId pageId + session.borrowed.count pageId
  once : ∀ number, holders session.scope session.origin Fetch.number number +
    session.unpins.countP (fun unpin => unpin.1.map Fetch.number = some number) =
      if number < session.fetched then 1 else 0
  hits : ∀ unpin ∈ session.unpins, ∃ fetch, unpin = (some fetch, fetch.pageId)

namespace Held

theorem pinned {fetch : Fetch} (held : session.Held) (has : session.origin guard = some fetch) :
    0 < session.pool.pins fetch.pageId := by
  have counted : 0 < holders session.scope session.origin Fetch.pageId fetch.pageId :=
    references_pos.mpr ⟨guard, (held.held guard fetch has).1, by rw [has]; rfl⟩
  rw [held.pins]
  omega

/-- The pool changes, and what others have borrowed. -/
theorem replace (held : session.Held) {order : List Nat} {borrowed : List Int32} (owed : Int32 → Bool)
    (shelved : pool.Shelved order)
    (tables : ∀ pageId, 0 < session.pool.pins pageId → pool.pageTable pageId = session.pool.pageTable pageId)
    (pins : ∀ pageId, pool.pins pageId + session.borrowed.count pageId =
      session.pool.pins pageId + borrowed.count pageId) :
    Held { session with pool, borrowed, owed } := by
  refine ⟨⟨order, shelved⟩, held.empty, fun guard fetch has => ?_, fun pageId => ?_, held.once, held.hits⟩
  · obtain ⟨member, frameId, value, found⟩ := held.held guard fetch has
    exact ⟨member, frameId, value, (tables fetch.pageId (held.pinned has)).trans found⟩
  · have before := held.pins pageId
    have moved := pins pageId
    change pool.pins pageId = holders session.scope session.origin Fetch.pageId pageId + borrowed.count pageId
    omega

theorem declare_empty (held : session.Held) (fresh : guard ∉ session.scope) {value : PageGuard}
    (without : value.page = none) : (session.declare guard value none).Held := by
  refine ⟨held.shelved, fun other none => ?_, fun other fetch has => ?_, fun pageId => ?_, fun number => ?_, held.hits⟩
  · by_cases same : other = guard
    · subst same
      exact (congrArg PageGuard.page (Function.update_self ..)).trans without
    · have before := held.empty other ((Function.update_of_ne same _ _).symm.trans none)
      exact (congrArg PageGuard.page (Function.update_of_ne same _ _)).trans before
  · have differs : other ≠ guard := by
      intro same
      subst same
      cases (Function.update_self ..).symm.trans has
    obtain ⟨member, frameId, kept, found⟩ := held.held other fetch ((Function.update_of_ne differs _ _).symm.trans has)
    exact ⟨Finset.mem_insert_of_mem member, frameId, (Function.update_of_ne differs _ _).trans kept, found⟩
  · change _ = holders (insert guard session.scope) (Function.update session.origin guard none) _ _ + _
    rw [holders_insert fresh]
    exact held.pins pageId
  · change holders (insert guard session.scope) (Function.update session.origin guard none) _ _ + _ = _
    rw [holders_insert fresh]
    exact held.once number

theorem transfer (held : session.Held) (member : guard ∈ session.scope) (listed : other ∈ session.scope)
    (apart : guard ≠ other) (empty : session.origin guard = none) : (session.transfer guard other).Held := by
  have origins : (session.transfer guard other).origin guard = session.origin other := by
    rw [GuardSession.transfer]
    simp only [Function.update_of_ne apart, Function.update_self]
  have values : (session.transfer guard other).guard guard = session.guard other := by
    rw [GuardSession.transfer]
    simp only [Function.update_of_ne apart, Function.update_self]
  have elsewhere : ∀ each, each ≠ guard → each ≠ other →
      (session.transfer guard other).origin each = session.origin each ∧
        (session.transfer guard other).guard each = session.guard each := by
    intro each first second
    rw [GuardSession.transfer]
    simp only [Function.update_of_ne second, Function.update_of_ne first, and_self]
  have left : (session.transfer guard other).origin other = none := Function.update_self ..
  have bare : (session.transfer guard other).guard other = .empty := Function.update_self ..
  refine ⟨held.shelved, fun each none => ?_, fun each fetch has => ?_, fun pageId => ?_, fun number => ?_, held.hits⟩
  · by_cases second : each = other
    · rw [second, bare]
      rfl
    · by_cases first : each = guard
      · subst first
        rw [values]
        exact held.empty other (origins.symm.trans none)
      · rw [(elsewhere each first second).2]
        exact held.empty each ((elsewhere each first second).1.symm.trans none)
  · by_cases second : each = other
    · subst second
      cases left.symm.trans has
    · by_cases first : each = guard
      · subst first
        obtain ⟨_, kept⟩ := held.held other fetch (origins.symm.trans has)
        rw [values]
        exact ⟨member, kept⟩
      · rw [(elsewhere each first second).2]
        exact held.held each fetch ((elsewhere each first second).1.symm.trans has)
  · change _ = holders session.scope _ _ _ + _
    rw [GuardSession.transfer, holders_transfer member listed apart empty]
    exact held.pins pageId
  · change holders session.scope _ _ _ + _ = _
    rw [GuardSession.transfer, holders_transfer member listed apart empty]
    exact held.once number

/-- Dropping an empty guard does nothing. -/
theorem drop_empty (held : session.Held) (empty : session.origin guard = none) : session.drop guard = session := by
  simp only [GuardSession.drop, PageGuard.drop, held.empty guard empty, Function.update_eq_self]

theorem drop_fetched {fetch : Fetch} (held : session.Held) (has : session.origin guard = some fetch) :
    session.drop guard = { session with
      pool := session.pool.unpinPage fetch.pageId fetch.marked
      guard := Function.update session.guard guard .empty
      origin := Function.update session.origin guard none
      unpins := (some fetch, fetch.pageId) :: session.unpins
      owed := if fetch.marked then Function.update session.owed fetch.pageId true else session.owed } := by
  obtain ⟨_, frameId, value, found⟩ := held.held guard fetch has
  obtain ⟨order, shelved⟩ := held.shelved
  have label := ((shelved.table _ _).mp found).2
  simp only [GuardSession.drop, PageGuard.drop, value, has, if_true, label]

theorem drop (held : session.Held) (member : guard ∈ session.scope) :
    (session.drop guard).Held ∧ (session.drop guard).origin guard = none ∧
      (session.drop guard).scope = session.scope := by
  cases has : session.origin guard with
  | none =>
      rw [held.drop_empty has]
      exact ⟨held, has, rfl⟩
  | some fetch =>
      obtain ⟨_, frameId, value, found⟩ := held.held guard fetch has
      obtain ⟨order, shelved⟩ := held.shelved
      obtain ⟨kept, table, here, _, others⟩ := shelved.unpin found fetch.marked
      have pinned := held.pinned has
      rw [held.drop_fetched has]
      refine ⟨⟨⟨order, kept⟩, fun other none => ?_, fun other each got => ?_, fun pageId => ?_, fun number => ?_, ?_⟩,
        Function.update_self .., rfl⟩
      · by_cases same : other = guard
        · subst same
          simp only [Function.update_self, PageGuard.empty]
        · have before := held.empty other ((Function.update_of_ne same _ _).symm.trans none)
          exact (congrArg PageGuard.page (Function.update_of_ne same _ _)).trans before
      · have differs : other ≠ guard := by
          intro same
          subst same
          cases (Function.update_self ..).symm.trans got
        obtain ⟨listed, otherFrame, keptValue, foundOther⟩ :=
          held.held other each ((Function.update_of_ne differs _ _).symm.trans got)
        exact ⟨listed, otherFrame, (Function.update_of_ne differs _ _).trans keptValue, table ▸ foundOther⟩
      · have counted : holders session.scope (Function.update session.origin guard none) Fetch.pageId pageId + _ = _ :=
          holders_give member has
        have before := held.pins pageId
        change (session.pool.unpinPage fetch.pageId fetch.marked).pins pageId =
          holders session.scope (Function.update session.origin guard none) Fetch.pageId pageId +
            session.borrowed.count pageId
        by_cases same : fetch.pageId = pageId
        · subst same
          rw [if_pos rfl] at counted
          omega
        · rw [if_neg same] at counted
          rw [(others pageId (Ne.symm same)).pins]
          omega
      · have counted : holders session.scope (Function.update session.origin guard none) Fetch.number number + _ = _ :=
          holders_give member has
        rw [← held.once number, List.countP_cons]
        simp only [Option.map_some, Option.some.injEq, decide_eq_true_eq]
        omega
      · intro unpin listed
        cases List.mem_cons.mp listed with
        | inl newest => exact ⟨fetch, newest⟩
        | inr earlier => exact held.hits unpin earlier

/-- A variable that is empty goes out of scope. -/
theorem forget (held : session.Held) (empty : session.origin guard = none) :
    Held { session with scope := session.scope.erase guard } := by
  refine ⟨held.shelved, held.empty, fun other fetch has => ?_, fun pageId => ?_, fun number => ?_, held.hits⟩
  · have differs : other ≠ guard := by
      intro same
      subst same
      cases empty.symm.trans has
    obtain ⟨member, kept⟩ := held.held other fetch has
    exact ⟨Finset.mem_erase.mpr ⟨differs, member⟩, kept⟩
  · change _ = holders (session.scope.erase guard) session.origin _ _ + _
    rw [holders_erase empty]
    exact held.pins pageId
  · change holders (session.scope.erase guard) session.origin _ _ + _ = _
    rw [holders_erase empty]
    exact held.once number

theorem markDirty (held : session.Held) (member : guard ∈ session.scope) :
    Held { session with
      guard := Function.update session.guard guard { session.guard guard with isDirty := true }
      origin := Function.update session.origin guard
        ((session.origin guard).map fun fetch => { fetch with marked := true }) } := by
  refine ⟨held.shelved, fun other none => ?_, fun other fetch has => ?_, fun pageId => ?_, fun number => ?_, held.hits⟩
  · by_cases here : other = guard
    · subst here
      simp only [Function.update_self, Option.map_eq_none_iff] at none
      simp only [Function.update_self, held.empty other none]
    · have before := held.empty other ((Function.update_of_ne here _ _).symm.trans none)
      exact (congrArg PageGuard.page (Function.update_of_ne here _ _)).trans before
  · by_cases here : other = guard
    · subst here
      simp only [Function.update_self, Option.map_eq_some_iff] at has
      obtain ⟨before, had, made⟩ := has
      subst made
      obtain ⟨listed, frameId, value, found⟩ := held.held other before had
      refine ⟨listed, frameId, ?_, found⟩
      simp only [Function.update_self, value]
    · obtain ⟨listed, frameId, value, found⟩ := held.held other fetch ((Function.update_of_ne here _ _).symm.trans has)
      exact ⟨listed, frameId, (Function.update_of_ne here _ _).trans value, found⟩
  · change _ = holders session.scope _ _ _ + _
    rw [holders_mark member fun _ => rfl]
    exact held.pins pageId
  · change holders session.scope _ _ _ + _ = _
    rw [holders_mark member fun _ => rfl]
    exact held.once number

theorem fetchPage {result : Option Nat} (held : session.Held) (fetched : session.fetchPage pageId = some (result, after)) :
    (result = none ∧ after = session ∧ session.pool.evicts pageId = none) ∨
      ∃ frameId pool owed, result = some frameId ∧ after = { session with pool, owed } ∧
        session.pool.Brings pool pageId frameId := by
  obtain ⟨order, shelved⟩ := held.shelved
  obtain ⟨⟨page, pool⟩, called, same⟩ := Option.map_eq_some_iff.mp fetched
  cases same
  obtain ⟨null, unchanged, kept⟩ | ⟨frameId, found, brings⟩ := shelved.fetch called
  · refine .inl ⟨null, ?_, kept⟩
    rw [kept, unchanged]
  · exact .inr ⟨frameId, pool, _, found, rfl, brings⟩

/-- Someone has the page that was fetched. -/
theorem brings (held : session.Held) (owed : Int32 → Bool) (brings : session.pool.Brings pool pageId frameId) :
    Held { session with pool, borrowed := pageId :: session.borrowed, owed } := by
  obtain ⟨order, shelved⟩ := brings.shelved
  apply held.replace owed shelved fun page pinned => brings.table_eq pinned
  intro page
  have more := brings.pins_eq page
  rw [List.count_cons]
  simp only [beq_iff_eq, eq_comm (a := pageId)]
  omega

/-- A guard takes what was fetched. -/
theorem adopt (held : Held { session with borrowed := pageId :: session.borrowed }) (fresh : guard ∉ session.scope)
    (found : session.pool.pageTable pageId = some frameId) :
    Held ({ session with fetched := session.fetched + 1 }.declare guard ⟨true, some frameId, false⟩
      (some ⟨session.fetched, pageId, false⟩)) := by
  obtain ⟨shelved, empty, taken, pins, once, hits⟩ := held
  refine ⟨shelved, fun other none => ?_, fun other fetch has => ?_, fun page => ?_, fun number => ?_, hits⟩
  · have differs : other ≠ guard := by
      intro same
      subst same
      cases (Function.update_self ..).symm.trans none
    have before := empty other ((Function.update_of_ne differs _ _).symm.trans none)
    exact (congrArg PageGuard.page (Function.update_of_ne differs _ _)).trans before
  · by_cases same : other = guard
    · subst same
      cases (Function.update_self ..).symm.trans has
      exact ⟨Finset.mem_insert_self .., frameId, Function.update_self .., found⟩
    · obtain ⟨member, frame, value, there⟩ := taken other fetch ((Function.update_of_ne same _ _).symm.trans has)
      exact ⟨Finset.mem_insert_of_mem member, frame, (Function.update_of_ne same _ _).trans value, there⟩
  · have before : session.pool.pins page = holders session.scope session.origin Fetch.pageId page +
        (pageId :: session.borrowed).count page := pins page
    change session.pool.pins page =
      holders (insert guard session.scope) (Function.update session.origin guard _) Fetch.pageId page +
        session.borrowed.count page
    rw [holders_insert fresh, before, List.count_cons]
    simp only [Option.map_some, Option.some.injEq, beq_iff_eq]
    omega
  · have before : holders session.scope session.origin Fetch.number number +
        session.unpins.countP (fun unpin => unpin.1.map Fetch.number = some number) =
          if number < session.fetched then 1 else 0 := once number
    change holders (insert guard session.scope) (Function.update session.origin guard _) Fetch.number number +
      session.unpins.countP (fun unpin => unpin.1.map Fetch.number = some number) =
        if number < session.fetched + 1 then 1 else 0
    rw [holders_insert fresh]
    simp only [Option.map_some, Option.some.injEq]
    split_ifs at before ⊢ <;> omega

/-- Everything that holds of the pins is kept by every call. -/
theorem step (session : GuardSession) (call : GuardCall) (after : GuardSession) (held : session.Held)
    (stepped : session.step call = some after) : after.Held := by
  cases call with
  | construct guard =>
      simp only [GuardSession.step] at stepped
      split_ifs at stepped with present
      cases stepped
      exact held.declare_empty present rfl
  | fetch guard pageId =>
      simp only [GuardSession.step] at stepped
      split_ifs at stepped with present
      obtain ⟨⟨result, next⟩, fetched, same⟩ := Option.map_eq_some_iff.mp stepped
      obtain ⟨null, unchanged, _⟩ | ⟨frameId, pool, owed, found, made, brings⟩ := held.fetchPage fetched
      · subst null unchanged same
        exact held.declare_empty present rfl
      · subst found made same
        exact (held.brings owed brings).adopt present brings.found
  | moveConstruct guard other =>
      simp only [GuardSession.step] at stepped
      split_ifs at stepped with misused
      cases stepped
      obtain ⟨fresh, present⟩ := not_or.mp misused
      have listed := not_not.mp present
      have apart : guard ≠ other := fun same => fresh (same ▸ listed)
      exact (held.declare_empty fresh rfl).transfer (Finset.mem_insert_self ..) (Finset.mem_insert_of_mem listed) apart
        (Function.update_self ..)
  | moveAssign guard other =>
      simp only [GuardSession.step] at stepped
      split_ifs at stepped with misused same
      · cases stepped
        exact held
      · cases stepped
        obtain ⟨present, listed⟩ := not_or.mp misused
        obtain ⟨dropped, empty, scope⟩ := held.drop (not_not.mp present)
        exact dropped.transfer (scope ▸ not_not.mp present) (scope ▸ not_not.mp listed) same empty
  | markDirty guard =>
      simp only [GuardSession.step] at stepped
      split_ifs at stepped with present
      cases stepped
      exact held.markDirty (present)
  | drop guard =>
      simp only [GuardSession.step] at stepped
      split_ifs at stepped with present
      cases stepped
      exact (held.drop (present)).1
  | destroy guard =>
      simp only [GuardSession.step] at stepped
      split_ifs at stepped with present
      cases stepped
      obtain ⟨dropped, empty, _⟩ := held.drop (present)
      exact dropped.forget empty
  | borrow pageId =>
      obtain ⟨⟨result, next⟩, fetched, same⟩ := Option.map_eq_some_iff.mp stepped
      obtain ⟨null, unchanged, _⟩ | ⟨frameId, pool, owed, found, made, brings⟩ := held.fetchPage fetched
      · subst null unchanged same
        exact held
      · subst found made same
        exact held.brings owed brings
  | giveBack pageId isDirty =>
      simp only [GuardSession.step] at stepped
      split_ifs at stepped with listed
      cases stepped
      have counted := List.count_pos_iff.mpr listed
      have pins := held.pins pageId
      obtain ⟨frameId, found⟩ := @BufferPoolManager.found_of_pins session.pool pageId (by omega)
      obtain ⟨order, shelved⟩ := held.shelved
      obtain ⟨kept, table, here, _, others⟩ := shelved.unpin found isDirty
      apply held.replace session.owed kept fun page _ => congrFun table page
      intro page
      by_cases same : page = pageId
      · subst same
        rw [here, List.count_erase_self]
        omega
      · rw [(others page same).pins, List.count_erase_of_ne same]
  | write pageId data =>
      obtain ⟨frameId, found, same⟩ := Option.map_eq_some_iff.mp stepped
      subst same
      obtain ⟨order, shelved⟩ := held.shelved
      obtain ⟨kept, agrees⟩ := shelved.write found data
      apply held.replace session.owed kept fun page _ => (agrees page).table
      intro page
      rw [(agrees page).pins]
  | flush pageId =>
      cases stepped
      obtain ⟨order, shelved⟩ := held.shelved
      obtain ⟨kept, table, _, here, _, others⟩ := shelved.flush pageId
      apply held.replace (session.settle pageId) kept fun page _ => congrFun table page
      intro page
      by_cases same : page = pageId
      · subst same
        rw [here]
      · rw [(others page same).pins]

end Held

end GuardSession

end HundredDays.PagedStorage
