import HundredDays.SsoString.CModel
import HundredDays.SsoString.Ownership

namespace HundredDays.SsoString

open HundredDays.Memory

/-! What the C functions do to the object they are about, when a request may fail. -/

variable {heap : Tracked} {ss src : TaggedUnion} {junk : Nat → UInt8} {str : CString} {grant : Grant}
  {pointer : Addr} {block : Block} {blocks : Blocks} {text bytes : List UInt8} {size offset : Nat}

/-- Addresses the allocator may answer with, once the object has given back its own buffer. -/
def Offers (blocks : Blocks) (ss : TaggedUnion) (grant : Grant) : Prop :=
  ∀ pointer junk, grant = some (pointer, junk) →
    0 < pointer ∧ pointer < 2 ^ 64 ∧ (blocks pointer = none ∨ ss.Owns pointer)

theorem trackedMalloc_granted (junk : Nat → UInt8) (fresh : heap.blocks pointer = none) (narrow : size < 2 ^ 64) :
    ∃ after, trackedMalloc heap (some (pointer, junk)) size = some (some pointer, after) ∧
      after.blocks = Function.update heap.blocks pointer (some ⟨size, junk⟩) := by
  have completes : trackedMalloc heap (some (pointer, junk)) size = some (some pointer, { heap with
      blocks := Function.update heap.blocks pointer (some ⟨size, junk⟩)
      mallocCount := heap.mallocCount + 1 }) := by
    rw [trackedMalloc, Blocks.malloc_fresh fresh, Nat.mod_eq_of_lt narrow]
    rfl
  exact ⟨_, completes, rfl⟩

theorem Tracked.memcpy_live (live : heap.blocks pointer = some block) (inside : offset + bytes.length ≤ block.size) :
    ∃ after, heap.memcpy pointer offset bytes = some after ∧
      after.blocks = Function.update heap.blocks pointer
        (some { block with byte := overwrite block.byte offset bytes }) := by
  have completes := congrArg (Option.map fun blocks => { heap with blocks })
    (Blocks.write_live live inside)
  exact ⟨_, completes, rfl⟩

theorem Tracked.memcpy_granted (granted : heap.blocks = Function.update blocks pointer (some block))
    (inside : offset + bytes.length ≤ block.size) :
    ∃ after, heap.memcpy pointer offset bytes = some after ∧
      after.blocks = Function.update blocks pointer (some { block with byte := overwrite block.byte offset bytes }) := by
  have live : heap.blocks pointer = some block := by rw [granted, Function.update_self]
  obtain ⟨after, copied, became⟩ := memcpy_live live inside
  exact ⟨after, copied, by rw [became, granted, Function.update_idem]⟩

/-- A call returned NULL and changed nothing, or the object has become the text. -/
inductive Outcome (was : TaggedUnion) (heap : Tracked) (text : List UInt8) : Bool × TaggedUnion × Tracked → Prop
  | refused (after : Tracked) (same : after.blocks = heap.blocks) : Outcome was heap text (false, was, after)
  | done (ss : TaggedUnion) (after : Tracked) (denotes : Denotes ssoStackBufferCap after.blocks ss text)
      (replaced : Replaced (some was) (some ss) heap.blocks after.blocks) : Outcome was heap text (true, ss, after)

theorem ssoFree_effect (denotes : Denotes ssoStackBufferCap heap.blocks ss text) :
    ∃ freed after, ssoFree ss heap = some (freed, after) ∧ freed.isLong = false ∧
      Denotes ssoStackBufferCap after.blocks freed [] ∧ Replaced (some ss) none heap.blocks after.blocks := by
  cases denotes with
  | stack short =>
      have completes : ssoFree ss heap =
          some (⟨false, Function.update (ss.setStackSize ssoStackBufferCap 0).storage 0 0⟩, heap) := by
        simp only [ssoFree, short, Bool.false_eq_true, if_false]
      refine ⟨_, heap, completes, rfl, .emptied rfl ?_ ?_,
        .keep fun place => iff_of_false ownedAt_none (not_ownedAt short place)⟩
      · simp [TaggedUnion.setStackSize, ssoStackBufferCap]
      · simp
  | heap pointer block long _ leads live =>
      have freed : trackedFree heap ss.heapPtr = some { heap with
          blocks := Function.update heap.blocks pointer none
          freeCount := heap.freeCount + 1 } := by
        simp [trackedFree, leads, Blocks.free_live live]
      have completes : ssoFree ss heap =
          some ((((ss.setHeapPtr none).setHeapSize 0).setHeapCapacity 0).setLong false, { heap with
            blocks := Function.update heap.blocks pointer none
            freeCount := heap.freeCount + 1 }) := by
        simp only [ssoFree, long, if_true, freed, Option.bind_eq_bind, Option.bind_some]
      refine ⟨_, _, completes, rfl, .emptied rfl ?_ ?_, .destroyed (ownedAt_iff long leads)⟩
      · -- the size byte of the stack layout is the last of the size of the heap layout
        simp only [TaggedUnion.setLong, TaggedUnion.setHeapCapacity, TaggedUnion.setHeapSize, ssoStackBufferCap]
        rw [storeSize_outside (by omega), storeSize_zero (by omega)]
      · simp only [TaggedUnion.setLong, TaggedUnion.setHeapCapacity, TaggedUnion.setHeapSize, TaggedUnion.setHeapPtr]
        rw [storeSize_outside (by omega), storeSize_outside (by omega), storePointer_none (by omega)]

/-- A string moves into a buffer just granted, which was filled. -/
theorem Denotes.housed {capacity : Nat} (long : ss.isLong = true) (leads : ss.heapPtr = some pointer)
    (sized : ss.heapSize = text.length) (capacious : ss.heapCapacity = capacity)
    (beyond : ssoStackBufferCap < text.length) (room : text.length ≤ capacity) (narrow : capacity + 1 < 2 ^ 64)
    (live : blocks pointer = some ⟨capacity + 1, junk⟩) (contains : Contains junk (text ++ [0])) :
    Denotes ssoStackBufferCap blocks ss text :=
  .heap pointer _ long beyond leads live sized (by rwa [capacious]) (by rw [capacious]) (by rwa [capacious]) contains

theorem ssoFill_effect (valid : Offers heap.blocks zeroed grant)
    (granted : str.strlen ≤ ssoStackBufferCap ∨ grant ≠ none) :
    ∃ filled after, ssoFill str grant heap = some (true, filled, after) ∧
      Denotes ssoStackBufferCap after.blocks filled str.bytes ∧
      Replaced none (some filled) heap.blocks after.blocks := by
  by_cases short : str.strlen ≤ ssoStackBufferCap
  · obtain ⟨copied, written, mode, became⟩ := Denotes.inlined (zeroed.setLong false) heap.blocks str rfl short
      (by decide)
    refine ⟨copied, heap, by simp [ssoFill, short, written], became, .keep fun place => ?_⟩
    exact iff_of_false (not_ownedAt mode place) ownedAt_none
  · obtain ⟨⟨pointer, junk⟩, rfl⟩ := Option.ne_none_iff_exists'.mp (granted.resolve_left short)
    obtain ⟨positive, below, free⟩ := valid pointer junk rfl
    have fresh : heap.blocks pointer = none := free.resolve_right fun owns => by simp [zeroed, TaggedUnion.Owns] at owns
    have narrow : str.strlen + 1 < 2 ^ 64 := str.fits
    obtain ⟨mid, requested, got⟩ := trackedMalloc_granted junk fresh narrow
    have inside : 0 + str.terminated.length ≤ str.strlen + 1 := by simp [CString.terminated, CString.strlen]
    obtain ⟨after, copied, became⟩ := Tracked.memcpy_granted got inside
    let filled := (((zeroed.setLong true).setHeapPtr (some pointer)).setHeapSize str.strlen).setHeapCapacity str.strlen
    have mode : filled.isLong = true := rfl
    have leads : filled.heapPtr = some pointer := by
      simp only [filled, heapPtr_setHeapCapacity, heapPtr_setHeapSize]
      exact heapPtr_setHeapPtr positive below
    have completes : ssoFill str (some (pointer, junk)) heap = some (true, filled, after) := by
      simp only [ssoFill, if_neg short, requested, Option.bind_eq_bind, Option.bind_some, copied]
      rfl
    refine ⟨filled, after, completes, .housed mode leads ?_ ?_ (not_le.mp short) le_rfl narrow
      (by rw [became, Function.update_self]; rfl) contains_overwrite, ?_⟩
    · rw [heapSize_setHeapCapacity]
      exact heapSize_setHeapSize (by omega)
    · exact heapCapacity_setHeapCapacity (by omega)
    · rw [became]
      exact .allocated (fun _ => ownedAt_none) (ownedAt_iff mode leads) fresh

/-- Once the object's own buffer is released, nothing that was offered is occupied. -/
theorem Offers.released {after : Blocks} (valid : Offers blocks ss grant) (gone : Replaced (some ss) none blocks after) :
    Offers after zeroed grant := by
  intro pointer junk answered
  obtain ⟨positive, below, free⟩ := valid pointer junk answered
  refine ⟨positive, below, .inl ?_⟩
  by_cases owns : ss.Owns pointer
  · exact gone.released pointer (ownedAt_some.mpr owns) ownedAt_none
  · rw [gone.frame pointer (fun held => owns (ownedAt_some.mp held)) ownedAt_none]
    exact free.resolve_right owns

theorem ssoInit_effect {str : Option CString} (denotes : Denotes ssoStackBufferCap heap.blocks ss text)
    (valid : Offers heap.blocks ss grant)
    (granted : (str.getD CString.empty).strlen ≤ ssoStackBufferCap ∨ grant ≠ none) :
    ∃ outcome, ssoInit ss str grant heap = some outcome ∧ Outcome ss heap (str.getD CString.empty).bytes outcome := by
  obtain ⟨left, mid, freed, gone⟩ : ∃ left mid, (if ss.isLong then ssoFree ss heap else some (ss, heap)) =
      some (left, mid) ∧ Replaced (some ss) none heap.blocks mid.blocks := by
    cases mode : ss.isLong with
    | false => exact ⟨ss, heap, rfl, .keep fun place => iff_of_false ownedAt_none (not_ownedAt mode place)⟩
    | true =>
        obtain ⟨left, mid, freed, _, _, gone⟩ := ssoFree_effect denotes
        exact ⟨left, mid, freed, gone⟩
  obtain ⟨filled, after, completes, became, taken⟩ := ssoFill_effect (valid.released gone) granted
  refine ⟨_, ?_, .done filled after became (gone.trans taken)⟩
  rw [ssoInit, freed]
  exact completes

/-- Refused a buffer, `sso_init` returns NULL and leaves a heap mode without one. -/
theorem ssoInit_refused {str : Option CString} (denotes : Denotes ssoStackBufferCap heap.blocks ss text)
    (beyond : ssoStackBufferCap < (str.getD CString.empty).strlen) :
    ∃ left after, ssoInit ss str none heap = some (false, left, after) ∧ left.isLong = true ∧ left.heapPtr = none := by
  obtain ⟨left, mid, freed⟩ : ∃ left mid, (if ss.isLong then ssoFree ss heap else some (ss, heap)) =
      some (left, mid) := by
    cases mode : ss.isLong with
    | false => exact ⟨ss, heap, rfl⟩
    | true =>
        obtain ⟨left, mid, freed, _⟩ := ssoFree_effect denotes
        exact ⟨left, mid, freed⟩
  have filled : ssoFill (str.getD CString.empty) none mid =
      some (false, (zeroed.setLong true).setHeapPtr none, { mid with mallocCount := mid.mallocCount + 1 }) := by
    rw [ssoFill, if_neg (not_le.mpr beyond)]
    rfl
  have completes : ssoInit ss str none heap =
      some (false, (zeroed.setLong true).setHeapPtr none, { mid with mallocCount := mid.mallocCount + 1 }) := by
    rw [ssoInit, freed]
    exact filled
  exact ⟨_, _, completes, rfl, heapPtr_setHeapNull⟩

theorem ssoAppendStack_effect (denotes : Denotes ssoStackBufferCap heap.blocks ss text) (short : ss.isLong = false)
    (valid : Offers heap.blocks ss grant) (sized : text.length + str.strlen < 2 ^ 64)
    (fits : text.length + str.strlen < 2 ^ 63 ∨ grant = none) :
    ∃ outcome, ssoAppendStack ss str text.length (text.length + str.strlen) grant heap = some outcome ∧
      Outcome ss heap (text ++ str.bytes) outcome := by
  by_cases inline : text.length + str.strlen ≤ ssoStackBufferCap
  · obtain ⟨copied, written, mode, became⟩ := denotes.appendStack short inline (by decide)
    have completes : ssoAppendStack ss str text.length (text.length + str.strlen) grant heap =
        some (true, copied.setStackSize ssoStackBufferCap (text.length + str.strlen), heap) := by
      rw [ssoAppendStack, if_pos inline, CString.terminated, written]
      rfl
    have kept : (copied.setStackSize ssoStackBufferCap (text.length + str.strlen)).isLong = false := mode
    refine ⟨_, completes, .done _ heap became (.keep fun place => ?_)⟩
    exact iff_of_false (not_ownedAt kept place) (not_ownedAt short place)
  · cases grant with
    | none =>
        have completes : ssoAppendStack ss str text.length (text.length + str.strlen) none heap =
            some (false, ss, { heap with mallocCount := heap.mallocCount + 1 }) := by
          rw [ssoAppendStack, if_neg inline]
          rfl
        exact ⟨_, completes, .refused _ rfl⟩
    | some answer =>
        obtain ⟨pointer, junk⟩ := answer
        obtain ⟨positive, below, free⟩ := valid pointer junk rfl
        have fresh : heap.blocks pointer = none :=
          free.resolve_right fun owns => by simp [TaggedUnion.Owns, short] at owns
        have bound := fits.resolve_right (Option.some_ne_none _)
        obtain ⟨_, _, contains⟩ := denotes.short short
        generalize double : (text.length + str.strlen) * 2 % 2 ^ 64 = newCap
        have capacity : newCap = (text.length + str.strlen) * 2 := by omega
        have length : str.terminated.length = str.strlen + 1 := by simp [CString.terminated, CString.strlen]
        have total : (text ++ str.bytes).length = text.length + str.strlen := List.length_append
        have narrow : newCap + 1 < 2 ^ 64 := by omega
        have inside : 0 + text.length ≤ newCap + 1 := by omega
        have beside : text.length + str.terminated.length ≤ newCap + 1 := by omega
        obtain ⟨first, requested, got⟩ := trackedMalloc_granted junk fresh narrow
        obtain ⟨second, copied, held⟩ := Tracked.memcpy_granted got inside
        obtain ⟨after, appended, became⟩ := Tracked.memcpy_granted held beside
        let grown := (((ss.setLong true).setHeapPtr (some pointer)).setHeapCapacity newCap).setHeapSize
          (text.length + str.strlen)
        have mode : grown.isLong = true := rfl
        have leads : grown.heapPtr = some pointer := by
          simp only [grown, heapPtr_setHeapCapacity, heapPtr_setHeapSize]
          exact heapPtr_setHeapPtr positive below
        have completes : ssoAppendStack ss str text.length (text.length + str.strlen) (some (pointer, junk)) heap =
            some (true, grown, after) := by
          simp only [ssoAppendStack, if_neg inline, double, requested, Option.bind_eq_bind, Option.bind_some,
            contains.left.peek, copied, appended]
          rfl
        have capacious : grown.heapCapacity = newCap := by
          rw [heapCapacity_setHeapSize]
          exact heapCapacity_setHeapCapacity (by omega)
        have sized : grown.heapSize = (text ++ str.bytes).length := by rw [heapSize_setHeapSize sized, total]
        refine ⟨_, completes, .done grown after ?_ ?_⟩
        · refine .housed mode leads sized capacious (by omega) (by omega) narrow
            (by rw [became]; exact Function.update_self ..) ?_
          rw [List.append_assoc]
          exact contains_overwrite.append
        · rw [became]
          exact .allocated (not_ownedAt short) (ownedAt_iff mode leads) fresh

/-- There is room for `newLen` characters, or a request for it failed and changed nothing. -/
inductive Reserved (was : TaggedUnion) (heap : Tracked) (text : List UInt8) (newLen : Nat) :
    Bool × TaggedUnion × Tracked → Prop
  | refused (after : Tracked) (same : after.blocks = heap.blocks) : Reserved was heap text newLen (false, was, after)
  | done (ss : TaggedUnion) (after : Tracked) (pointer : Addr) (block : Block)
      (roomy : Roomy after.blocks ss text newLen pointer block)
      (replaced : Replaced (some was) (some ss) heap.blocks after.blocks) :
      Reserved was heap text newLen (true, ss, after)

theorem ssoReserve_effect {newLen : Nat} (denotes : Denotes ssoStackBufferCap heap.blocks ss text)
    (long : ss.isLong = true) (valid : Offers heap.blocks ss grant) (narrow : newLen + 1 < 2 ^ 64) :
    ∃ outcome, ssoReserve ss newLen grant heap = some outcome ∧ Reserved ss heap text newLen outcome := by
  cases denotes with
  | stack short => simp [long] at short
  | heap source block _ beyond leads live sized room allocated slim bytes =>
      have former := ownedAt_iff long leads
      by_cases tight : newLen > ss.heapCapacity
      · generalize double : ss.heapCapacity * 2 % 2 ^ 64 = twice
        generalize chosen : (if twice < newLen then newLen else twice) = newCap
        -- a capacity that was doubled is even, so that one more byte does not overflow
        have enough : newLen ≤ newCap ∧ newCap + 1 < 2 ^ 64 := by
          split at chosen <;> omega
        have request : (newCap + 1) % 2 ^ 64 = newCap + 1 := Nat.mod_eq_of_lt enough.2
        cases grant with
        | none =>
            have completes : ssoReserve ss newLen none heap =
                some (false, ss, { heap with reallocCount := heap.reallocCount + 1 }) := by
              simp only [ssoReserve, if_pos tight, double, chosen, trackedRealloc, request, leads,
                Blocks.realloc_refused live (Nat.succ_pos newCap)]
              rfl
            exact ⟨_, completes, .refused _ rfl⟩
        | some answer =>
            obtain ⟨pointer, junk⟩ := answer
            obtain ⟨positive, below, free⟩ := valid pointer junk rfl
            have fresh : Function.update heap.blocks source none pointer = none := by
              by_cases same : pointer = source
              · rw [same, Function.update_self]
              · rw [Function.update_of_ne same]
                exact free.resolve_right fun owns => same ((former pointer).mp (ownedAt_some.mpr owns))
            let grown := (ss.setHeapCapacity newCap).setHeapPtr (some pointer)
            have capacity : grown.heapCapacity = newCap := by
              rw [heapCapacity_setHeapPtr]
              exact heapCapacity_setHeapCapacity (by omega)
            have found : grown.heapPtr = some pointer := heapPtr_setHeapPtr positive below
            have mode : grown.isLong = true := long
            let moved : Block :=
              ⟨newCap + 1, overwrite junk 0 (peek block.byte (min block.size (newCap + 1)))⟩
            let blocks := Function.update (Function.update heap.blocks source none) pointer (some moved)
            have completes : ssoReserve ss newLen (some (pointer, junk)) heap =
                some (true, grown, { heap with blocks, reallocCount := heap.reallocCount + 1 }) := by
              simp only [ssoReserve, if_pos tight, double, chosen, trackedRealloc, request, leads,
                Blocks.realloc_moved live (Nat.succ_pos newCap) fresh]
              rfl
            refine ⟨_, completes, .done grown _ pointer moved
              ⟨mode, found, Function.update_self .., ?_, ?_, ?_, bytes.left.copied ?_⟩ ?_⟩
            · rw [capacity]
              exact enough.1
            · rw [capacity]
            · rw [capacity]
              exact enough.2
            · omega
            · exact (Replaced.destroyed former).trans (.allocated (fun _ => ownedAt_none) (ownedAt_iff mode found) fresh)
      · refine ⟨_, by rw [ssoReserve, if_neg tight], .done ss heap source block ?_ (.keep fun _ => Iff.rfl)⟩
        exact ⟨long, leads, live, not_lt.mp tight, allocated, slim, bytes.left⟩

theorem ssoAppendHeap_effect (denotes : Denotes ssoStackBufferCap heap.blocks ss text) (long : ss.isLong = true)
    (valid : Offers heap.blocks ss grant) (narrow : text.length + str.strlen + 1 < 2 ^ 64) :
    ∃ outcome, ssoAppendHeap ss str text.length (text.length + str.strlen) grant heap = some outcome ∧
      Outcome ss heap (text ++ str.bytes) outcome := by
  have beyond := denotes.long_iff.mp long
  obtain ⟨outcome, completes, reserved⟩ := ssoReserve_effect denotes long valid narrow
  rw [ssoAppendHeap, completes]
  cases reserved with
  | refused after same => exact ⟨_, rfl, .refused after same⟩
  | done grown mid pointer block roomy replaced =>
      have ⟨mode, leads, live, room, allocated, _, _⟩ := roomy
      have inside : text.length + str.terminated.length ≤ block.size := by
        have length : str.terminated.length = str.strlen + 1 := by simp [CString.terminated, CString.strlen]
        omega
      obtain ⟨after, copied, became⟩ := Tracked.memcpy_live live inside
      let ss := grown.setHeapSize (text.length + str.strlen)
      have found : ss.heapPtr = some pointer := by rw [heapPtr_setHeapSize, leads]
      refine ⟨(true, ss, after), ?_, .done ss after ?_ ?_⟩
      · simp only [Option.bind_eq_bind, Option.bind_some, if_true, leads, copied]
        rfl
      · rw [became]
        exact roomy.appended beyond
      · rw [became]
        exact replaced.rewrite (ownedAt_iff mode leads) (ownedAt_iff mode found)

/-- No capacity overflows on the way to the heap, and neither does the room for a NUL there. -/
def Appendable (text : List UInt8) (str : CString) (grant : Grant) : Prop :=
  2 ^ 64 ≤ text.length + str.strlen ∨
    if text.length ≤ ssoStackBufferCap then text.length + str.strlen < 2 ^ 63 ∨ grant = none
    else text.length + str.strlen ≠ 2 ^ 64 - 1

theorem ssoAppend_effect (denotes : Denotes ssoStackBufferCap heap.blocks ss text) (valid : Offers heap.blocks ss grant)
    (fits : Appendable text str grant) :
    ∃ outcome, ssoAppend ss (some str) grant heap = some outcome ∧ Outcome ss heap (text ++ str.bytes) outcome := by
  have length : (if ss.isLong = true then ss.heapSize else ss.stackSize ssoStackBufferCap) = text.length := by
    cases denotes with
    | stack short _ size => simp [short, size]
    | heap pointer block long _ _ _ size => simp [long, size]
  have narrow := denotes.narrow (by decide)
  by_cases exceeds : 2 ^ 64 - 1 - text.length < str.strlen
  · have refused : ssoAppend ss (some str) grant heap = some (false, ss, heap) := by
      simp only [ssoAppend, length, if_pos exceeds]
    exact ⟨_, refused, .refused heap rfl⟩
  · simp only [ssoAppend, length, if_neg exceeds]
    have room := fits.resolve_left (by omega)
    cases mode : ss.isLong with
    | false =>
        rw [if_pos (denotes.short mode).1] at room
        exact ssoAppendStack_effect denotes mode valid (by omega) room
    | true =>
        rw [if_neg (not_le.mpr (denotes.long_iff.mp mode))] at room
        exact ssoAppendHeap_effect denotes mode valid (by omega)

/-- The source's buffer survives the release of the other object's. -/
theorem ssoCopy_effect (denotes : Denotes ssoStackBufferCap heap.blocks ss bytes)
    (source : Denotes ssoStackBufferCap heap.blocks src text)
    (apart : ∀ pointer, ss.Owns pointer → ¬ src.Owns pointer) (valid : Offers heap.blocks ss grant)
    (granted : src.isLong = false ∨ grant ≠ none) :
    ∃ outcome, ssoCopy ss src grant heap = some outcome ∧ Outcome ss heap text outcome := by
  obtain ⟨freed, mid, released, short, _, gone⟩ := ssoFree_effect denotes
  have still := source.frame fun pointer owns => gone.frame pointer
    (fun held => apart pointer (ownedAt_some.mp held) owns) ownedAt_none
  cases still with
  | stack inline fits size bytes =>
      have completes : ssoCopy ss src grant heap =
          some (true, (freed.setLong false).assignStack ssoStackBufferCap src, mid) := by
        simp only [ssoCopy, released, Option.bind_eq_bind, Option.bind_some, inline, if_true]
      have became : Denotes ssoStackBufferCap mid.blocks ((freed.setLong false).assignStack ssoStackBufferCap src) text :=
        (Denotes.stack inline fits size bytes).assignStack inline
      refine ⟨_, completes, .done _ mid became (gone.trans (.keep fun place => ?_))⟩
      exact iff_of_false (not_ownedAt rfl place) ownedAt_none
  | heap place block long beyond leads live size room allocated narrow bytes =>
      have answered : grant ≠ none := granted.resolve_left (by simp [long])
      obtain ⟨⟨pointer, junk⟩, rfl⟩ := Option.ne_none_iff_exists'.mp answered
      obtain ⟨positive, below, free⟩ := valid.released gone pointer junk rfl
      have fresh : mid.blocks pointer = none := free.resolve_right fun owns => by simp [zeroed, TaggedUnion.Owns] at owns
      have length : (text ++ [0]).length = src.heapSize + 1 := by simp [size]
      have request : src.heapSize + 1 < 2 ^ 64 := by omega
      have inside : 0 + (text ++ [0]).length ≤ src.heapSize + 1 := by omega
      obtain ⟨first, requested, got⟩ := trackedMalloc_granted junk fresh request
      obtain ⟨after, copied, became⟩ := Tracked.memcpy_granted got inside
      have source : first.blocks.read place (src.heapSize + 1) = some (text ++ [0]) := by
        rw [got, ← length]
        exact Blocks.read_beside live fresh (by omega) bytes
      let string := (((freed.setLong true).setHeapPtr (some pointer)).setHeapSize src.heapSize).setHeapCapacity
        src.heapSize
      have mode : string.isLong = true := rfl
      have found : string.heapPtr = some pointer := by
        simp only [string, heapPtr_setHeapCapacity, heapPtr_setHeapSize]
        exact heapPtr_setHeapPtr positive below
      have sized : string.heapSize = text.length := by
        rw [heapSize_setHeapCapacity, heapSize_setHeapSize (by omega), size]
      have capacious : string.heapCapacity = src.heapSize := heapCapacity_setHeapCapacity (by omega)
      have completes : ssoCopy ss src (some (pointer, junk)) heap = some (true, string, after) := by
        simp only [ssoCopy, released, Option.bind_eq_bind, Option.bind_some, long, Bool.true_eq_false, if_false,
          requested, leads, source, copied]
        rfl
      refine ⟨_, completes, .done string after ?_ (gone.trans ?_)⟩
      · exact .housed mode found sized capacious beyond size.ge request
          (by rw [became]; exact Function.update_self ..) contains_overwrite
      · rw [became]
        exact .allocated (fun _ => ownedAt_none) (ownedAt_iff mode found) fresh

/-- Refused a buffer, `sso_copy` does as `sso_init`. -/
theorem ssoCopy_refused (denotes : Denotes ssoStackBufferCap heap.blocks ss text) (long : src.isLong = true) :
    ∃ left after, ssoCopy ss src none heap = some (false, left, after) ∧ left.isLong = true ∧ left.heapPtr = none := by
  obtain ⟨freed, mid, released, _⟩ := ssoFree_effect denotes
  have completes : ssoCopy ss src none heap =
      some (false, (freed.setLong true).setHeapPtr none, { mid with mallocCount := mid.mallocCount + 1 }) := by
    simp only [ssoCopy, released, Option.bind_eq_bind, Option.bind_some, long, Bool.true_eq_false, if_false]
    rfl
  exact ⟨_, _, completes, rfl, heapPtr_setHeapNull⟩

end HundredDays.SsoString
