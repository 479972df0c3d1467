import HundredDays.SsoString.CppModel

namespace HundredDays.SsoString

open HundredDays.Memory SSOString

/-! What each operation of the class does to the object it is about. -/

variable {heap after : Allocator} {string other temp : TaggedUnion} {was : Option TaggedUnion}
  {storage junk : Nat → UInt8} {str : CString} {grant : Grant} {pointer : Addr} {block : Block}
  {text bytes : List UInt8} {size offset : Nat}

/-- Addresses the allocator may answer with. -/
def Answers (blocks : Blocks) (grant : Grant) : Prop :=
  ∀ pointer junk, grant = some (pointer, junk) → 0 < pointer ∧ pointer < 2 ^ 64 ∧ blocks pointer = none

namespace SSOString

def Allocator.outstanding (heap : Allocator) : UInt64 := heap.mallocCount - heap.freeCount

theorem alloc_refused : alloc heap none size = some (none, { heap with mallocCount := heap.mallocCount + 1 }) := rfl

theorem alloc_granted (fresh : heap.blocks pointer = none) (narrow : size < 2 ^ 64) :
    alloc heap (some (pointer, junk)) size =
      some (some pointer, { heap with
        blocks := Function.update heap.blocks pointer (some ⟨size, junk⟩)
        mallocCount := heap.mallocCount + 1 }) := by
  rw [alloc, Blocks.malloc_fresh fresh, Nat.mod_eq_of_lt narrow]
  rfl

theorem dealloc_live (live : heap.blocks pointer = some block) :
    dealloc heap (some pointer) =
      some { heap with
        blocks := Function.update heap.blocks pointer none
        freeCount := heap.freeCount + 1 } := by
  simp [dealloc, Blocks.free_live live]

theorem memcpy_live (live : heap.blocks pointer = some block) (inside : offset + bytes.length ≤ block.size) :
    memcpy heap pointer offset bytes =
      some { heap with
        blocks := Function.update heap.blocks pointer
          (some { block with byte := overwrite block.byte offset bytes }) } := by
  simp [memcpy, Blocks.write_live live inside]

theorem memcpy_granted {blocks : Blocks} {mallocs frees : UInt64} (inside : offset + bytes.length ≤ block.size) :
    memcpy ⟨Function.update blocks pointer (some block), mallocs, frees⟩ pointer offset bytes =
      some ⟨Function.update blocks pointer (some { block with byte := overwrite block.byte offset bytes }),
        mallocs, frees⟩ := by
  rw [memcpy_live (Function.update_self ..) inside, Function.update_idem]

end SSOString

/-- An operation on one object threw, or the object has become the text. -/
inductive Effect (was : Option TaggedUnion) (heap : Allocator) (text : List UInt8) :
    Option TaggedUnion × Allocator → Prop
  | threw : Effect was heap text (none, { heap with mallocCount := heap.mallocCount + 1 })
  | done (string : TaggedUnion) (after : Allocator) (denotes : Denotes stackCap after.blocks string text)
      (replaced : Replaced was (some string) heap.blocks after.blocks)
      (counted : after.outstanding + UInt64.ofNat (longWeight was) =
        heap.outstanding + UInt64.ofNat (longWeight (some string))) :
      Effect was heap text (some string, after)

/-- A string moves into a buffer just granted, which was filled. -/
theorem Effect.granted {capacity : Nat} (nothing : ∀ place, ¬ OwnedAt was place) (light : longWeight was = 0)
    (fresh : heap.blocks pointer = none) (long : string.isLong = true) (leads : string.heapPtr = some pointer)
    (sized : string.heapSize = text.length) (capacious : string.heapCapacity = capacity)
    (beyond : stackCap < text.length) (room : text.length ≤ capacity) (narrow : capacity + 1 < 2 ^ 64)
    (contains : Contains junk (text ++ [0])) :
    Effect was heap text (some string, { heap with
      blocks := Function.update heap.blocks pointer (some ⟨capacity + 1, junk⟩)
      mallocCount := heap.mallocCount + 1 }) := by
  refine .done string _ ?_ (.allocated nothing (ownedAt_iff long leads) fresh) ?_
  · exact .heap pointer _ long beyond leads (Function.update_self ..) sized (by rwa [capacious])
      (by rw [capacious]) (by rwa [capacious]) contains
  · have heavy : longWeight (some string) = 1 := if_pos long
    rw [light, heavy]
    simp only [Allocator.outstanding]
    grind

theorem default_effect : Effect none heap [] (some (SSOString.default storage), heap) := by
  have short : (SSOString.default storage).isLong = false := rfl
  refine .done _ heap (.emptied short ?_ ?_) (.keep fun place => ?_) (by simp [longWeight, short])
  · simp [SSOString.default, clear, stackCap]
  · simp [SSOString.default, clear]
  · exact iff_of_false (not_ownedAt short place) ownedAt_none

theorem construct_effect (storage : Nat → UInt8) (str : Option CString) (valid : Answers heap.blocks grant) :
    ∃ outcome, construct storage str grant heap = some outcome ∧
      Effect none heap (str.getD CString.empty).bytes outcome := by
  generalize equal : str.getD CString.empty = value
  by_cases short : value.strlen ≤ stackCap
  · obtain ⟨copied, written, mode, became⟩ :=
      Denotes.inlined ⟨false, storage⟩ heap.blocks value rfl short (by decide)
    have completes : construct storage str grant heap = some (some copied, heap) := by
      simp [construct, equal, short, written]
    refine ⟨_, completes, .done copied heap became (.keep fun place => ?_) (by simp [longWeight, mode])⟩
    exact iff_of_false (not_ownedAt mode place) ownedAt_none
  · rw [construct, equal, if_neg short]
    cases grant with
    | none => exact ⟨_, rfl, .threw⟩
    | some answer =>
        obtain ⟨pointer, junk⟩ := answer
        obtain ⟨positive, below, fresh⟩ := valid pointer junk rfl
        have narrow : value.strlen + 1 < 2 ^ 64 := value.fits
        rw [alloc_granted fresh narrow]
        simp only [Option.bind_eq_bind, Option.bind_some]
        rw [memcpy_granted (by simp [CString.terminated, CString.strlen])]
        refine ⟨_, rfl, .granted (fun _ => ownedAt_none) rfl fresh rfl ?_ ?_ ?_ (not_le.mp short) le_rfl narrow
          contains_overwrite⟩
        · simp only [heapPtr_setHeapCapacity, heapPtr_setHeapSize]
          exact heapPtr_setHeapPtr positive below
        · rw [heapSize_setHeapCapacity]
          exact heapSize_setHeapSize (by omega)
        · exact heapCapacity_setHeapCapacity (by omega)

theorem copyConstruct_effect (storage : Nat → UInt8) (denotes : Denotes stackCap heap.blocks other text)
    (valid : Answers heap.blocks grant) :
    ∃ outcome, copyConstruct storage other grant heap = some outcome ∧ Effect none heap text outcome := by
  cases denotes with
  | stack short fits size bytes =>
      let string : TaggedUnion := TaggedUnion.setLong ⟨false, storage⟩ false
      have completes : copyConstruct storage other grant heap = some (some (string.assignStack stackCap other), heap) := by
        simp [copyConstruct, short, string, TaggedUnion.setLong]
      have became : Denotes stackCap heap.blocks (string.assignStack stackCap other) text :=
        (Denotes.stack short fits size bytes).assignStack short
      refine ⟨_, completes, .done _ heap became (.keep fun place => ?_) rfl⟩
      exact iff_of_false (not_ownedAt rfl place) ownedAt_none
  | heap source block long beyond leads live sized room allocated narrow bytes =>
      have length : (text ++ [0]).length = other.heapSize + 1 := by simp [sized]
      cases grant with
      | none => exact ⟨_, by simp [copyConstruct, long, alloc_refused], .threw⟩
      | some answer =>
          obtain ⟨pointer, junk⟩ := answer
          obtain ⟨positive, below, fresh⟩ := valid pointer junk rfl
          simp only [copyConstruct, long, Bool.true_eq_false, if_false, alloc_granted fresh narrow,
            Option.bind_eq_bind, Option.bind_some, leads, ← length]
          rw [Blocks.read_beside live fresh (by omega) bytes, Option.bind_some, memcpy_granted (by simp; omega)]
          refine ⟨_, rfl, .granted (fun _ => ownedAt_none) rfl fresh rfl ?_ ?_ ?_ beyond room narrow
            contains_overwrite⟩
          · simp only [heapPtr_setHeapCapacity, heapPtr_setHeapSize]
            exact heapPtr_setHeapPtr positive below
          · rw [heapSize_setHeapCapacity, heapSize_setHeapSize (by omega), sized]
          · exact heapCapacity_setHeapCapacity (by omega)

/-- What appending makes of a string: nothing, if its length would not be a `size_t`. -/
def appended (text : List UInt8) (str : CString) : List UInt8 :=
  if text.length + str.strlen < 2 ^ 64 then text ++ str.bytes else text

/-- The capacity and the room for a NUL can be computed without overflow. -/
def Extensible (text : List UInt8) (str : CString) : Prop :=
  if text.length ≤ stackCap then text.length + str.strlen < 2 ^ 63 ∨ 2 ^ 64 ≤ text.length + str.strlen
  else text.length + str.strlen ≠ 2 ^ 64 - 1

theorem appendStack_effect (denotes : Denotes stackCap heap.blocks string text) (short : string.isLong = false)
    (valid : Answers heap.blocks grant) (fits : text.length + str.strlen < 2 ^ 63) :
    ∃ outcome, appendStack string str text.length (text.length + str.strlen) grant heap = some outcome ∧
      Effect (some string) heap (text ++ str.bytes) outcome := by
  by_cases inline : text.length + str.strlen ≤ stackCap
  · obtain ⟨copied, written, mode, became⟩ := denotes.appendStack short inline (by decide)
    have completes : appendStack string str text.length (text.length + str.strlen) grant heap =
        some (some (copied.setStackSize stackCap (text.length + str.strlen)), heap) := by
      rw [appendStack, if_pos inline, CString.terminated, written]
      rfl
    have sized : (copied.setStackSize stackCap (text.length + str.strlen)).isLong = false := mode
    have light : longWeight (some (copied.setStackSize stackCap (text.length + str.strlen))) =
        longWeight (some string) := by
      simp [longWeight, sized, short]
    refine ⟨_, completes, .done _ heap became (.keep fun place => ?_) (by rw [light])⟩
    exact iff_of_false (not_ownedAt sized place) (not_ownedAt short place)
  · cases grant with
    | none => exact ⟨_, by simp [appendStack, inline, alloc_refused], .threw⟩
    | some answer =>
        obtain ⟨pointer, junk⟩ := answer
        obtain ⟨positive, below, fresh⟩ := valid pointer junk rfl
        obtain ⟨_, _, contains⟩ := denotes.short short
        have capacity : (text.length + str.strlen) * 2 % 2 ^ 64 = (text.length + str.strlen) * 2 :=
          Nat.mod_eq_of_lt (by omega)
        have length : str.terminated.length = str.strlen + 1 := by simp [CString.terminated, CString.strlen]
        have grown : (text ++ str.bytes).length = text.length + str.strlen := List.length_append
        have copied : Contains (overwrite (overwrite junk 0 text) text.length str.terminated)
            (text ++ str.bytes ++ [0]) := by
          rw [List.append_assoc]
          exact contains_overwrite.append
        have narrow : (text.length + str.strlen) * 2 + 1 < 2 ^ 64 := by omega
        simp only [appendStack, if_neg inline, capacity, alloc_granted fresh narrow, contains.left.peek,
          Option.bind_eq_bind, Option.bind_some]
        rw [memcpy_granted (by simp; omega), Option.bind_some, memcpy_granted (by simp [length]; omega)]
        refine ⟨_, rfl, .granted (not_ownedAt short) (by simp [longWeight, short]) fresh rfl ?_ ?_ ?_
          (by omega) (by omega) (by omega) copied⟩
        · simp only [heapPtr_setHeapCapacity, heapPtr_setHeapSize]
          exact heapPtr_setHeapPtr positive below
        · rw [heapSize_setHeapCapacity, heapSize_setHeapSize (by omega), grown]
        · exact heapCapacity_setHeapCapacity (by omega)

/-- Making room threw, or there is room. -/
inductive Grown (was : TaggedUnion) (heap : Allocator) (text : List UInt8) (newLen : Nat) :
    Option TaggedUnion × Allocator → Prop
  | threw : Grown was heap text newLen (none, { heap with mallocCount := heap.mallocCount + 1 })
  | done (string : TaggedUnion) (after : Allocator) (pointer : Addr) (block : Block)
      (roomy : Roomy after.blocks string text newLen pointer block)
      (replaced : Replaced (some was) (some string) heap.blocks after.blocks)
      (counted : after.outstanding = heap.outstanding) : Grown was heap text newLen (some string, after)

theorem grow_effect {newLen : Nat} (denotes : Denotes stackCap heap.blocks string text) (long : string.isLong = true)
    (valid : Answers heap.blocks grant) (longer : text.length ≤ newLen) (narrow : newLen + 1 < 2 ^ 64) :
    ∃ outcome, grow string text.length newLen grant heap = some outcome ∧ Grown string heap text newLen outcome := by
  cases denotes with
  | stack short => simp [long] at short
  | heap source block _ beyond leads live sized room allocated slim bytes =>
      have former := ownedAt_iff long leads
      by_cases tight : newLen > string.heapCapacity
      · generalize double : string.heapCapacity * 2 % 2 ^ 64 = twice
        generalize chosen : (if twice < newLen then newLen else twice) = newCap
        -- a capacity that was doubled is even, so that one more byte does not overflow
        have enough : newLen ≤ newCap ∧ newCap + 1 < 2 ^ 64 := by
          split at chosen <;> omega
        cases grant with
        | none => exact ⟨_, by simp [grow, tight, alloc_refused], .threw⟩
        | some answer =>
            obtain ⟨pointer, junk⟩ := answer
            obtain ⟨positive, below, fresh⟩ := valid pointer junk rfl
            have differs : source ≠ pointer := by
              rintro rfl
              cases fresh.symm.trans live
            simp only [grow, if_pos tight, double, chosen, alloc_granted fresh enough.2, leads,
              Option.bind_eq_bind, Option.bind_some]
            rw [Blocks.read_beside live fresh (by omega) bytes.left, Option.bind_some, memcpy_granted (by simp; omega),
              Option.bind_some, dealloc_live ((Function.update_of_ne differs _ _).trans live)]
            let string := (string.setHeapPtr (some pointer)).setHeapCapacity newCap
            have capacity : string.heapCapacity = newCap := heapCapacity_setHeapCapacity (by omega)
            have found : string.heapPtr = some pointer := by
              rw [heapPtr_setHeapCapacity]
              exact heapPtr_setHeapPtr positive below
            have mode : string.isLong = true := long
            have made : ∀ granted, Replaced none (some string) heap.blocks
                (Function.update heap.blocks pointer (some granted)) :=
              fun _ => .allocated (fun _ => ownedAt_none) (ownedAt_iff mode found) fresh
            refine ⟨_, rfl, .done string _ pointer ⟨newCap + 1, overwrite junk 0 text⟩
              ⟨mode, found, ?_, ?_, ?_, ?_, contains_overwrite⟩ ((made _).beside (.destroyed former) fun _ => Iff.rfl) ?_⟩
            · exact (Function.update_of_ne differs.symm _ _).trans (Function.update_self ..)
            · rw [capacity]
              exact enough.1
            · rw [capacity]
            · rw [capacity]
              exact enough.2
            · simp only [Allocator.outstanding]
              grind
      · refine ⟨_, by rw [grow, if_neg tight], .done string heap source block ?_ (.keep fun _ => Iff.rfl) rfl⟩
        exact ⟨long, leads, live, not_lt.mp tight, allocated, slim, bytes.left⟩

theorem appendHeap_effect (denotes : Denotes stackCap heap.blocks string text) (long : string.isLong = true)
    (valid : Answers heap.blocks grant) (narrow : text.length + str.strlen + 1 < 2 ^ 64) :
    ∃ outcome, appendHeap string str text.length (text.length + str.strlen) grant heap = some outcome ∧
      Effect (some string) heap (text ++ str.bytes) outcome := by
  have beyond := denotes.long_iff.mp long
  obtain ⟨outcome, completes, grown⟩ := grow_effect denotes long valid (Nat.le_add_right _ _) narrow
  rw [appendHeap, completes]
  cases grown with
  | threw => exact ⟨_, rfl, .threw⟩
  | done fresh after pointer block roomy replaced counted =>
      have ⟨mode, leads, live, room, allocated, _, _⟩ := roomy
      have length : str.terminated.length = str.strlen + 1 := by simp [CString.terminated, CString.strlen]
      have sized : (text ++ str.bytes).length = text.length + str.strlen := List.length_append
      simp only [leads, Option.bind_eq_bind, Option.bind_some]
      rw [memcpy_live live (by omega)]
      let string := fresh.setHeapSize (text.length + str.strlen)
      have found : string.heapPtr = some pointer := by rw [heapPtr_setHeapSize, leads]
      refine ⟨_, rfl, .done string _ (roomy.appended (by omega))
        (replaced.rewrite (ownedAt_iff mode leads) (ownedAt_iff mode found)) ?_⟩
      have before : longWeight (some string) = 1 := if_pos mode
      rw [before, longWeight, if_pos long]
      simpa only [Allocator.outstanding] using congrArg (· + UInt64.ofNat 1) counted

theorem append_effect (denotes : Denotes stackCap heap.blocks string text) (valid : Answers heap.blocks grant)
    (fits : Extensible text str) :
    ∃ outcome, append string (some str) grant heap = some outcome ∧
      Effect (some string) heap (appended text str) outcome := by
  have length : (if string.isLong = false then string.stackSize stackCap else string.heapSize) = text.length := by
    cases denotes with
    | stack short _ size => simp [short, size]
    | heap pointer block long _ _ _ size => simp [long, size]
  have narrow := denotes.narrow (by decide)
  by_cases exceeds : 2 ^ 64 - 1 - text.length < str.strlen
  · have refused : append string (some str) grant heap = some (some string, heap) := by
      simp only [append, length, if_pos exceeds]
    refine ⟨_, refused, ?_⟩
    rw [appended, if_neg (by omega)]
    exact .done string heap denotes (.keep fun _ => Iff.rfl) rfl
  · rw [appended, if_pos (by omega)]
    simp only [append, length, if_neg exceeds]
    cases mode : string.isLong with
    | false =>
        have inline : text.length ≤ stackCap := (denotes.short mode).1
        rw [Extensible, if_pos inline] at fits
        exact appendStack_effect denotes mode valid (by omega)
    | true =>
        have beyond := denotes.long_iff.mp mode
        rw [Extensible, if_neg (by omega)] at fits
        exact appendHeap_effect denotes mode valid (by omega)

theorem destroy_effect (denotes : Denotes stackCap heap.blocks string text) :
    ∃ after, destroy string heap = some after ∧ Replaced (some string) none heap.blocks after.blocks ∧
      after.outstanding + UInt64.ofNat (longWeight (some string)) = heap.outstanding := by
  cases denotes with
  | stack short =>
      refine ⟨heap, by simp [destroy, short], .keep fun place => ?_, by simp [longWeight, short]⟩
      exact iff_of_false ownedAt_none (not_ownedAt short place)
  | heap pointer block long _ leads live =>
      refine ⟨_, by rw [destroy, if_pos long, leads, dealloc_live live], .destroyed (ownedAt_iff long leads), ?_⟩
      have heavy : longWeight (some string) = 1 := if_pos long
      rw [heavy]
      simp only [Allocator.outstanding]
      grind

/-- What taking over another string makes of the two. -/
def takeOver (string other : TaggedUnion) : TaggedUnion × TaggedUnion :=
  if other.isLong = false then ((string.setLong false).assignStack stackCap other, other)
  else ((string.setLong true).assignHeap other, clear other)

/-- A moved-from string in heap mode is empty. -/
def movedFrom (text : List UInt8) : List UInt8 := if text.length ≤ stackCap then text else []

theorem moveConstruct_eq : moveConstruct storage other = takeOver ⟨other.isLong, storage⟩ other := by
  cases mode : other.isLong <;> simp [moveConstruct, takeOver, mode, TaggedUnion.setLong]

theorem moveAssign_eq : moveAssign string other heap = (destroy string heap).map fun heap =>
    ((takeOver string other).1, (takeOver string other).2, heap) := by
  cases mine : string.isLong with
  | false => cases mode : other.isLong <;> simp [moveAssign, destroy, takeOver, mine, mode, TaggedUnion.setLong]
  | true =>
      cases released : dealloc heap string.heapPtr <;> cases mode : other.isLong <;>
        simp [moveAssign, destroy, takeOver, mine, mode, released, TaggedUnion.setLong]

structure TakenOver (blocks : Blocks) (other : TaggedUnion) (text : List UInt8)
    (result : TaggedUnion × TaggedUnion) : Prop where
  denotes : Denotes stackCap blocks result.1 text
  same : ∀ pointer, result.1.Owns pointer ↔ other.Owns pointer
  short : result.2.isLong = false
  left : Denotes stackCap blocks result.2 (movedFrom text)

theorem takeOver_effect {blocks : Blocks} (string : TaggedUnion) (denotes : Denotes stackCap blocks other text) :
    TakenOver blocks other text (takeOver string other) := by
  cases mode : other.isLong with
  | false =>
      have inline := (denotes.short mode).1
      rw [takeOver, if_pos mode]
      refine ⟨denotes.assignStack mode, fun pointer => ?_, mode, by rwa [movedFrom, if_pos inline]⟩
      simp [TaggedUnion.Owns, mode, TaggedUnion.assignStack, TaggedUnion.setLong]
  | true =>
      have beyond := denotes.long_iff.mp mode
      obtain ⟨became, same⟩ := denotes.assignHeap mode
      rw [takeOver, if_neg (by simp [mode])]
      refine ⟨became, same, rfl, ?_⟩
      rw [movedFrom, if_neg (by omega)]
      exact .emptied rfl (by simp [clear, stackCap]) (by simp [clear])

theorem copyAssign_effect (storage : Nat → UInt8) (denotes : Denotes stackCap heap.blocks string bytes)
    (source : Denotes stackCap heap.blocks other text) (valid : Answers heap.blocks grant) :
    ∃ outcome, copyAssign storage string other grant heap = some outcome ∧
      Effect (some string) heap text outcome := by
  obtain ⟨outcome, completes, effect⟩ := copyConstruct_effect storage source valid
  rw [copyAssign, completes]
  cases effect with
  | threw => exact ⟨_, rfl, .threw⟩
  | done temp mid copied made counted =>
      -- the copy is made of a new block, so that it leaves alone the one that is about to go
      have apart : ∀ pointer, string.Owns pointer → ¬ OwnedAt (some temp) pointer := by
        intro pointer owns mine
        rcases made.taken pointer mine with nothing | fresh
        · exact ownedAt_none nothing
        · obtain ⟨block, live⟩ := denotes.live owns
          cases fresh.symm.trans live
      have still := denotes.frame fun pointer owns => made.frame pointer ownedAt_none (apart pointer owns)
      obtain ⟨after, destroyed, gone, counts⟩ := destroy_effect still
      obtain ⟨became, same, short, _⟩ := takeOver_effect string copied
      have released : destroy (takeOver string temp).2 after = some after := by simp [destroy, short]
      simp only [moveAssign_eq, destroyed, released, Option.bind_eq_bind, Option.bind_some, Option.map_some]
      refine ⟨_, rfl, .done _ after (became.frame fun pointer owns => ?_) (made.beside gone fun pointer => ?_) ?_⟩
      · refine gone.frame pointer (fun held => ?_) ownedAt_none
        exact apart pointer (ownedAt_some.mp held) (ownedAt_some.mpr ((same pointer).mp owns))
      · rw [ownedAt_some, ownedAt_some, same]
      · rw [counts, became.weight, ← copied.weight, ← counted]
        exact (UInt64.add_zero _).symm

end HundredDays.SsoString
