import HundredDays.Data.Census
import HundredDays.Semantics.Run
import HundredDays.SsoString.Operations

namespace HundredDays.SsoString

open HundredDays.Memory HundredDays.Semantics HundredDays.Data SSOString

/-! Programs over `SSOString` beside the same programs over immutable strings.

A program may do anything with its objects that respects their lifetimes.  What
throws changes no string.
-/

variable {ι : Type*} [DecidableEq ι]

/-- What the operation does to strings that are values. -/
def Action.apply (texts : ι → Option (List UInt8)) : Action ι → ι → Option (List UInt8)
  | .default target _ => Function.update texts target (some [])
  | .construct target str _ _ => Function.update texts target (some (str.getD CString.empty).bytes)
  | .copy target source _ _ => Function.update texts target (texts source)
  | .move target source _ =>
      Function.update (Function.update texts target (texts source)) source ((texts source).map movedFrom)
  | .copyAssign target source _ _ => Function.update texts target (texts source)
  | .moveAssign target source =>
      if target = source then texts
      else Function.update (Function.update texts target (texts source)) source ((texts source).map movedFrom)
  | .append target str _ =>
      Function.update texts target ((texts target).map fun text => str.elim text (appended text))
  | .destroy target => Function.update texts target none

/-- A program, what its objects should denote, and how many operations threw. -/
structure Session (ι : Type*) where
  program : Program ι
  texts : ι → Option (List UInt8)
  thrown : Nat

namespace Session

def start : Session ι := { program := Program.start, texts := fun _ => none, thrown := 0 }

def record (session : Session ι) (texts : ι → Option (List UInt8)) : Bool × Program ι → Session ι
  | (true, program) => { program, texts, thrown := session.thrown }
  | (false, program) => { program, texts := session.texts, thrown := session.thrown + 1 }

def step (session : Session ι) (action : Action ι) : Option (Session ι) :=
  (session.program.step action).map (session.record (action.apply session.texts))

/-- What the caller and the allocator owe an operation. -/
def Permitted (session : Session ι) : Action ι → Prop
  | .default target _ => session.program.objects target = none
  | .construct target _ _ grant => session.program.objects target = none ∧ Answers session.program.heap.blocks grant
  | .copy target source _ grant =>
      session.program.objects target = none ∧ session.program.objects source ≠ none ∧
        Answers session.program.heap.blocks grant
  | .move target source _ => session.program.objects target = none ∧ session.program.objects source ≠ none
  | .copyAssign target source _ grant =>
      session.program.objects target ≠ none ∧ session.program.objects source ≠ none ∧
        Answers session.program.heap.blocks grant
  | .moveAssign target source => session.program.objects target ≠ none ∧ session.program.objects source ≠ none
  | .append target str grant =>
      session.program.objects target ≠ none ∧ Answers session.program.heap.blocks grant ∧
        ∀ text ∈ session.texts target, ∀ characters ∈ str, Extensible text characters
  | .destroy target => session.program.objects target ≠ none

variable [Fintype ι]

/-- The objects own the blocks, and the counters tell the objects in heap mode and
the requests that failed. -/
structure Kept (session : Session ι) : Prop where
  owned : Owned stackCap session.program.objects session.program.heap.blocks session.texts
  counted : session.program.heap.outstanding =
    UInt64.ofNat (session.thrown + census longWeight session.program.objects)

variable {session : Session ι} {target source : ι} {text : List UInt8} {string : TaggedUnion}

omit [DecidableEq ι] in
theorem start_kept : Kept (start : Session ι) where
  owned := .empty
  counted := by simp [start, Program.start, Allocator.outstanding, census, longWeight]

theorem Kept.finish {outcome : Option TaggedUnion × Allocator} (kept : session.Kept)
    (effect : Effect (session.program.objects target) session.program.heap text outcome) :
    (session.record (Function.update session.texts target (some text)) (session.program.finish target outcome)).Kept := by
  cases effect with
  | threw =>
      refine ⟨kept.owned, ?_⟩
      have counted := kept.counted
      simp only [Allocator.outstanding, record, Program.finish, UInt64.ofNat_add] at counted ⊢
      grind
  | done string after denotes replaced counts =>
      refine ⟨kept.owned.replace (.some denotes) replaced, ?_⟩
      have total := congrArg UInt64.ofNat
        (census_update longWeight session.program.objects target (some string))
      have counted := kept.counted
      simp only [record, Program.finish, UInt64.ofNat_add] at total counted ⊢
      grind

omit [DecidableEq ι] in
theorem Kept.present (kept : session.Kept) (present : session.program.objects target ≠ none) :
    ∃ string text, session.program.objects target = some string ∧ session.texts target = some text ∧
      Denotes stackCap session.program.heap.blocks string text := by
  obtain ⟨string, here⟩ := Option.ne_none_iff_exists'.mp present
  obtain ⟨text, seen, denotes⟩ := kept.owned.denotes_some here
  exact ⟨string, text, here, seen, denotes⟩

theorem Kept.destroyed (kept : session.Kept) (here : session.program.objects target = some string)
    (denotes : Denotes stackCap session.program.heap.blocks string text) :
    ∃ after, destroy string session.program.heap = some after ∧
      Kept { session with
        program := { objects := Function.update session.program.objects target none, heap := after }
        texts := Function.update session.texts target none } := by
  obtain ⟨after, completes, gone, counts⟩ := destroy_effect denotes
  have total := congrArg UInt64.ofNat (census_update longWeight session.program.objects target none)
  have counted := kept.counted
  refine ⟨after, completes, kept.owned.replace .none (by rwa [here]), ?_⟩
  simp only [here, longWeight, UInt64.ofNat_add] at total counts counted ⊢
  grind

theorem Kept.tookOver {other : TaggedUnion} (kept : session.Kept) (string : TaggedUnion) (differs : target ≠ source)
    (vacant : session.program.objects target = none) (there : session.program.objects source = some other)
    (seen : session.texts source = some text) :
    Kept { session with
      program := (session.program.moved target source (takeOver string other).1 (takeOver string other).2
        session.program.heap).2
      texts := Function.update (Function.update session.texts target (session.texts source)) source
        ((session.texts source).map movedFrom) } := by
  obtain ⟨found, seen', denotes⟩ := kept.owned.denotes_some there
  cases seen.symm.trans seen'
  obtain ⟨became, same, short, left⟩ := takeOver_effect string denotes
  rw [seen]
  refine ⟨kept.owned.transfer differs vacant there became same short left, ?_⟩
  -- the block changes hands, so that as many objects are in heap mode as before
  have first := census_update longWeight session.program.objects target (some (takeOver string other).1)
  have second := census_update longWeight
    (Function.update session.program.objects target (some (takeOver string other).1)) source
    (some (takeOver string other).2)
  have light : longWeight (some (takeOver string other).2) = 0 := by simp [longWeight, short]
  have even : longWeight (some (takeOver string other).1) = longWeight (some other) := by
    rw [became.weight, denotes.weight]
  rw [Function.update_of_ne differs.symm, there, light] at second
  rw [vacant, even] at first
  have total : census longWeight (Function.update
      (Function.update session.program.objects target (some (takeOver string other).1)) source
      (some (takeOver string other).2)) = census longWeight session.program.objects := by
    simp only [longWeight] at first second
    omega
  simp only [Program.moved, total]
  exact kept.counted

/-- An operation on one object, by what it makes of the text. -/
theorem Kept.finished {action : Action ι} {outcome : Option TaggedUnion × Allocator} (kept : session.Kept)
    (completes : session.program.step action = some (session.program.finish target outcome))
    (applied : action.apply session.texts = Function.update session.texts target (some text))
    (effect : Effect (session.program.objects target) session.program.heap text outcome) :
    ∃ after, session.step action = some after ∧ after.Kept := by
  refine ⟨_, by rw [Session.step, completes, Option.map_some], ?_⟩
  rw [applied]
  exact kept.finish effect

theorem Kept.unchanged {action : Action ι} (kept : session.Kept)
    (completes : session.program.step action = some (true, session.program))
    (applied : action.apply session.texts = session.texts) :
    ∃ after, session.step action = some after ∧ after.Kept := by
  refine ⟨_, by rw [Session.step, completes, Option.map_some], ?_⟩
  rw [applied]
  exact ⟨kept.owned, kept.counted⟩

theorem Kept.step {action : Action ι} (kept : session.Kept) (permitted : session.Permitted action) :
    ∃ after, session.step action = some after ∧ after.Kept := by
  cases action with
  | default target storage =>
      have vacant : session.program.objects target = none := permitted
      exact kept.finished rfl rfl (by rw [vacant]; exact default_effect)
  | construct target str storage grant =>
      obtain ⟨vacant, valid⟩ := permitted
      obtain ⟨outcome, completes, effect⟩ := construct_effect storage str valid
      exact kept.finished (by rw [Program.step, completes, Option.map_some]) rfl (by rwa [vacant])
  | copy target source storage grant =>
      obtain ⟨vacant, present, valid⟩ := permitted
      obtain ⟨other, text, there, seen, denotes⟩ := kept.present present
      obtain ⟨outcome, completes, effect⟩ := copyConstruct_effect storage denotes valid
      refine kept.finished ?_ (by rw [Action.apply, seen]) (by rwa [vacant])
      rw [Program.step, there, Option.bind_some, completes, Option.map_some]
  | move target source storage =>
      obtain ⟨vacant, present⟩ := permitted
      obtain ⟨other, text, there, seen, denotes⟩ := kept.present present
      have differs : target ≠ source := by
        rintro rfl
        exact present vacant
      refine ⟨_, ?_, kept.tookOver ⟨other.isLong, storage⟩ differs vacant there seen⟩
      rw [Session.step, Program.step, there, Option.map_some, moveConstruct_eq]
      rfl
  | copyAssign target source storage grant =>
      obtain ⟨alive, present, valid⟩ := permitted
      obtain ⟨string, bytes, here, held, became⟩ := kept.present alive
      obtain ⟨other, text, there, seen, denotes⟩ := kept.present present
      by_cases same : target = source
      · subst same
        refine kept.unchanged ?_ (Function.update_eq_self ..)
        simp [Program.step, here]
      · obtain ⟨outcome, completes, effect⟩ := copyAssign_effect storage became denotes valid
        refine kept.finished ?_ (by rw [Action.apply, seen]) (by rwa [here])
        simp [Program.step, here, there, same, completes]
  | moveAssign target source =>
      obtain ⟨alive, present⟩ := permitted
      obtain ⟨string, bytes, here, held, became⟩ := kept.present alive
      obtain ⟨other, text, there, seen, denotes⟩ := kept.present present
      by_cases same : target = source
      · subst same
        refine kept.unchanged ?_ (if_pos rfl)
        simp [Program.step, here]
      · obtain ⟨after, completes, without⟩ := kept.destroyed here became
        have moved := without.tookOver string same (Function.update_self ..)
          ((Function.update_of_ne (Ne.symm same) _ _).trans there)
          ((Function.update_of_ne (Ne.symm same) _ _).trans seen)
        refine ⟨_, ?_, moved⟩
        simp [Session.step, Program.step, here, there, same, moveAssign_eq, completes, record, Action.apply,
          Program.moved, Function.update_of_ne (Ne.symm same)]
  | append target str grant =>
      obtain ⟨alive, valid, fits⟩ := permitted
      obtain ⟨string, text, here, held, denotes⟩ := kept.present alive
      cases str with
      | none =>
          have same : Effect (some string) session.program.heap text (some string, session.program.heap) :=
            .done string _ denotes (.keep fun _ => Iff.rfl) rfl
          exact kept.finished (by rw [Program.step, here]; rfl) (by rw [Action.apply, held]; rfl) (by rwa [here])
      | some characters =>
          obtain ⟨outcome, completes, effect⟩ := append_effect denotes valid (fits text held characters rfl)
          refine kept.finished ?_ (by rw [Action.apply, held]; rfl) (by rwa [here])
          rw [Program.step, here, Option.bind_some, completes, Option.map_some]
  | destroy target =>
      obtain ⟨string, text, here, held, denotes⟩ := kept.present permitted
      obtain ⟨after, completes, destroyed⟩ := kept.destroyed here denotes
      refine ⟨_, ?_, destroyed⟩
      rw [Session.step, Program.step, here, Option.bind_some, completes]
      rfl

/-- What a caller can observe of the objects, of the heap and of the counters. -/
structure Sound (session : Session ι) : Prop where
  alive : ∀ each, session.program.objects each = none ↔ session.texts each = none
  value : ∀ each string text, session.program.objects each = some string → session.texts each = some text →
    length string = text.length ∧
      cStr session.program.heap.blocks string (length string + 1) = some (text ++ [0])
  room : ∀ each string, session.program.objects each = some string → length string ≤ capacity string
  mode : ∀ each string, session.program.objects each = some string →
    (string.isLong = true ↔ stackCap < length string)
  apart : ∀ each other string second, session.program.objects each = some string →
    session.program.objects other = some second → each ≠ other → string.isLong = true → second.isLong = true →
      string.heapPtr ≠ second.heapPtr
  kept : ∀ pointer, session.program.heap.blocks pointer ≠ none ↔
    ∃ each string, session.program.objects each = some string ∧ string.Owns pointer
  counted : session.program.heap.mallocCount - session.program.heap.freeCount =
    UInt64.ofNat (session.thrown + census longWeight session.program.objects)

theorem length_denotes {blocks : Blocks} (denotes : Denotes stackCap blocks string text) :
    length string = text.length := by
  cases denotes with
  | stack short _ size => simp [length, short, size]
  | heap pointer block long _ _ _ size => simp [length, long, size]

theorem cStr_denotes {blocks : Blocks} (denotes : Denotes stackCap blocks string text) :
    cStr blocks string (text ++ [0]).length = some (text ++ [0]) := by
  cases denotes with
  | stack short _ _ bytes => simp only [cStr, short, Bool.false_eq_true, if_false, bytes.peek]
  | heap pointer block long _ leads live _ room allocated _ bytes =>
      have inside : (text ++ [0]).length ≤ block.size := by
        rw [List.length_append, List.length_singleton]
        omega
      simp only [cStr, long, if_true, leads, Option.bind_some]
      exact Blocks.read_live live inside bytes

omit [DecidableEq ι] in
theorem Kept.sound (kept : session.Kept) : session.Sound where
  alive := fun each => kept.owned.texts_none
  value := by
    intro each string text here seen
    obtain ⟨found, shown, denotes⟩ := kept.owned.denotes_some here
    cases seen.symm.trans shown
    have read := cStr_denotes denotes
    rw [List.length_append, List.length_singleton] at read
    exact ⟨length_denotes denotes, by rw [length_denotes denotes, read]⟩
  room := by
    intro each string here
    obtain ⟨text, _, denotes⟩ := kept.owned.denotes_some here
    rw [length_denotes denotes]
    cases denotes with
    | stack short fits => simpa [capacity, short] using fits
    | heap pointer block long _ _ _ _ room => simpa [capacity, long] using room
  mode := by
    intro each string here
    obtain ⟨text, _, denotes⟩ := kept.owned.denotes_some here
    rw [length_denotes denotes]
    exact denotes.long_iff
  apart := by
    intro each other string second here there differs long also shared
    obtain ⟨text, _, denotes⟩ := kept.owned.denotes_some here
    obtain ⟨pointer, owns⟩ := denotes.owner long
    exact differs (kept.owned.apart each other string second pointer here there owns ⟨also, shared ▸ owns.2⟩)
  kept := by
    intro pointer
    constructor
    · intro live
      obtain ⟨block, found⟩ := Option.ne_none_iff_exists'.mp live
      exact kept.owned.kept pointer block found
    · rintro ⟨each, string, here, owns⟩
      obtain ⟨block, live⟩ := kept.owned.live here owns
      simp [live]
  counted := kept.counted

/-- Whatever is done to any number of objects, and whichever requests fail, no
operation steps outside a live block or releases one twice, and every object has
the value that immutable strings would have. -/
theorem value_semantics {actions : List (Action ι)} (meets : Meets step Permitted (start : Session ι) actions) :
    ∃ session, run step start actions = some session ∧ session.Sound := by
  obtain ⟨session, completed, kept⟩ := run_completes_meeting Kept
    (fun _ _ kept permitted => kept.step permitted) start_kept meets
  exact ⟨session, completed, kept.sound⟩

def letters (count : Nat) (fits : count + 1 < 2 ^ 64) : CString where
  bytes := List.replicate count 97
  nonzero := fun inside => absurd (List.eq_of_mem_replicate inside) (by decide)
  fits := by rwa [List.length_replicate]

def sixteen : CString := letters 16 (by decide)

def zeros : Nat → UInt8 := fun _ => 0

theorem value_semantics_moved : ∃ session : Session Bool,
    run step start [.construct false (some sixteen) zeros (some (4096, zeros)), .move true false zeros,
      .append false (some sixteen) none] = some session ∧ session.Sound := by
  refine value_semantics ⟨⟨rfl, ?_⟩, fun next stepped => ?_⟩
  · intro pointer junk granted
    cases granted
    exact ⟨by decide, by decide, rfl⟩
  cases stepped
  refine ⟨⟨rfl, nofun⟩, fun next stepped => ?_⟩
  cases stepped
  refine ⟨⟨nofun, nofun, ?_⟩, fun _ _ => trivial⟩
  intro text seen characters given
  cases seen
  cases given
  exact .inl (by decide)

/-- With `2 ^ 63` characters the capacity overflows, and they are copied beyond the
end of the buffer. -/
theorem append_overflow {str : CString} (huge : str.strlen = 2 ^ 63) :
    run step (start : Session Unit) [.default () zeros, .append () (some str) (some (4096, zeros))] = none := by
  have length : str.terminated.length = 2 ^ 63 + 1 := by
    rw [← huge, CString.terminated, CString.strlen, List.length_append, List.length_singleton]
  have stopped : append (SSOString.default zeros) (some str) (some (4096, zeros)) ⟨fun _ => none, 0, 0⟩ = none := by
    simp [append, appendStack, huge, stackCap, SSOString.default, clear, TaggedUnion.stackSize, alloc, Blocks.malloc,
      memcpy, Blocks.write, peek, length]
  let next : Session Unit := start.record (Function.update start.texts () (some []))
    (Program.start.finish () (some (SSOString.default zeros), ⟨fun _ => none, 0, 0⟩))
  have first : step (start : Session Unit) (.default () zeros) = some next := rfl
  have second : next.program.step (.append () (some str) (some (4096, zeros))) = none := by
    rw [Program.step]
    exact congrArg (Option.map _) stopped
  rw [run, first, Option.bind_some, run, step, second]
  rfl

/-- A request that fails is counted too, and an overflow is not noticed. -/
theorem request_counted_and_overflow :
    (∃ session : Session Unit, run step start [.construct () (some sixteen) zeros none] = some session ∧
      session.program.heap.mallocCount - session.program.heap.freeCount ≠
        UInt64.ofNat (census longWeight session.program.objects)) ∧
    ∃ str : CString,
      run step (start : Session Unit) [.default () zeros, .append () (some str) (some (4096, zeros))] = none := by
  refine ⟨⟨_, rfl, by decide⟩, letters (2 ^ 63) (by decide), append_overflow ?_⟩
  rw [CString.strlen, letters, List.length_replicate]

end Session

end HundredDays.SsoString
