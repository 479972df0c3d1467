import HundredDays.Semantics.Run
import HundredDays.SsoString.Failure

namespace HundredDays.SsoString

open HundredDays.Memory HundredDays.Semantics

/-! Runs of `sso_string` calls of which any may be refused memory.

`sso_append` keeps the old representation until the new one is there.  `sso_init`
and `sso_copy` do not: refused a heap buffer, they leave an object that is in heap
mode and has none.
-/

variable {ι : Type*} [DecidableEq ι]

/-- What a call that does not return NULL makes of the strings. -/
def Call.apply (texts : ι → List UInt8) : Call ι → ι → List UInt8
  | .free (some ss) => Function.update texts ss []
  | .init (some ss) str _ => Function.update texts ss (str.getD CString.empty).bytes
  | .append (some ss) str _ => Function.update texts ss (texts ss ++ (str.getD CString.empty).bytes)
  | .copy (some dist) (some src) _ => Function.update texts dist (texts src)
  | _ => texts

/-- A program, and what its objects should denote: what they denoted before, after a
call that returned NULL. -/
structure Ledger (ι : Type*) where
  strings : Strings ι
  texts : ι → List UInt8

namespace Ledger

def start : Ledger ι := { strings := Strings.start, texts := fun _ => [] }

def step (ledger : Ledger ι) (call : Call ι) : Option (Ledger ι) :=
  (ledger.strings.step call).map fun (returned, strings) =>
    { strings, texts := if returned then call.apply ledger.texts else ledger.texts }

/-- The allocator answers with addresses that are free, or become free in the call. -/
def Answered (ledger : Ledger ι) : Call ι → Prop
  | .init (some ss) _ grant => Offers ledger.strings.heap.blocks (ledger.strings.objects ss) grant
  | .append (some ss) _ grant => Offers ledger.strings.heap.blocks (ledger.strings.objects ss) grant
  | .copy (some dist) _ grant => Offers ledger.strings.heap.blocks (ledger.strings.objects dist) grant
  | _ => True

/-- `sso_init` and `sso_copy` are not refused a heap buffer, and `sso_append` does not
overflow. -/
def Spared (ledger : Ledger ι) : Call ι → Prop
  | .init (some _) str grant => (str.getD CString.empty).strlen ≤ ssoStackBufferCap ∨ grant ≠ none
  | .append (some ss) (some str) grant => Appendable (ledger.texts ss) str grant
  | .copy (some dist) (some src) grant =>
      dist = src ∨ (ledger.strings.objects src).isLong = false ∨ grant ≠ none
  | _ => True

/-- Every object is valid, and every block that is live has exactly one owner. -/
structure Sound (ledger : Ledger ι) : Prop where
  value : ∀ each, ssoGetCstr ledger.strings.heap.blocks (ledger.strings.objects each)
    ((ledger.texts each).length + 1) = some (ledger.texts each ++ [0])
  heap : ∀ each, (ledger.strings.objects each).isLong = true → ∃ pointer block,
    (ledger.strings.objects each).heapPtr = some pointer ∧ ledger.strings.heap.blocks pointer = some block ∧
      (ledger.strings.objects each).heapSize = (ledger.texts each).length ∧
      (ledger.strings.objects each).heapSize ≤ (ledger.strings.objects each).heapCapacity ∧
      (ledger.strings.objects each).heapCapacity < block.size ∧
      block.byte (ledger.strings.objects each).heapSize = 0
  stack : ∀ each, (ledger.strings.objects each).isLong = false →
    (ledger.strings.objects each).stackSize ssoStackBufferCap = (ledger.texts each).length ∧
      (ledger.texts each).length ≤ ssoStackBufferCap
  apart : ∀ each other pointer, (ledger.strings.objects each).Owns pointer →
    (ledger.strings.objects other).Owns pointer → each = other
  kept : ∀ pointer, ledger.strings.heap.blocks pointer ≠ none ↔
    ∃ each, (ledger.strings.objects each).Owns pointer

def Kept (ledger : Ledger ι) : Prop :=
  Owned ssoStackBufferCap (fun each => some (ledger.strings.objects each)) ledger.strings.heap.blocks
    fun each => some (ledger.texts each)

variable {ledger : Ledger ι} {target source : ι} {text : List UInt8}

omit [DecidableEq ι] in
theorem start_kept : (start : Ledger ι).Kept where
  denotes := fun _ => .some (.emptied rfl rfl rfl)
  apart := by
    intro each other string second pointer here _ owns
    cases here
    cases owns.1
  kept := by
    intro pointer block absent
    cases absent

omit [DecidableEq ι] in
theorem Kept.denotes (kept : ledger.Kept) (each : ι) :
    Denotes ssoStackBufferCap ledger.strings.heap.blocks (ledger.strings.objects each) (ledger.texts each) :=
  Option.rel_some_some.mp (Owned.denotes kept each)

/-- One object has been replaced by another that denotes the text. -/
theorem Kept.replace {string : TaggedUnion} {heap : Tracked} (kept : ledger.Kept)
    (denotes : Denotes ssoStackBufferCap heap.blocks string text)
    (replaced : Replaced (some (ledger.strings.objects target)) (some string) ledger.strings.heap.blocks heap.blocks) :
    Kept ⟨⟨Function.update ledger.strings.objects target string, heap⟩, Function.update ledger.texts target text⟩ := by
  have both := Owned.replace kept (.some denotes) replaced
  rw [Kept]
  convert both using 1
  · exact Function.comp_update some ledger.strings.objects target string
  · exact Function.comp_update some ledger.texts target text

theorem Kept.finish {call : Call ι} {outcome : Bool × TaggedUnion × Tracked} (kept : ledger.Kept)
    (completes : ledger.strings.step call = some (ledger.strings.finish target outcome))
    (applied : call.apply ledger.texts = Function.update ledger.texts target text)
    (effect : Outcome (ledger.strings.objects target) ledger.strings.heap text outcome) :
    ∃ after, ledger.step call = some after ∧ after.Kept := by
  refine ⟨_, by rw [step, completes, Option.map_some], ?_⟩
  cases effect with
  | refused heap same =>
      simp only [Strings.finish, Function.update_eq_self, Bool.false_eq_true, if_false]
      rw [Kept, same]
      exact kept
  | done string heap denotes replaced =>
      simp only [Strings.finish, if_true, applied]
      exact kept.replace denotes replaced

theorem Kept.unchanged {call : Call ι} {returned : Bool} (kept : ledger.Kept)
    (completes : ledger.strings.step call = some (returned, ledger.strings))
    (applied : (if returned then call.apply ledger.texts else ledger.texts) = ledger.texts) :
    ∃ after, ledger.step call = some after ∧ after.Kept := by
  refine ⟨_, by rw [step, completes, Option.map_some], ?_⟩
  simp only [applied]
  exact kept

theorem Kept.step {call : Call ι} (kept : ledger.Kept) (answered : ledger.Answered call) (spared : ledger.Spared call) :
    ∃ after, ledger.step call = some after ∧ after.Kept := by
  cases call with
  | free ss =>
      cases ss with
      | none => exact kept.unchanged rfl rfl
      | some ss =>
          obtain ⟨freed, heap, completes, short, denotes, gone⟩ := ssoFree_effect (kept.denotes ss)
          have emptied : Outcome (ledger.strings.objects ss) ledger.strings.heap [] (true, freed, heap) :=
            .done freed heap denotes (gone.trans (.keep fun place => iff_of_false (not_ownedAt short place) ownedAt_none))
          exact kept.finish (by rw [Strings.step, completes, Option.map_some]) rfl emptied
  | init ss str grant =>
      cases ss with
      | none => exact kept.unchanged rfl rfl
      | some ss =>
          obtain ⟨outcome, completes, effect⟩ := ssoInit_effect (kept.denotes ss) answered spared
          exact kept.finish (by rw [Strings.step, completes, Option.map_some]) rfl effect
  | append ss str grant =>
      cases ss with
      | none => exact kept.unchanged rfl rfl
      | some ss =>
          cases str with
          | none =>
              refine kept.finish ?_ rfl (.refused ledger.strings.heap rfl)
              rfl
          | some str =>
              obtain ⟨outcome, completes, effect⟩ := ssoAppend_effect (kept.denotes ss) answered spared
              exact kept.finish (by rw [Strings.step, completes, Option.map_some]) rfl effect
  | copy dist src grant =>
      cases dist with
      | none => exact kept.unchanged rfl rfl
      | some dist =>
          cases src with
          | none => exact kept.unchanged rfl rfl
          | some src =>
              by_cases same : dist = src
              · subst same
                exact kept.unchanged (if_pos rfl) (Function.update_eq_self ..)
              · have apart : ∀ pointer, (ledger.strings.objects dist).Owns pointer →
                    ¬ (ledger.strings.objects src).Owns pointer :=
                  fun pointer owns also => same (Owned.apart kept dist src _ _ pointer rfl rfl owns also)
                obtain ⟨outcome, completes, effect⟩ := ssoCopy_effect (kept.denotes dist) (kept.denotes src) apart
                  answered (spared.resolve_left same)
                exact kept.finish (by rw [Strings.step, if_neg same, completes, Option.map_some]) rfl effect

omit [DecidableEq ι] in
theorem Kept.sound (kept : ledger.Kept) : ledger.Sound where
  value := by
    intro each
    have denotes := kept.denotes each
    have length : (ledger.texts each ++ [0]).length = (ledger.texts each).length + 1 := by simp
    rw [← length]
    cases denotes with
    | stack short _ _ bytes => simp only [ssoGetCstr, short, Bool.false_eq_true, if_false, bytes.peek]
    | heap pointer block long _ leads live _ room allocated _ bytes =>
        simp only [ssoGetCstr, long, if_true, leads, Option.bind_some]
        exact Blocks.read_live live (by omega) bytes
  heap := by
    intro each long
    cases kept.denotes each with
    | stack short => simp [long] at short
    | heap pointer block _ _ leads live size room allocated _ bytes =>
        refine ⟨pointer, block, leads, live, size, size.trans_le room, by omega, ?_⟩
        rw [size, bytes _ (by simp)]
        simp
  stack := by
    intro each short
    obtain ⟨fits, size, _⟩ := (kept.denotes each).short short
    exact ⟨size, fits⟩
  apart := fun each other pointer owns also => Owned.apart kept each other _ _ pointer rfl rfl owns also
  kept := by
    intro pointer
    constructor
    · intro live
      obtain ⟨block, found⟩ := Option.ne_none_iff_exists'.mp live
      obtain ⟨each, string, here, owns⟩ := Owned.kept kept pointer block found
      cases here
      exact ⟨each, owns⟩
    · rintro ⟨each, owns⟩
      obtain ⟨block, live⟩ := (kept.denotes each).live owns
      simp [live]

/-- In a run whose calls are all spared, whichever other requests fail, no call steps
outside a live block or releases one twice, and in the end all objects are sound. -/
theorem failures_survived {calls : List (Call ι)}
    (meets : Meets step (fun ledger call => ledger.Answered call ∧ ledger.Spared call) (start : Ledger ι) calls) :
    ∃ ledger, run step start calls = some ledger ∧ ledger.Sound := by
  obtain ⟨ledger, completed, kept⟩ := run_completes_meeting Kept
    (fun _ _ kept permitted => kept.step permitted.1 permitted.2) start_kept meets
  exact ⟨ledger, completed, kept.sound⟩

/-- Fifteen characters, one too many for the stack buffer. -/
def fifteen : CString := ⟨List.replicate 15 97, by decide, by decide⟩

def junk : Nat → UInt8 := fun index => UInt8.ofNat index

/-- The second call is refused its `realloc`. -/
theorem failures_survived_refused : ∃ ledger : Ledger Bool,
    run step start [.init (some true) (some fifteen) (some (4096, junk)), .append (some true) (some fifteen) none] =
      some ledger ∧ ledger.Sound := by
  refine failures_survived ⟨⟨?_, .inr nofun⟩, fun next stepped => ?_⟩
  · intro pointer held answered
    cases answered
    exact ⟨by decide, by decide, .inl rfl⟩
  cases stepped
  exact ⟨⟨nofun, .inr (by decide)⟩, fun _ _ => trivial⟩

/-- A call that returned NULL and left its object in heap mode without a buffer. -/
theorem damaged {call : Call ι} {left : TaggedUnion} {heap : Tracked} (long : left.isLong = true)
    (null : left.heapPtr = none)
    (completes : ledger.strings.step call = some (ledger.strings.finish target (false, left, heap))) :
    ∃ after, ledger.step call = some after ∧ after.texts = ledger.texts ∧ ¬ after.Sound := by
  refine ⟨⟨⟨Function.update ledger.strings.objects target left, heap⟩, ledger.texts⟩,
    by rw [step, completes]; rfl, rfl, fun sound => ?_⟩
  have object : Function.update ledger.strings.objects target left target = left := Function.update_self ..
  obtain ⟨pointer, block, leads, _⟩ := sound.heap target ((congrArg TaggedUnion.isLong object).trans long)
  have found := (congrArg TaggedUnion.heapPtr object).symm.trans leads
  cases null.symm.trans found

theorem refused_init_damages {str : Option CString} (kept : ledger.Kept)
    (beyond : ssoStackBufferCap < (str.getD CString.empty).strlen) :
    ∃ after, ledger.step (.init (some target) str none) = some after ∧ after.texts = ledger.texts ∧ ¬ after.Sound := by
  obtain ⟨left, heap, completes, long, null⟩ := ssoInit_refused (kept.denotes target) beyond
  exact damaged long null (by rw [Strings.step, completes, Option.map_some])

theorem refused_copy_damages (kept : ledger.Kept) (differs : target ≠ source)
    (long : (ledger.strings.objects source).isLong = true) :
    ∃ after, ledger.step (.copy (some target) (some source) none) = some after ∧ after.texts = ledger.texts ∧
      ¬ after.Sound := by
  obtain ⟨left, heap, completes, mode, null⟩ := ssoCopy_refused (kept.denotes target) long
  exact damaged mode null (by rw [Strings.step, if_neg differs, completes, Option.map_some])

/-- Already the first call can do it. -/
theorem refused_init_damages_zeroed : ∃ after : Ledger Unit,
    run step start [.init (some ()) (some fifteen) none] = some after ∧
      (start : Ledger Unit).Answered (.init (some ()) (some fifteen) none) ∧
      after.texts () = [] ∧ ¬ after.Sound := by
  have damages : ∃ after, (start : Ledger Unit).step (.init (some ()) (some fifteen) none) = some after ∧
      after.texts = (start : Ledger Unit).texts ∧ ¬ after.Sound := refused_init_damages start_kept (by decide)
  obtain ⟨after, stepped, same, unsound⟩ := damages
  exact ⟨after, run_cons_iff.mpr ⟨after, stepped, rfl⟩, nofun, congrFun same (), unsound⟩


end Ledger

end HundredDays.SsoString
