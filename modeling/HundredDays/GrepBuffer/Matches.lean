import HundredDays.Data.Occurrences
import HundredDays.GrepBuffer.Model
import Mathlib.Data.List.TakeWhile

namespace HundredDays.GrepBuffer

open HundredDays.Data

/-! What is printed, for every buffer.

The loop keeps the number and the start of the line that it is in, so that what it
prints depends on the place of the match alone.
-/

variable {buf target bytes text : List UInt8} {ptr position first last rounds : Nat} {scan : Scan}

/-- Where the line of a position starts: behind the newline before it. -/
def lineStart (buf : List UInt8) (position : Nat) : Nat :=
  position - ((buf.take position).reverse.takeWhile (· ≠ newline)).length

/-- The line that a position is in. -/
def lineOf (buf : List UInt8) (position : Nat) : List UInt8 :=
  (buf.drop (lineStart buf position)).takeWhile (· ≠ newline)

def lineNumber (buf : List UInt8) (position : Nat) : Nat := (buf.take position).count newline + 1

/-- What the code prints for a match. -/
def printed (buf : List UInt8) (position : Nat) : Option Output :=
  (boundedString (buf.drop (lineStart buf position)) (int (lineOf buf position).length)).map
    (.line (lineNumber buf position))

theorem line_next (inside : position < buf.length) (ends : buf[position] = newline) :
    lineStart buf (position + 1) = position + 1 ∧ lineNumber buf (position + 1) = lineNumber buf position + 1 := by
  have split := List.take_succ_eq_append_getElem inside
  rw [ends] at split
  rw [lineStart, lineNumber, lineNumber, split]
  simp

theorem line_same (inside : position < buf.length) (other : buf[position] ≠ newline) :
    lineStart buf (position + 1) = lineStart buf position ∧ lineNumber buf (position + 1) = lineNumber buf position := by
  have split := List.take_succ_eq_append_getElem inside
  have again : decide (buf[position] ≠ newline) = true := decide_eq_true other
  constructor
  · rw [lineStart, lineStart, split]
    simp only [List.reverse_append, List.reverse_singleton, List.singleton_append, List.takeWhile_cons, again, if_true,
      List.length_cons, Nat.add_sub_add_right]
  · rw [lineNumber, lineNumber, split, List.count_append, List.count_singleton, beq_eq_false_iff_ne.mpr other]
    rfl

/-- Positions without a newline between them are in one line. -/
theorem line_stays (ordered : first ≤ last) (inside : last ≤ buf.length)
    (none : ∀ position (bound : position < buf.length), first ≤ position → position < last → buf[position] ≠ newline) :
    lineStart buf last = lineStart buf first ∧ lineNumber buf last = lineNumber buf first := by
  induction last, ordered using Nat.le_induction with
  | base => exact ⟨rfl, rfl⟩
  | succ last ordered ih =>
      obtain ⟨start, number⟩ := ih (by omega) (fun position bound lower upper => none position bound lower (by omega))
      obtain ⟨sameStart, sameNumber⟩ := line_same inside (none last inside ordered (Nat.lt_succ_self last))
      exact ⟨sameStart.trans start, sameNumber.trans number⟩

theorem OccursAt.getElem (occurs : OccursAt buf target position) {index : Nat} (inside : index < target.length)
    (bound : position + index < buf.length) : buf[position + index] = target[index] := by
  have same := occurs.getElem inside
  rw [List.getElem_drop] at same
  exact same.symm

theorem findLineEnd_eq (start : Nat) (inside : start ≤ buf.length) :
    findLineEnd buf start = start + ((buf.drop start).takeWhile (· ≠ newline)).length := by
  have search : ((buf.drop start).takeWhile (· ≠ newline)).length = (buf.drop start).findIdx (· = newline) := by
    rw [List.takeWhile_eq_take_findIdx_not, List.length_take, Nat.min_eq_left List.findIdx_le_length]
    simp only [ne_eq, decide_not, Bool.not_not]
  rw [search, findLineEnd]
  cases found : (buf.drop start).findIdx? (· = newline) with
  | none =>
      have whole := List.findIdx?_eq_none_iff_findIdx_eq.mp found
      rw [List.length_drop] at whole
      change buf.length = _
      omega
  | some distance =>
      have place := (List.findIdx?_eq_some_iff_findIdx_eq.mp found).2
      rw [place]

/-- A line is printed up to the end that it has, when the conversion of its length keeps it. -/
theorem int_of_lt {value : Nat} (small : value < 2 ^ 31) : int value = value := by
  have low : value % 2 ^ 32 = value := Nat.mod_eq_of_lt (by omega)
  simp only [int, low, if_pos small]

theorem int_lt (value : Nat) : int value < 2 ^ 31 := by
  simp only [int]
  split
  · exact_mod_cast ‹_›
  · omega

theorem cString_eq_self_iff : cString bytes = bytes ↔ 0 ∉ bytes := by
  rw [cString, List.takeWhile_eq_self_iff]
  constructor
  · intro all member
    exact absurd (all 0 member) (by decide)
  · intro absent byte member
    exact decide_eq_true fun zero => absent (zero ▸ member)

/-- Printing up to a terminator does not stop at a newline. -/
theorem cString_ne_line (terminated : 0 ∈ bytes) : cString bytes ≠ bytes.takeWhile (· ≠ newline) := by
  induction bytes with
  | nil => simp at terminated
  | cons byte rest ih =>
      rw [cString, List.takeWhile_cons, List.takeWhile_cons]
      by_cases zero : byte = 0
      · subst zero
        simp [newline]
      · have later : 0 ∈ rest := (List.mem_cons.mp terminated).resolve_left fun same => zero same.symm
        by_cases ends : byte = newline
        · simp [ends]
          decide
        · simpa [zero, ends, cString] using ih later

/-- The precision prints a line of the buffer exactly when it is no negative number and no terminator is in the line. -/
theorem boundedString_line_iff (bytes : List UInt8) :
    boundedString bytes (int (bytes.takeWhile (· ≠ newline)).length) = some (bytes.takeWhile (· ≠ newline)) ↔
      0 ∉ bytes.takeWhile (· ≠ newline) ∧ (bytes.takeWhile (· ≠ newline)).length < 2 ^ 31 := by
  have begins := @List.takeWhile_prefix _ bytes (· ≠ newline)
  by_cases small : (bytes.takeWhile (· ≠ newline)).length < 2 ^ 31
  · have nonnegative : ¬ (((bytes.takeWhile (· ≠ newline)).length : Int) < 0) := Int.not_lt.mpr (Int.natCast_nonneg _)
    have line := (List.prefix_iff_eq_take.mp begins).symm
    rw [int_of_lt small, boundedString, if_neg nonnegative, Int.toNat_natCast, if_pos (.inl begins.length_le), line,
      Option.some.injEq, cString_eq_self_iff]
    exact (and_iff_left small).symm
  · refine iff_of_false ?_ fun both => small both.2
    rw [boundedString]
    by_cases negative : int (bytes.takeWhile (· ≠ newline)).length < 0
    · rw [if_pos negative]
      by_cases terminated : 0 ∈ bytes
      · rw [if_pos terminated, Option.some.injEq]
        exact cString_ne_line terminated
      · rw [if_neg terminated]
        simp
    · rw [if_neg negative]
      split
      · rw [Option.some.injEq]
        intro same
        have shorter : (cString (bytes.take (int (bytes.takeWhile (· ≠ newline)).length).toNat)).length < 2 ^ 31 := by
          have below := int_lt (bytes.takeWhile (· ≠ newline)).length
          have string := (@List.takeWhile_prefix _
            (bytes.take (int (bytes.takeWhile (· ≠ newline)).length).toNat) (· ≠ 0)).length_le
          rw [List.length_take] at string
          rw [cString]
          omega
        rw [same] at shorter
        exact small shorter
      · simp

/-- What a match leads to. -/
theorem report_eq (start : scan.lineStart = lineStart buf scan.ptr) (number : scan.lineNo = lineNumber buf scan.ptr)
    (inside : scan.ptr ≤ buf.length) : scan.report buf target.length = (printed buf scan.ptr).map fun output =>
      { scan with
        matched := scan.matched + 1
        printed := scan.printed ++ [output]
        ptr := scan.ptr + target.length } := by
  have before : lineStart buf scan.ptr ≤ buf.length := (Nat.sub_le _ _).trans inside
  rw [Scan.report, printed, start, number, findLineEnd_eq _ before, Nat.add_sub_cancel_left, Option.map_map]
  rfl

theorem matchesAt_eq (inside : ptr ≤ buf.length - target.length) (room : target.length ≤ buf.length) :
    matchesAt buf target ptr = some (decide (OccursAt buf target ptr)) := by
  rw [matchesAt, if_pos (by omega), Option.some.injEq, decide_eq_decide, OccursAt, List.prefix_iff_eq_take, eq_comm]

/-- The bytes of an occurrence are those of the target, so that no line ends in it. -/
theorem occurs_same_line (unbroken : newline ∉ target) (occurs : OccursAt buf target first)
    (ordered : first ≤ last) (inside : last ≤ first + target.length) (room : first + target.length ≤ buf.length) :
    lineStart buf last = lineStart buf first ∧ lineNumber buf last = lineNumber buf first := by
  refine line_stays ordered (inside.trans room) fun position bound lower upper ends => unbroken ?_
  have index : position - first < target.length := by omega
  have same := OccursAt.getElem occurs index (by omega)
  have place : first + (position - first) = position := by omega
  simp only [place] at same
  rw [← ends, same]
  exact List.getElem_mem index

/-- The loop prints what belongs to the leftmost occurrences, in order, and counts them. -/
theorem scanFrom_eq (nonempty : target ≠ []) (unbroken : newline ∉ target) (room : target.length ≤ buf.length)
    (inside : scan.ptr ≤ buf.length) (enough : buf.length < scan.ptr + rounds)
    (start : scan.lineStart = lineStart buf scan.ptr) (number : scan.lineNo = lineNumber buf scan.ptr)
    {positions : List Nat} (leftmost : Leftmost buf target scan.ptr positions) :
    (scanFrom buf target rounds scan).map (fun scan => (scan.printed, scan.matched)) =
      (positions.mapM (printed buf)).map fun lines => (scan.printed ++ lines, scan.matched + positions.length) := by
  have positive := List.length_pos_iff.mpr nonempty
  induction rounds generalizing scan positions with
  | zero => omega
  | succ rounds ih =>
      rw [scanFrom]
      by_cases more : scan.ptr ≤ buf.length - target.length
      · have bound : scan.ptr < buf.length := by omega
        have enoughNext : buf.length < scan.ptr + 1 + rounds := by omega
        rw [if_pos more, List.getElem?_eq_getElem bound, Option.bind_some]
        by_cases ends : buf[scan.ptr] = newline
        · obtain ⟨nextStart, nextNumber⟩ := line_next bound ends
          have absent : ¬ OccursAt buf target scan.ptr := by
            intro occurs
            have first := OccursAt.getElem occurs positive (by omega)
            simp only [Nat.add_zero] at first
            rw [← ends, first] at unbroken
            exact unbroken (List.getElem_mem positive)
          obtain ⟨others, later⟩ := @Leftmost.exists_of_nonempty _ buf target nonempty (scan.ptr + 1)
          cases leftmost.unique (later.skip absent)
          simp only [Scan.advanceLine, if_pos ends, matchesAt_eq more room, Option.bind_some, absent, decide_false,
            Bool.false_eq_true, if_false]
          exact @ih { scan with ptr := scan.ptr + 1, lineStart := scan.ptr + 1, lineNo := scan.lineNo + 1 } bound enoughNext
            nextStart.symm (by rw [nextNumber, number]) _ later
        · simp only [Scan.advanceLine, if_neg ends, matchesAt_eq more room, Option.bind_some, decide_eq_true_eq]
          by_cases occurs : OccursAt buf target scan.ptr
          · have behind := occurs.bound nonempty
            have enoughBehind : buf.length < scan.ptr + target.length + rounds := by omega
            obtain ⟨sameStart, sameNumber⟩ :=
              occurs_same_line unbroken occurs (Nat.le_add_right _ target.length) (Nat.le_refl _) behind
            obtain ⟨others, later⟩ := @Leftmost.exists_of_nonempty _ buf target nonempty (scan.ptr + target.length)
            cases leftmost.unique (later.take occurs)
            rw [if_pos occurs, report_eq start number inside, List.mapM_cons]
            cases printed buf scan.ptr with
            | none => rfl
            | some output =>
                have rest := @ih { scan with
                  ptr := scan.ptr + target.length
                  matched := scan.matched + 1
                  printed := scan.printed ++ [output] } behind enoughBehind (by rw [sameStart, start])
                  (by rw [sameNumber, number]) _ later
                rw [Option.map_some, Option.bind_some, rest]
                cases others.mapM (printed buf) with
                | none => rfl
                | some lines =>
                    simp [Nat.add_assoc, Nat.add_comm 1]
          · obtain ⟨nextStart, nextNumber⟩ := line_same bound ends
            obtain ⟨others, later⟩ := @Leftmost.exists_of_nonempty _ buf target nonempty (scan.ptr + 1)
            cases leftmost.unique (later.skip occurs)
            rw [if_neg occurs]
            exact @ih { scan with ptr := scan.ptr + 1 } bound enoughNext (by rw [nextStart, start])
              (by rw [nextNumber, number]) _ later
      · cases leftmost.unique (Leftmost.nil nonempty (by omega))
        rw [if_neg more]
        simp

theorem grep_eq (nonempty : target ≠ []) (unbroken : newline ∉ target) (room : target.length ≤ buf.length)
    {positions : List Nat} (leftmost : Leftmost buf target 0 positions) : grep buf target =
      (positions.mapM (printed buf)).map fun lines => lines ++ [.found (cString target) positions.length] := by
  have positive := List.length_pos_iff.mpr nonempty
  have scanned := @scanFrom_eq buf target (buf.length + 1)
    { ptr := 0, lineStart := 0, lineNo := 1, matched := 0, printed := [] } nonempty unbroken room (Nat.zero_le _)
    (by change buf.length < 0 + (buf.length + 1); omega) rfl rfl positions leftmost
  rw [grep, if_neg (by omega)]
  generalize scanFrom buf target (buf.length + 1) _ = result at scanned ⊢
  cases lines : positions.mapM (printed buf) with
  | none =>
      rw [lines] at scanned
      cases result with
      | none => rfl
      | some scan => cases scanned
  | some lines' =>
      rw [lines] at scanned
      cases result with
      | none => cases scanned
      | some scan =>
          simp only [Option.map_some, Option.some.injEq, Prod.mk.injEq, List.nil_append, Nat.zero_add] at scanned
          simp [scanned]

/-- The line of a position has no terminator in it, and its length is an `int`. -/
def Printable (buf : List UInt8) (position : Nat) : Prop :=
  0 ∉ lineOf buf position ∧ (lineOf buf position).length < 2 ^ 31

theorem printed_iff : printed buf position = some (.line (lineNumber buf position) (lineOf buf position)) ↔
    Printable buf position := by
  rw [printed, Printable, lineOf, ← boundedString_line_iff, Option.map_eq_some_iff]
  constructor
  · intro outcome
    obtain ⟨text, bounded, same⟩ := outcome
    cases same
    exact bounded
  · exact fun bounded => ⟨_, bounded, rfl⟩

theorem mapM_eq_some_map_iff {α β : Type} {f : α → Option β} {g : α → β} {items : List α} :
    items.mapM f = some (items.map g) ↔ ∀ item ∈ items, f item = some (g item) := by
  induction items with
  | nil => simp
  | cons item rest ih =>
      rw [List.mapM_cons, List.map_cons, List.forall_mem_cons, ← ih]
      cases f item with
      | none => simp
      | some value =>
          cases rest.mapM f with
          | none => simp
          | some values => simp

/-- The lines of the leftmost occurrences, and the count of them when the target can occur at all. -/
def Reports (buf target : List UInt8) (outputs : List Output) : Prop :=
  ∃ positions shown, Leftmost buf target 0 positions ∧
    outputs = positions.map (fun position => .line (lineNumber buf position) (lineOf buf position)) ++
      if buf.length < target.length then [] else [.found shown positions.length]

/-- The search is as it is meant: no byte behind the buffer is read, the matches are reported with their lines, and
the copies agree. -/
structure Right (buf target : List UInt8) : Prop where
  reports : ∃ outputs, Cpp.grepBuffer buf target = some outputs ∧ Reports buf target outputs
  agree : ∀ memory, cString memory = target → SharedMemory.grepBuffer buf memory = Cpp.grepBuffer buf target ∧
    NotShared.grepBuffer buf memory = Cpp.grepBuffer buf target

/-- The search is right exactly when every line with an occurrence is one that the code can print. -/
theorem right_iff (buf target : List UInt8) (nonempty : target ≠ []) (unbroken : newline ∉ target) :
    Right buf target ↔ ∀ position, OccursAt buf target position → Printable buf position := by
  have agree : ∀ memory, cString memory = target →
      SharedMemory.grepBuffer buf memory = Cpp.grepBuffer buf target ∧
        NotShared.grepBuffer buf memory = Cpp.grepBuffer buf target := by
    intro memory same
    rw [← same]
    exact ⟨rfl, rfl⟩
  obtain ⟨positions, leftmost⟩ := @Leftmost.exists_of_nonempty _ buf target nonempty 0
  by_cases room : target.length ≤ buf.length
  · have printedEq := grep_eq nonempty unbroken room leftmost
    constructor
    · intro right position occurs
      obtain ⟨outputs, called, others, shown, again, same⟩ := right.reports
      cases leftmost.unique again
      rw [if_neg (Nat.not_lt_of_le room)] at same
      obtain ⟨lines, every, whole⟩ := Option.map_eq_some_iff.mp (printedEq.symm.trans called)
      rw [same] at whole
      obtain ⟨front, _⟩ := List.append_inj' whole rfl
      rw [front, mapM_eq_some_map_iff] at every
      obtain ⟨found, member, lower, upper⟩ := leftmost.covers position (Nat.zero_le _) occurs
      have bound := (leftmost.occurs found member).2.bound nonempty
      have sameStart :=
        (occurs_same_line unbroken (leftmost.occurs found member).2 lower (Nat.le_of_lt upper) bound).1
      have printable := printed_iff.mp (every found member)
      rwa [Printable, lineOf, sameStart]
    · intro printable
      refine ⟨⟨_, ?_, positions, cString target, leftmost, rfl⟩, agree⟩
      have every := mapM_eq_some_map_iff.mpr fun position member =>
        printed_iff.mpr (printable position (leftmost.occurs position member).2)
      rw [Cpp.grepBuffer, printedEq, every, if_neg (Nat.not_lt_of_le room)]
      rfl
  · have short := Nat.lt_of_not_le room
    have none : ∀ position, ¬ OccursAt buf target position := by
      intro position occurs
      have bound := occurs.bound nonempty
      omega
    refine iff_of_true ⟨⟨[], ?_, [], [], Leftmost.nil nonempty (by omega), ?_⟩, agree⟩ ?_
    · rw [Cpp.grepBuffer, grep, if_pos (.inr short)]
    · rw [if_pos short]
      rfl
    · intro position occurs
      exact absurd occurs (none position)

def king : List UInt8 := [107, 105, 110, 103]

theorem right_iff_king : Right (104 :: 105 :: newline :: king) king ↔
    ∀ position, OccursAt (104 :: 105 :: newline :: king) king position →
      Printable (104 :: 105 :: newline :: king) position :=
  right_iff (104 :: 105 :: newline :: king) king (by decide) (by decide)

/-- Of a line with a terminator in it only the part before that is printed. -/
theorem terminated_line : Cpp.grepBuffer (97 :: 0 :: king) king = some [.line 1 [97], .found king 1] ∧
    ¬ Right (97 :: 0 :: king) king := by
  have called : Cpp.grepBuffer (97 :: 0 :: king) king = some [.line 1 [97], .found king 1] := by decide
  refine ⟨called, fun right => ?_⟩
  have leftmost : Leftmost (97 :: 0 :: king) king 0 [2] := by
    have behind : Leftmost (97 :: 0 :: king) king 6 [] := Leftmost.nil (by decide) (by decide)
    have here : Leftmost (97 :: 0 :: king) king 2 [2] := behind.take (by decide)
    exact (here.skip (by decide)).skip (by decide)
  obtain ⟨outputs, again, positions, shown, others, reported⟩ := right.reports
  cases leftmost.unique others
  rw [called, Option.some.injEq] at again
  rw [← again] at reported
  exact absurd (List.cons.inj reported).1 (by decide)

end HundredDays.GrepBuffer
