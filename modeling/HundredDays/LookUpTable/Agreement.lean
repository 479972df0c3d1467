import HundredDays.LookUpTable.CTable
import HundredDays.LookUpTable.Refinement

namespace HundredDays.LookUpTable

open HundredDays.Data.Probing HundredDays.Semantics SymbolTable

/-! The C table and the C++ table side by side, for symbols that fit their slots. -/

variable {V : Type} [Inhabited V] {table : SymbolTable V} {other : C.SymbolTable V} {symbol key : Key}
  {price : V} {contents : Key → Option V} {slots new : Nat → Slot V} {cSlots cNew : Nat → C.Slot V}
  {index capacity trailing zeros n : Nat}

/-- A string whose characters and NUL fit the eight characters of a slot. -/
structure Short (symbol : Key) : Prop where
  fits : symbol.length < C.SYMBOL_LENGTH
  terminated : ∀ byte ∈ symbol, byte ≠ 0

/-- The characters of a slot that stores the symbol. -/
def padded (symbol : Key) : Key := symbol ++ List.replicate (C.SYMBOL_LENGTH - symbol.length) 0

/-- A slot of C and a slot of C++ that store the same. -/
structure Alike (slot : C.Slot V) (image : Slot V) : Prop where
  state : slot.state = image.state
  width : slot.symbol.length = C.SYMBOL_LENGTH
  stored : image.state ≠ .DELETED → slot.symbol = padded image.key ∧ slot.price = image.value
  short : image.state = .OCCUPIED → Short image.key

structure Agrees (table : C.SymbolTable V) (image : SymbolTable V) : Prop where
  capacity : table.capacity = image.capacity
  count : table.count = image.count
  tombstones : table.tombstones = image.tombstones
  slots : ∀ index, Alike (table.slots index) (image.slots index)

theorem takeWhile_padded (terminated : ∀ byte ∈ symbol, byte ≠ 0) :
    (symbol ++ List.replicate zeros 0).takeWhile (· ≠ 0) = symbol := by
  induction symbol with
  | nil => cases zeros <;> simp [List.replicate_succ]
  | cons byte rest ih =>
      have nonzero := terminated byte (by simp)
      have others := ih fun other member => terminated other (by simp [member])
      simpa [nonzero] using others

theorem hashFunc_eq (terminated : ∀ byte ∈ symbol, byte ≠ 0) :
    C.hashFunc (symbol ++ List.replicate zeros 0) = hashKey symbol := by
  rw [C.hashFunc, takeWhile_padded terminated, hashKey]

theorem start_eq (terminated : ∀ byte ∈ symbol, byte ≠ 0) :
    C.start capacity (symbol ++ List.replicate zeros 0) = start capacity symbol := by
  rw [C.start, hashFunc_eq terminated, start]

/-- Storing a short string leaves nothing of what the slot held. -/
theorem storeSymbol_eq {dest : Key} (width : dest.length = C.SYMBOL_LENGTH) (short : Short symbol) :
    C.storeSymbol dest (symbol ++ List.replicate zeros 0) = padded symbol := by
  have fits := short.fits
  obtain ⟨last, rest⟩ := List.length_eq_one_iff.mp
    (show (dest.drop 7).length = 1 by rw [List.length_drop, width]; rfl)
  simp only [C.SYMBOL_LENGTH] at fits
  rw [C.storeSymbol, C.strncpy, takeWhile_padded short.terminated, padded]
  simp only [C.SYMBOL_LENGTH, Nat.add_one_sub_one, rest]
  have copied : (symbol ++ List.replicate 7 0).take 7 = symbol ++ List.replicate (7 - symbol.length) 0 := by
    rw [List.take_append, List.take_of_length_le (by omega), List.take_replicate, Nat.min_eq_left (by omega)]
  have length : (symbol ++ List.replicate (7 - symbol.length) (0 : UInt8)).length = 7 := by
    simp only [List.length_append, List.length_replicate]
    omega
  rw [copied, List.set_append_right _ _ (by omega), length, List.append_assoc]
  congr 1
  rw [show 8 - symbol.length = (7 - symbol.length) + 1 by omega, List.replicate_succ']
  rfl

/-- The comparison of a stored symbol with a string decides whether they are equal. -/
theorem strncmp_eq_zero (stored : ∀ byte ∈ key, byte ≠ 0) (terminated : ∀ byte ∈ symbol, byte ≠ 0)
    (fits : key.length < n) (trails : 0 < trailing) :
    C.strncmp (key ++ List.replicate trailing 0) (symbol ++ List.replicate zeros 0) n = 0 ↔ key = symbol := by
  obtain ⟨more, rfl⟩ := Nat.exists_eq_add_of_lt trails
  induction key generalizing symbol n with
  | nil =>
      obtain ⟨rest, rfl⟩ := Nat.exists_eq_add_of_lt fits
      cases symbol with
      | nil => cases zeros <;> simp [C.strncmp, List.replicate_succ]
      | cons byte tail =>
          have nonzero := terminated byte (by simp)
          have differ : (0 : UInt8) ≠ byte := Ne.symm nonzero
          have value : byte.toNat ≠ 0 := fun zero => nonzero (UInt8.toNat_inj.mp zero)
          simp only [C.strncmp, List.replicate_succ, List.nil_append, List.headD_cons, List.cons_append,
            if_pos differ]
          simp [value]
  | cons first rest ih =>
      obtain ⟨less, rfl⟩ := Nat.exists_eq_add_of_lt fits
      have nonzero := stored first (by simp)
      have value : first.toNat ≠ 0 := fun zero => nonzero (UInt8.toNat_inj.mp zero)
      cases symbol with
      | nil =>
          cases zeros <;> simp [C.strncmp, List.replicate_succ, nonzero, value]
      | cons byte tail =>
          by_cases same : first = byte
          · subst byte
            have onward : C.strncmp (rest ++ List.replicate (0 + more + 1) 0) (tail ++ List.replicate zeros 0)
                (rest.length + 1 + less) = 0 ↔ rest = tail :=
              ih (fun other member => stored other (by simp [member]))
                (fun other member => terminated other (by simp [member])) (by omega)
            have opened : C.strncmp (first :: rest ++ List.replicate (0 + more + 1) 0)
                (first :: tail ++ List.replicate zeros 0) ((first :: rest).length + less + 1) =
                C.strncmp (rest ++ List.replicate (0 + more + 1) 0) (tail ++ List.replicate zeros 0)
                  (rest.length + 1 + less) := by
              simp [C.strncmp, nonzero]
            rw [opened, onward, List.cons.injEq]
            simp
          · have apart : (first.toNat : Int) - byte.toNat ≠ 0 := by
              intro zero
              apply same
              apply UInt8.toNat_inj.mp
              omega
            simp [C.strncmp, same, apart]

section Slots

theorem clearSlot_alike : Alike (C.clearSlot : C.Slot V) SymbolTable.emptySlot := by
  constructor
  · rfl
  · rfl
  · intro _
    exact ⟨rfl, rfl⟩
  · intro occupied
    cases occupied

omit [Inhabited V] in
theorem Alike.update {slot : C.Slot V} {image : Slot V} (alike : ∀ index, Alike (cSlots index) (slots index))
    (same : Alike slot image) (place : Nat) :
    ∀ index, Alike (Function.update cSlots place slot index) (Function.update slots place image index) := by
  intro index
  by_cases here : index = place
  · subst index
    simpa using same
  · simpa [here] using alike index

omit [Inhabited V] in
theorem Alike.filled {slot : C.Slot V} {image : Slot V} (alike : Alike slot image) (short : Short symbol)
    (price : V) (zeros : Nat) : Alike
      { symbol := C.storeSymbol slot.symbol (symbol ++ List.replicate zeros 0), price, state := .OCCUPIED }
      { key := symbol, value := price, state := .OCCUPIED } := by
  have stored : C.storeSymbol slot.symbol (symbol ++ List.replicate zeros 0) = padded symbol :=
    storeSymbol_eq alike.width short
  have fits := short.fits
  constructor
  · rfl
  · rw [stored, padded, List.length_append, List.length_replicate]
    omega
  · intro _
    exact ⟨stored, rfl⟩
  · intro _
    exact short

omit [Inhabited V] in
theorem Alike.priced {slot : C.Slot V} {image : Slot V} (alike : Alike slot image)
    (price : V) (kept : image.state ≠ .DELETED) : Alike { slot with price } { image with value := price } :=
  ⟨alike.state, alike.width, fun _ => ⟨(alike.stored kept).1, rfl⟩, alike.short⟩

omit [Inhabited V] in
theorem Alike.deleted {slot : C.Slot V} {image : Slot V} (alike : Alike slot image) :
    Alike { slot with state := .DELETED } { image with state := .DELETED } := by
  constructor
  · rfl
  · exact alike.width
  · intro kept
    exact absurd rfl kept
  · intro occupied
    cases occupied

omit [Inhabited V] in
/-- The loops of both languages end at the same slots. -/
theorem stopsAt_alike (alike : ∀ index, Alike (cSlots index) (table.slots index))
    (terminated : ∀ byte ∈ symbol, byte ≠ 0) (zeros : Nat) :
    C.stopsAt cSlots (symbol ++ List.replicate zeros 0) = table.stopsAt symbol := by
  funext index
  have same := alike index
  rw [C.stopsAt, SymbolTable.stopsAt]
  simp only [same.state]
  cases state : (table.slots index).state with
  | EMPTY => rfl
  | DELETED => rfl
  | OCCUPIED =>
      have short := same.short state
      have fits := short.fits
      have stored := (same.stored (by simp [state])).1
      have compared : C.strncmp (cSlots index).symbol (symbol ++ List.replicate zeros 0) C.SYMBOL_LENGTH = 0 ↔
          (table.slots index).key = symbol := by
        rw [stored, padded]
        exact strncmp_eq_zero short.terminated terminated fits (by omega)
      simp [compared]

omit [Inhabited V] in
theorem tombstoneAt_alike (alike : ∀ index, Alike (cSlots index) (table.slots index)) :
    C.tombstoneAt cSlots = table.tombstoneAt := by
  funext index
  rw [C.tombstoneAt, SymbolTable.tombstoneAt, (alike index).state]

end Slots

namespace Agrees

omit [Inhabited V] in
/-- A probe of C goes the way of the probe of C++. -/
theorem probe (agrees : Agrees other table) (terminated : ∀ byte ∈ symbol, byte ≠ 0) (tombstone : Nat → Bool) :
    LookUpTable.probe (C.stopsAt other.slots symbol) tombstone (maskOf other.capacity)
        (C.start other.capacity symbol) =
      LookUpTable.probe (table.stopsAt symbol) tombstone (maskOf table.capacity)
        (start table.capacity symbol) := by
  have stops : C.stopsAt other.slots symbol = table.stopsAt symbol := by
    simpa using stopsAt_alike agrees.slots terminated 0
  have home : C.start table.capacity symbol = start table.capacity symbol := by
    have padding : C.start table.capacity (symbol ++ List.replicate 0 0) = start table.capacity symbol :=
      start_eq terminated
    simpa using padding
  rw [stops, agrees.capacity, home]

omit [Inhabited V] in
/-- Both insert loops write alike slots at the same place. -/
theorem insertProbed (agrees : Agrees other table) (short : Short symbol) (price : V) :
    Option.Rel (fun done image => done.1 = image.1 ∧ Agrees done.2 image.2)
      (C.insertProbed other symbol price) (table.insertProbed symbol price) := by
  rw [C.insertProbed, SymbolTable.insertProbed, tombstoneAt_alike agrees.slots, agrees.probe short.terminated]
  cases probed : LookUpTable.probe (table.stopsAt symbol) table.tombstoneAt (maskOf table.capacity)
      (start table.capacity symbol) with
  | none => exact .none
  | some stopped =>
      constructor
      cases stopped with
      | none => exact ⟨rfl, agrees⟩
      | some found =>
          simp only [(agrees.slots found.1).state, (agrees.slots (found.2.getD found.1)).state]
          split
          next empty =>
            have filled := (agrees.slots (found.2.getD found.1)).filled short price 0
            simp only [List.replicate_zero, List.append_nil] at filled
            exact ⟨rfl, agrees.capacity, by simp [agrees.count], by simp [agrees.tombstones],
              Alike.update agrees.slots filled _⟩
          next occupied =>
            have kept : (table.slots found.1).state ≠ .DELETED := by
              intro deleted
              have ended := probe_stops probed
              simp [SymbolTable.stopsAt, deleted] at ended
            have priced := (agrees.slots found.1).priced price kept
            simp only [(agrees.slots found.1).state] at priced
            exact ⟨rfl, agrees.capacity, agrees.count, agrees.tombstones, Alike.update agrees.slots priced _⟩

omit [Inhabited V] in
/-- Both lookup loops find the same price. -/
theorem lookup (agrees : Agrees other table) (terminated : ∀ byte ∈ symbol, byte ≠ 0) :
    C.symbolTableLookup other symbol = table.lookup symbol := by
  rw [C.symbolTableLookup, SymbolTable.lookup, agrees.probe terminated]
  cases probed : LookUpTable.probe (table.stopsAt symbol) (fun _ => false) (maskOf table.capacity)
      (start table.capacity symbol) with
  | none => rfl
  | some stopped =>
      cases stopped with
      | none => rfl
      | some found =>
          have same := agrees.slots found.1
          by_cases empty : (table.slots found.1).state = .EMPTY
          · simp [same.state, empty]
          · have kept : (table.slots found.1).state ≠ .DELETED := by
              intro deleted
              have ended := probe_stops probed
              simp [SymbolTable.stopsAt, deleted] at ended
            simp [same.state, empty, (same.stored kept).2]

omit [Inhabited V] in
theorem delete (agrees : Agrees other table) (terminated : ∀ byte ∈ symbol, byte ≠ 0) :
    Option.Rel (fun done image => done.1 = image.1 ∧ Agrees done.2 image.2)
      (C.symbolTableDelete other symbol) (table.remove symbol) := by
  rw [C.symbolTableDelete, SymbolTable.remove, agrees.probe terminated]
  cases LookUpTable.probe (table.stopsAt symbol) (fun _ => false) (maskOf table.capacity)
      (start table.capacity symbol) with
  | none => exact .none
  | some stopped =>
      constructor
      cases stopped with
      | none => exact ⟨rfl, agrees⟩
      | some found =>
          simp only [(agrees.slots found.1).state]
          split
          next => exact ⟨rfl, agrees⟩
          next =>
            exact ⟨rfl, agrees.capacity, by simp [agrees.count], by simp [agrees.tombstones],
              Alike.update agrees.slots (agrees.slots found.1).deleted _⟩

end Agrees

omit [Inhabited V] in
/-- Moving a stored symbol to cleared slots takes the path of `insertRaw`: there are no
tombstones and no duplicates. -/
theorem tableInsertRaw_eq {old : Nat → Slot V} {done exponent : Nat}
    (rebuilding : Rebuilding old capacity done new)
    (same : capacity = 2 ^ exponent) (occupied : (old done).state = .OCCUPIED) (room : done < usable capacity)
    (unique : ∀ key index value other old', cellsOf old index = .full key value →
      cellsOf old other = .full key old' → index = other)
    (alike : ∀ index, Alike (cNew index) (new index)) (short : Short (old done).key) :
    ∃ cAfter after, C.tableInsertRaw cNew capacity (padded (old done).key) (old done).value = some (true, cAfter) ∧
      insertRaw new capacity (old done).key (old done).value = some after ∧
      ∀ index, Alike (cAfter index) (after index) := by
  obtain ⟨step, searched, empty, inserted, _⟩ := rebuilding.move same occupied room unique
  generalize (old done).key = key at *
  generalize (old done).value = value at *
  let table : SymbolTable V := { slots := new, capacity, count := 0, tombstones := 0 }
  have noTombstones : ∀ index, table.tombstoneAt index = false := by
    intro index
    have clean := rebuilding.clean index
    rw [SymbolTable.tombstoneAt, decide_eq_false_iff_not]
    intro deleted
    exact clean (cell_deleted.mpr deleted)
  have first : firstTombstone table.tombstoneAt (usable capacity) (start capacity key) step = none := by
    simp [firstTombstone, noTombstones]
  have probed : probe (C.stopsAt cNew (padded key)) (C.tombstoneAt cNew) (maskOf capacity)
      (C.start capacity (padded key)) = some (some (place (usable capacity) (start capacity key) step, none)) := by
    have stops : C.stopsAt cNew (padded key) = table.stopsAt key :=
      stopsAt_alike alike short.terminated (C.SYMBOL_LENGTH - key.length)
    have tombstones : C.tombstoneAt cNew = table.tombstoneAt := tombstoneAt_alike alike
    have home : C.start capacity (padded key) = start capacity key := start_eq short.terminated
    rw [stops, tombstones, home, probe_start same, stopped_eq,
      show search (usable capacity) table.cells (start capacity key) key = some step from searched,
      Option.map_some, first]
  have filled := (alike (place (usable capacity) (start capacity key) step)).filled short value
    (C.SYMBOL_LENGTH - key.length)
  refine ⟨_, _, ?_, inserted, Alike.update alike filled _⟩
  rw [C.tableInsertRaw, probed]
  simp [(alike _).state, empty, padded]

/-- The loops of both resizes over the first old slots. -/
theorem rebuild_agrees {old : Nat → Slot V} {cOld : Nat → C.Slot V} {exponent : Nat}
    (same : capacity = 2 ^ exponent)
    (unique : ∀ key index value other old', cellsOf old index = .full key value →
      cellsOf old other = .full key old' → index = other)
    (room : ∀ index, (old index).state = .OCCUPIED → index < usable capacity)
    (alike : ∀ index, Alike (cOld index) (old index)) (count : Nat) :
    ∃ cNew new, (List.range count).foldlM (fun newSlots index =>
        if (cOld index).state = .OCCUPIED then
          (C.tableInsertRaw newSlots capacity (cOld index).symbol (cOld index).price).map Prod.snd
        else some newSlots) (fun _ => (C.clearSlot : C.Slot V)) = some cNew ∧
      (List.range count).foldlM (fun newSlots index =>
        if (old index).state = .OCCUPIED then insertRaw newSlots capacity (old index).key (old index).value
        else some newSlots) (fun _ => (emptySlot : Slot V)) = some new ∧
      ∀ index, Alike (cNew index) (new index) := by
  induction count with
  | zero => exact ⟨_, _, rfl, rfl, fun _ => clearSlot_alike⟩
  | succ count ih =>
      obtain ⟨cNew, new, cFolded, folded, alikeNew⟩ := ih
      obtain ⟨again, foldedAgain, rebuilding⟩ := rebuild_exists same unique room count
      rw [folded, Option.some_inj] at foldedAgain
      subst again
      rw [List.range_succ, List.foldlM_append, List.foldlM_append, cFolded, folded]
      have here := alike count
      by_cases occupied : (old count).state = .OCCUPIED
      · have stored := here.stored (by simp [occupied])
        obtain ⟨cAfter, after, cInserted, inserted, alikeAfter⟩ := tableInsertRaw_eq rebuilding same occupied
          (room count occupied) unique alikeNew (here.short occupied)
        exact ⟨cAfter, after, by simp [here.state, occupied, stored.1, stored.2, cInserted],
          by simp [occupied, inserted], alikeAfter⟩
      · exact ⟨cNew, new, by simp [here.state, occupied], by simp [occupied], alikeNew⟩

omit [Inhabited V] in
theorem answered {done : Option (Bool × C.SymbolTable V)} {answer : Bool} {after : SymbolTable V}
    (both : Option.Rel (fun done image => done.1 = image.1 ∧ Agrees done.2 image.2) done (some (answer, after))) :
    ∃ cAfter, done = some (answer, cAfter) ∧ Agrees cAfter after := by
  cases both with
  | @some result _ same =>
      obtain ⟨given, cAfter⟩ := result
      obtain ⟨equal, agrees⟩ := same
      simp only at equal
      exact ⟨cAfter, by rw [equal], agrees⟩

namespace Agrees

variable {calloc : Nat → Bool}

theorem resize (agrees : Agrees other table) (succeeds : ∀ count, calloc count = true)
    (structured : table.Structured contents) (small : table.capacity ≤ 2 ^ 32) :
    ∃ cAfter after, C.tableResize calloc other (other.capacity * 2) = some (true, cAfter) ∧
      table.resize (table.capacity * 2) = some after ∧ Agrees cAfter after := by
  obtain ⟨exponent, _, _, doubled, room⟩ := structured.doubled small
  obtain ⟨cNew, new, cFolded, folded, alike⟩ :=
    rebuild_agrees doubled structured.probed.unique room agrees.slots table.capacity
  refine ⟨{ other with slots := cNew, capacity := table.capacity * 2, tombstones := 0 },
    { table with slots := new, capacity := table.capacity * 2, tombstones := 0 }, ?_, ?_, ?_⟩
  · rw [C.tableResize, if_pos (succeeds _), agrees.capacity, cFolded]
    rfl
  · rw [SymbolTable.resize, folded]
    rfl
  · exact ⟨rfl, agrees.count, rfl, alike⟩

/-- Inserts of both languages do the same. -/
theorem insert (agrees : Agrees other table) (succeeds : ∀ count, calloc count = true)
    (consistent : Consistent table contents) (short : Short symbol) (price : V) :
    Option.Rel (fun done image => done.1 = image.1 ∧ Agrees done.2 image.2)
      (C.symbolTableInsert calloc other symbol price) (table.insert symbol price) := by
  rw [C.symbolTableInsert, SymbolTable.insert, agrees.count, agrees.tombstones, agrees.capacity]
  cases load : overloaded (table.count + table.tombstones + 1) table.capacity with
  | false => simpa using agrees.insertProbed short price
  | true =>
      have small := consistent.capacity_le load
      have fits : table.capacity * 2 % 2 ^ 64 = table.capacity * 2 := Nat.mod_eq_of_lt (by omega)
      obtain ⟨cAfter, after, cResized, resized, agreesAfter⟩ := agrees.resize succeeds consistent.structured small
      rw [agrees.capacity] at cResized
      rw [fits, cResized, resized]
      simpa using agreesAfter.insertProbed short price

end Agrees

end HundredDays.LookUpTable
