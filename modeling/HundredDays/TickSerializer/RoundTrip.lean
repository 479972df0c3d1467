import HundredDays.TickSerializer.Model

namespace HundredDays.TickSerializer

open HundredDays.Data HundredDays.Memory

/-! Both implementations write and read one list of bytes, and each list of 17 bytes is
that of a tick. -/

variable {buf : List UInt8} {offset : Nat}

/-! ### The bytes of a word -/

theorem toBE_word32 (val : UInt32) :
    toBE 4 val.toNat = [(val >>> 24).toUInt8, (val >>> 16).toUInt8, (val >>> 8).toUInt8, val.toUInt8] := by
  simp only [toBE, List.nil_append, List.cons_append, List.cons.injEq, and_true]
  refine ⟨?_, ?_, ?_, ?_⟩
  all_goals
    apply UInt8.toNat_inj.mp
    simp [Nat.shiftRight_eq_div_pow, Nat.div_div_eq_div_mul]

theorem toBE_word64 (val : UInt64) :
    toBE 8 val.toNat = [(val >>> 56).toUInt8, (val >>> 48).toUInt8, (val >>> 40).toUInt8, (val >>> 32).toUInt8,
      (val >>> 24).toUInt8, (val >>> 16).toUInt8, (val >>> 8).toUInt8, val.toUInt8] := by
  simp only [toBE, List.nil_append, List.cons_append, List.cons.injEq, and_true]
  refine ⟨?_, ?_, ?_, ?_, ?_, ?_, ?_, ?_⟩
  all_goals
    apply UInt8.toNat_inj.mp
    simp [Nat.shiftRight_eq_div_pow, Nat.div_div_eq_div_mul]

theorem shiftLeft32_toNat (byte : UInt8) {shift : UInt32} (bound : shift.toNat ≤ 24) :
    (byte.toUInt32 <<< shift).toNat = byte.toNat <<< shift.toNat := by
  rw [UInt32.toNat_shiftLeft, UInt8.toNat_toUInt32, Nat.mod_eq_of_lt (by omega : shift.toNat < 32)]
  apply Nat.mod_eq_of_lt
  rw [Nat.shiftLeft_eq]
  calc byte.toNat * 2 ^ shift.toNat < 256 * 2 ^ shift.toNat :=
        Nat.mul_lt_mul_of_pos_right byte.toNat_lt (Nat.two_pow_pos _)
    _ ≤ 256 * 2 ^ 24 := Nat.mul_le_mul_left _ (Nat.pow_le_pow_right (by decide) bound)

theorem shiftLeft64_toNat (byte : UInt8) {shift : UInt64} (bound : shift.toNat ≤ 56) :
    (byte.toUInt64 <<< shift).toNat = byte.toNat <<< shift.toNat := by
  rw [UInt64.toNat_shiftLeft, UInt8.toNat_toUInt64, Nat.mod_eq_of_lt (by omega : shift.toNat < 64)]
  apply Nat.mod_eq_of_lt
  rw [Nat.shiftLeft_eq]
  calc byte.toNat * 2 ^ shift.toNat < 256 * 2 ^ shift.toNat :=
        Nat.mul_lt_mul_of_pos_right byte.toNat_lt (Nat.two_pow_pos _)
    _ ≤ 256 * 2 ^ 56 := Nat.mul_le_mul_left _ (Nat.pow_le_pow_right (by decide) bound)

/-- One more byte, combined with the bytes before it. -/
theorem or_byte (number shift : Nat) (byte : UInt8) :
    number <<< (shift + 8) ||| byte.toNat <<< shift = (256 * number + byte.toNat) <<< shift :=
  shiftLeft_or_byte byte.toNat_lt

theorem word32_of_bytes (b0 b1 b2 b3 : UInt8) :
    b0.toUInt32 <<< 24 ||| b1.toUInt32 <<< 16 ||| b2.toUInt32 <<< 8 ||| b3.toUInt32 =
      UInt32.ofNat (fromBE [b0, b1, b2, b3]) := by
  have small : fromBE [b0, b1, b2, b3] < 2 ^ 32 := Nat.lt_of_lt_of_eq fromBE_lt (by simp)
  have last := or_byte (256 * (256 * b0.toNat + b1.toNat) + b2.toNat) 0 b3
  rw [Nat.shiftLeft_zero, Nat.shiftLeft_zero, Nat.zero_add] at last
  apply UInt32.toNat_inj.mp
  rw [UInt32.toNat_or, UInt32.toNat_or, UInt32.toNat_or, shiftLeft32_toNat b0 (by decide),
    shiftLeft32_toNat b1 (by decide), shiftLeft32_toNat b2 (by decide), UInt8.toNat_toUInt32, UInt32.toNat_ofNat',
    Nat.mod_eq_of_lt small]
  simp only [UInt32.reduceToNat]
  rw [or_byte b0.toNat 16 b1, or_byte _ 8 b2, last]
  simp [fromBE]

theorem word64_of_bytes (b0 b1 b2 b3 b4 b5 b6 b7 : UInt8) :
    b0.toUInt64 <<< 56 ||| b1.toUInt64 <<< 48 ||| b2.toUInt64 <<< 40 ||| b3.toUInt64 <<< 32 |||
      b4.toUInt64 <<< 24 ||| b5.toUInt64 <<< 16 ||| b6.toUInt64 <<< 8 ||| b7.toUInt64 =
        UInt64.ofNat (fromBE [b0, b1, b2, b3, b4, b5, b6, b7]) := by
  have small : fromBE [b0, b1, b2, b3, b4, b5, b6, b7] < 2 ^ 64 := Nat.lt_of_lt_of_eq fromBE_lt (by simp)
  have last := or_byte (fromBE [b0, b1, b2, b3, b4, b5, b6]) 0 b7
  rw [Nat.shiftLeft_zero, Nat.shiftLeft_zero, Nat.zero_add] at last
  apply UInt64.toNat_inj.mp
  simp only [UInt64.toNat_or]
  rw [shiftLeft64_toNat b0 (by decide), shiftLeft64_toNat b1 (by decide), shiftLeft64_toNat b2 (by decide),
    shiftLeft64_toNat b3 (by decide), shiftLeft64_toNat b4 (by decide), shiftLeft64_toNat b5 (by decide),
    shiftLeft64_toNat b6 (by decide), UInt8.toNat_toUInt64, UInt64.toNat_ofNat', Nat.mod_eq_of_lt small]
  simp only [UInt64.reduceToNat]
  rw [or_byte b0.toNat 48 b1, or_byte _ 40 b2, or_byte _ 32 b3, or_byte _ 24 b4, or_byte _ 16 b5, or_byte _ 8 b6]
  simp only [fromBE, List.foldl_cons, List.foldl_nil, Nat.mul_zero, Nat.zero_add] at last ⊢
  exact last

/-- Shifting the number by a byte at a time, as the loop does. -/
theorem word64_of_loop (bytes : List UInt8) (start : Nat) :
    bytes.foldl (fun (val : UInt64) byte => val <<< 8 ||| byte.toUInt64) (UInt64.ofNat start) =
      UInt64.ofNat (bytes.foldl (fun value byte => 256 * value + byte.toNat) start) := by
  induction bytes generalizing start with
  | nil => rfl
  | cons byte rest ih =>
      have next : UInt64.ofNat start <<< 8 ||| byte.toUInt64 = UInt64.ofNat (256 * start + byte.toNat) := by
        have combined := or_byte start 0 byte
        rw [Nat.shiftLeft_zero, Nat.shiftLeft_zero, Nat.zero_add] at combined
        rw [← combined, UInt64.ofNat_or, UInt64.ofNat_uInt8ToNat, UInt64.ofNat_shiftLeft start 8 (by decide)]
        rfl
      rw [List.foldl_cons, List.foldl_cons, next, ih]

/-! ### One function for both -/

theorem writeU32BE_eq (val : UInt32) : writeU32BE buf offset val = writeBytes buf offset (toBE 4 val.toNat) := by
  simp [writeU32BE, toBE_word32, writeBytes]

theorem writeU64BE_eq (val : UInt64) : writeU64BE buf offset val = writeBytes buf offset (toBE 8 val.toNat) := by
  simp [writeU64BE, toBE_word64, writeBytes]

theorem writeBE32_eq (val : UInt32) : writeBE32 buf offset val = writeBytes buf offset (toBE 4 val.toNat) :=
  writeU32BE_eq val

theorem writeBE64_eq (val : UInt64) : writeBE64 buf offset val = writeBytes buf offset (toBE 8 val.toNat) := by
  simp [writeBE64, toBE_word64, writeBytes, List.range_succ]

theorem readU32BE_eq :
    readU32BE buf offset = (readBytes buf offset 4).map fun bytes => UInt32.ofNat (fromBE bytes) := by
  simp [readU32BE, readBytes, word32_of_bytes, Option.map_bind, Option.bind_assoc, Nat.add_assoc]

theorem readU64BE_eq :
    readU64BE buf offset = (readBytes buf offset 8).map fun bytes => UInt64.ofNat (fromBE bytes) := by
  simp only [readU64BE, word64_of_bytes, Option.pure_def, Option.bind_eq_bind, readBytes, Nat.add_assoc, Nat.reduceAdd,
    Option.bind_some, Option.bind_assoc, Option.map_bind, Function.comp_apply, Option.map_some]

theorem readBE32_eq :
    readBE32 buf offset = (readBytes buf offset 4).map fun bytes => UInt32.ofNat (fromBE bytes) := by
  rw [← readU32BE_eq]
  rfl

theorem readBE64_eq :
    readBE64 buf offset = (readBytes buf offset 8).map fun bytes => UInt64.ofNat (fromBE bytes) := by
  have loop := fun bytes => word64_of_loop bytes 0
  have whole : List.range 8 = [0, 1, 2, 3, 4, 5, 6, 7] := rfl
  simp only [readBE64, Option.pure_def, Option.bind_eq_bind, whole, List.foldlM_cons, Nat.add_zero,
    UInt64.zero_shiftLeft, UInt64.zero_or, List.foldlM_nil, Option.bind_fun_some, Option.bind_assoc, Option.bind_some,
    fromBE, ← loop, UInt64.reduceOfNat, readBytes, Nat.add_assoc, Nat.reduceAdd, Option.map_bind, Function.comp_apply,
    Option.map_some, List.foldl_cons, List.foldl_nil]

/-! ### Ticks and bytes -/

/-- The bytes of a tick. -/
def wire (tick : Tick) : List UInt8 :=
  toBE 4 tick.symbolId.toNat ++ toBE 8 tick.price.toNat ++ toBE 4 tick.size.toNat ++ [tick.side]

@[simp] theorem wire_length (tick : Tick) : (wire tick).length = tickWireSize := by
  simp [wire, tickWireSize]

theorem ofNat_fromBE32 (val : UInt32) : UInt32.ofNat (fromBE (toBE 4 val.toNat)) = val := by
  have same : val.toNat % 256 ^ 4 = val.toNat := Nat.mod_eq_of_lt val.toNat_lt
  rw [fromBE_toBE, same, UInt32.ofNat_toNat]

theorem ofNat_fromBE64 (val : UInt64) : UInt64.ofNat (fromBE (toBE 8 val.toNat)) = val := by
  have same : val.toNat % 256 ^ 8 = val.toNat := Nat.mod_eq_of_lt val.toNat_lt
  rw [fromBE_toBE, same, UInt64.ofNat_toNat]

theorem toBE_ofNat32 {bytes : List UInt8} (four : bytes.length = 4) :
    toBE 4 (UInt32.ofNat (fromBE bytes)).toNat = bytes := by
  have small : fromBE bytes < 2 ^ 32 := Nat.lt_of_lt_of_eq fromBE_lt (by simp [four])
  rw [UInt32.toNat_ofNat', Nat.mod_eq_of_lt small, ← four, toBE_fromBE]

theorem toBE_ofNat64 {bytes : List UInt8} (eight : bytes.length = 8) :
    toBE 8 (UInt64.ofNat (fromBE bytes)).toNat = bytes := by
  have small : fromBE bytes < 2 ^ 64 := Nat.lt_of_lt_of_eq fromBE_lt (by simp [eight])
  rw [UInt64.toNat_ofNat', Nat.mod_eq_of_lt small, ← eight, toBE_fromBE]

/-- Whatever the bytes are, they are those of a tick. -/
theorem exists_wire (enough : tickWireSize ≤ buf.length) : ∃ tick, wire tick ++ buf.drop tickWireSize = buf := by
  have size : tickWireSize = 17 := rfl
  rw [size] at enough ⊢
  have last : 16 < buf.length := enough
  refine ⟨⟨UInt32.ofNat (fromBE (buf.take 4)), UInt64.ofNat (fromBE ((buf.drop 4).take 8)),
    UInt32.ofNat (fromBE ((buf.drop 12).take 4)), buf[16]⟩, ?_⟩
  rw [wire, toBE_ofNat32 (by rw [List.length_take]; omega),
    toBE_ofNat64 (by rw [List.length_take, List.length_drop]; omega),
    toBE_ofNat32 (by rw [List.length_take, List.length_drop]; omega)]
  calc _ = buf.take 4 ++ (buf.drop 4).take 8 ++ (buf.drop 12).take 4 ++ buf.drop 16 := by
        rw [List.append_assoc _ [_], List.singleton_append, ← List.drop_eq_getElem_cons last]
    _ = buf := by
        rw [← List.take_add, ← List.take_add, List.take_append_drop]

/-! ### Writing -/

theorem serializeTick_eq (tick : Tick) {bufLen : Nat} (enough : tickWireSize ≤ bufLen)
    (within : bufLen ≤ buf.length) :
    serializeTick tick buf bufLen = some (tickWireSize, wire tick ++ buf.drop tickWireSize) := by
  have written : writeBytes buf 0 (wire tick) = some (wire tick ++ buf.drop tickWireSize) := by
    rw [writeBytes_eq (by rw [wire_length]; omega)]
    simp [splice]
  have steps : serializeTick tick buf bufLen =
      (writeBytes buf 0 (wire tick)).map fun buf => (tickWireSize, buf) := by
    rw [serializeTick, if_neg (by omega)]
    simp [wire, writeBytes_append, writeU32BE_eq, writeU64BE_eq, Option.map_eq_bind, Option.bind_assoc,
      writeBytes]
  rw [steps, written]
  rfl

theorem serialize_eq (tick : Tick) : serialize tick = some (wire tick) := by
  have written : writeBytes (List.replicate tickWireSize 0) 0 (wire tick) = some (wire tick) := by
    rw [writeBytes_eq (by simp)]
    simp [splice]
  rw [← written]
  simp [serialize, wire, writeBytes_append, Width.writeBE, Width.size, writeBE32_eq, writeBE64_eq, writeBytes]

/-! ### Reading -/

theorem readBytes_at {front bytes rest : List UInt8} {count : Nat} (here : offset = front.length)
    (whole : count = bytes.length) : readBytes (front ++ (bytes ++ rest)) offset count = some bytes := by
  subst here whole
  rw [readBytes_eq (by simp)]
  simp

theorem wire_append (tick : Tick) (rest : List UInt8) :
    wire tick ++ rest = toBE 4 tick.symbolId.toNat ++ (toBE 8 tick.price.toNat ++
      (toBE 4 tick.size.toNat ++ (tick.side :: rest))) := by
  simp [wire]

theorem readBytes_symbolId (tick : Tick) (rest : List UInt8) :
    readBytes (wire tick ++ rest) 0 4 = some (toBE 4 tick.symbolId.toNat) := by
  rw [wire_append, ← List.nil_append (toBE 4 _ ++ _)]
  exact readBytes_at rfl (by simp)

theorem readBytes_price (tick : Tick) (rest : List UInt8) :
    readBytes (wire tick ++ rest) 4 8 = some (toBE 8 tick.price.toNat) := by
  rw [wire_append]
  exact readBytes_at (by simp) (by simp)

theorem readBytes_size (tick : Tick) (rest : List UInt8) :
    readBytes (wire tick ++ rest) 12 4 = some (toBE 4 tick.size.toNat) := by
  rw [wire_append, ← List.append_assoc]
  exact readBytes_at (by simp) (by simp)

theorem readByte_side (tick : Tick) (rest : List UInt8) : readByte (wire tick ++ rest) 16 = some tick.side := by
  rw [wire_append, ← List.append_assoc, ← List.append_assoc, readByte, List.getElem?_append_right (by simp)]
  simp

theorem deserializeTick_wire (tick dst : Tick) (rest : List UInt8) {bufLen : Nat} (enough : tickWireSize ≤ bufLen) :
    deserializeTick (wire tick ++ rest) bufLen dst = some (0, tick) := by
  rw [deserializeTick, if_neg (by omega)]
  simp [readU32BE_eq, readU64BE_eq, readBytes_symbolId, readBytes_price, readBytes_size, readByte_side,
    ofNat_fromBE32, ofNat_fromBE64]

theorem deserialize_wire (tick t : Tick) (rest : List UInt8) :
    deserialize (wire tick ++ rest) t = some (true, tick) := by
  rw [deserialize, if_neg (by simp)]
  simp [Width.readBE, Width.size, readBE32_eq, readBE64_eq, readBytes_symbolId, readBytes_price, readBytes_size,
    readByte_side, ofNat_fromBE32, ofNat_fromBE64]

/-- Both write the same bytes and read back each other's, every 17 bytes are written
again as they were read, and a shorter buffer is left alone. -/
theorem implementations_agree :
    (∀ (tick : Tick) (buf : List UInt8) (bufLen : Nat), tickWireSize ≤ bufLen → bufLen ≤ buf.length →
      ∃ bytes, bytes.length = tickWireSize ∧ serialize tick = some bytes ∧
        serializeTick tick buf bufLen = some (tickWireSize, bytes ++ buf.drop tickWireSize) ∧
        ∀ dst, deserializeTick bytes bytes.length dst = some (0, tick) ∧ deserialize bytes dst = some (true, tick) ∧
          deserializeTick (bytes ++ buf.drop tickWireSize) bufLen dst = some (0, tick) ∧
          deserialize (bytes ++ buf.drop tickWireSize) dst = some (true, tick)) ∧
    (∀ (buf : List UInt8) (bufLen : Nat) (dst : Tick), tickWireSize ≤ bufLen → bufLen ≤ buf.length →
      ∃ tick, deserializeTick buf bufLen dst = some (0, tick) ∧ deserialize buf dst = some (true, tick) ∧
        serialize tick = some (buf.take tickWireSize) ∧
        ∀ out : List UInt8, ∀ outLen, tickWireSize ≤ outLen → outLen ≤ out.length →
          serializeTick tick out outLen = some (tickWireSize, buf.take tickWireSize ++ out.drop tickWireSize)) ∧
    (∀ (buf : List UInt8) (bufLen : Nat) (tick : Tick), bufLen < tickWireSize →
      serializeTick tick buf bufLen = some (0, buf) ∧ deserializeTick buf bufLen tick = some (-1, tick)) ∧
    ∀ (buf : List UInt8) (tick : Tick), buf.length < tickWireSize → deserialize buf tick = some (false, tick) := by
  refine ⟨?_, ?_, ?_, ?_⟩
  · intro tick buf bufLen enough within
    refine ⟨wire tick, wire_length tick, serialize_eq tick, serializeTick_eq tick enough within, fun dst => ?_⟩
    have alone := deserializeTick_wire tick dst [] (Nat.le_of_eq (wire_length tick).symm)
    have vector := deserialize_wire tick dst []
    rw [List.append_nil] at alone vector
    exact ⟨alone, vector, deserializeTick_wire tick dst _ enough, deserialize_wire tick dst _⟩
  · intro buf bufLen dst enough within
    obtain ⟨tick, same⟩ := exists_wire (Nat.le_trans enough within)
    have front : buf.take tickWireSize = wire tick := by
      rw [← same, List.take_append_of_le_length (by simp), List.take_of_length_le (by simp)]
    rw [front]
    refine ⟨tick, ?_, ?_, serialize_eq tick, fun out outLen => serializeTick_eq tick⟩
    · rw [← same]
      exact deserializeTick_wire tick dst _ enough
    · rw [← same]
      exact deserialize_wire tick dst _
  · intro buf bufLen tick short
    exact ⟨if_pos short, if_pos short⟩
  · intro buf tick short
    exact if_pos short

/-- A number with its top bit set, into a buffer larger than the tick. -/
theorem implementations_agree_top_bit :
    ∃ bytes, bytes.length = tickWireSize ∧ serialize ⟨0x80000001, 15025000, 50, 1⟩ = some bytes ∧
      serializeTick ⟨0x80000001, 15025000, 50, 1⟩ (List.replicate 32 7) 20 =
        some (tickWireSize, bytes ++ (List.replicate 32 7).drop tickWireSize) := by
  have written := implementations_agree.1 ⟨0x80000001, 15025000, 50, 1⟩ (List.replicate 32 7) 20 (by decide) (by decide)
  obtain ⟨bytes, length, vector, buffer, _⟩ := written
  exact ⟨bytes, length, vector, buffer⟩

end HundredDays.TickSerializer
