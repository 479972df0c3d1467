import HundredDays.Data.Chunks
import HundredDays.FeedParser.Model

namespace HundredDays.FeedParser

open HundredDays.Data HundredDays.Memory

/-! Both parsers decode the 16-byte pieces of the buffer, so that a stream may be cut
anywhere. -/

variable {buf : List UInt8} {offset : Nat}

/-- The tick in 16 bytes. -/
def decode (bytes : List UInt8) : Tick where
  symbol := bytes.take 4
  price := UInt32.ofNat (fromBE ((bytes.drop 4).take 4))
  quantity := UInt64.ofNat (fromBE ((bytes.drop 8).take 8))

example : decode [65, 65, 80, 76, 0, 0, 0, 0x64, 0, 0, 0, 0, 0, 0, 3, 0xE8] = ⟨[65, 65, 80, 76], 100, 1000⟩ := by
  decide

theorem bswap32_hostOrder {bytes : List UInt8} (four : bytes.length = 4) :
    bswap32 (UInt32.ofNat (hostOrder bytes)) = UInt32.ofNat (fromBE bytes) := by
  have small : hostOrder bytes < 2 ^ 32 := Nat.lt_of_lt_of_eq fromBE_lt (by simp [four])
  have digits : toBE 4 (hostOrder bytes) = bytes.reverse := by
    rw [← four, ← List.length_reverse, hostOrder, toBE_fromBE]
  rw [bswap32, UInt32.toNat_ofNat', Nat.mod_eq_of_lt small, digits, List.reverse_reverse]

theorem bswap64_hostOrder {bytes : List UInt8} (eight : bytes.length = 8) :
    bswap64 (UInt64.ofNat (hostOrder bytes)) = UInt64.ofNat (fromBE bytes) := by
  have small : hostOrder bytes < 2 ^ 64 := Nat.lt_of_lt_of_eq fromBE_lt (by simp [eight])
  have digits : toBE 8 (hostOrder bytes) = bytes.reverse := by
    rw [← eight, ← List.length_reverse, hostOrder, toBE_fromBE]
  rw [bswap64, UInt64.toNat_ofNat', Nat.mod_eq_of_lt small, digits, List.reverse_reverse]

theorem readBE32_eq (inside : offset + 4 ≤ buf.length) :
    readBE32 buf offset = some (UInt32.ofNat (fromBE ((buf.drop offset).take 4))) := by
  have four : ((buf.drop offset).take 4).length = 4 := by
    rw [List.length_take, List.length_drop]
    omega
  rw [readBE32, readBytes_eq inside, ← bswap32_hostOrder four]
  rfl

theorem readBE64_eq (inside : offset + 8 ≤ buf.length) :
    readBE64 buf offset = some (UInt64.ofNat (fromBE ((buf.drop offset).take 8))) := by
  have eight : ((buf.drop offset).take 8).length = 8 := by
    rw [List.length_take, List.length_drop]
    omega
  rw [readBE64, readBytes_eq inside, ← bswap64_hostOrder eight]
  rfl

/-- The view that the loop makes at an offset. -/
def viewAt (buf : List UInt8) (offset : Nat) : MarketTickView where
  symbol := offset
  symLen := 4
  price := UInt32.ofNat (fromBE ((buf.drop (offset + 4)).take 4))
  quantity := UInt64.ofNat (fromBE ((buf.drop (offset + 8)).take 8))

theorem viewAt_tick (inside : offset + tickSize ≤ buf.length) :
    (viewAt buf offset).tick buf = some (decode ((buf.drop offset).take tickSize)) := by
  have size : tickSize = 16 := rfl
  rw [size] at inside ⊢
  have symbol : readBytes buf offset 4 = some ((buf.drop offset).take 4) := readBytes_eq (by omega)
  simp [MarketTickView.tick, viewAt, symbol, decode, List.drop_take, List.take_take]

theorem parseFeedFrom_step (inside : offset + tickSize ≤ buf.length) :
    parseFeedFrom buf buf.length offset = (do
      let (later, consumed) ← parseFeedFrom buf buf.length (offset + tickSize)
      return (viewAt buf offset :: later, consumed)) := by
  have size : tickSize = 16 := rfl
  have bound := inside
  rw [size] at bound
  have price := readBE32_eq (by omega : offset + 4 + 4 ≤ buf.length)
  have quantity := readBE64_eq (by omega : offset + 8 + 8 ≤ buf.length)
  rw [parseFeedFrom, if_pos inside]
  simp only [price, quantity]
  rfl

theorem parseFeedFrom_spec (inside : offset ≤ buf.length) :
    ∃ views, parseFeedFrom buf buf.length offset =
        some (views, offset + tickSize * ((buf.length - offset) / tickSize)) ∧
      views.mapM (fun view => view.tick buf) = some ((chunks tickSize (buf.drop offset)).map decode) := by
  induction left : buf.length - offset using Nat.strongRecOn generalizing offset with
  | ind remaining ih =>
      have positive : 0 < tickSize := by decide
      by_cases more : offset + tickSize ≤ buf.length
      · obtain ⟨views, parsed, read⟩ := ih (buf.length - (offset + tickSize)) (by omega) more rfl
        have enough : tickSize ≤ (buf.drop offset).length := by
          rw [List.length_drop]
          omega
        have rounds : remaining / tickSize = (buf.length - (offset + tickSize)) / tickSize + 1 := by
          rw [← Nat.add_div_right _ positive]
          congr 1
          omega
        refine ⟨viewAt buf offset :: views, ?_, ?_⟩
        · rw [parseFeedFrom_step more, parsed, rounds, Nat.mul_succ]
          simp [Nat.add_assoc, Nat.add_comm]
        · rw [chunks_of_le positive enough, List.mapM_cons, viewAt_tick more, read, List.drop_drop]
          simp
      · have short : (buf.drop offset).length < tickSize := by
          rw [List.length_drop]
          omega
        refine ⟨[], ?_, ?_⟩
        · rw [parseFeedFrom, if_neg more, Nat.div_eq_of_lt (by omega)]
          rfl
        · rw [chunks_of_lt short]
          rfl

theorem emit_eq (buf : List UInt8) :
    emit buf = some ((chunks tickSize buf).map decode, tickSize * (buf.length / tickSize)) := by
  obtain ⟨views, parsed, read⟩ := parseFeedFrom_spec (Nat.zero_le buf.length)
  rw [List.drop_zero] at read
  rw [Nat.zero_add, Nat.sub_zero] at parsed
  rw [emit, parseFeed, parsed]
  simp [read]

/-- The view as the C++ parser passes it on. -/
def MarketTickView.stringView (view : MarketTickView) : MarketTickStringView where
  symbol := { data := view.symbol, size := view.symLen }
  price := view.price
  quantity := view.quantity

theorem parseStreamFrom_eq (buf : List UInt8) (size offset : Nat) :
    parseStreamFrom buf { data := 0, size } offset =
      (parseFeedFrom buf size offset).map fun parsed => (parsed.1.map MarketTickView.stringView, parsed.2) := by
  induction offset using parseFeedFrom.induct size with
  | case1 offset more ih =>
      rw [parseStreamFrom, parseFeedFrom, if_pos more, if_pos more]
      simp only [Nat.zero_add, ih]
      simp [Option.map_bind, Option.bind_map, MarketTickView.stringView]
  | case2 offset done =>
      rw [parseStreamFrom, parseFeedFrom, if_neg done, if_neg done]
      rfl

theorem emitStream_eq (buf : List UInt8) : emitStream buf = emit buf := by
  rw [emitStream, parseStream, parseStreamFrom_eq, emit, parseFeed]
  simp [Option.bind_map, Function.comp_def, List.mapM_map]
  rfl

/-- The packets are parsed as the stream they make up. -/
theorem feed_spec (packets : List (List UInt8)) (tail : List UInt8) (short : tail.length < tickSize) :
    feed emit tail packets =
      some ((chunks tickSize (tail ++ packets.flatten)).map decode, leftover tickSize (tail ++ packets.flatten)) := by
  have positive : 0 < tickSize := by decide
  induction packets generalizing tail with
  | nil => simp [feed, chunks_of_lt short, leftover_of_lt short]
  | cons packet rest ih =>
      have shorter : (leftover tickSize (tail ++ packet)).length < tickSize := by
        rw [leftover_length]
        exact Nat.mod_lt _ positive
      have cut := @chunks_append _ _ (tail ++ packet) rest.flatten positive
      have front : (tail ++ packet).drop (tickSize * ((tail ++ packet).length / tickSize)) =
          leftover tickSize (tail ++ packet) := rfl
      rw [feed, emit_eq, List.flatten_cons, ← List.append_assoc, cut.1, cut.2, List.map_append]
      simp only [Option.bind_eq_bind, Option.bind_some, front, ih _ shorter]
      rfl

/-- However a stream is cut, the same ticks come out of it and the same tail is left as
for the whole stream at once, and both parsers agree on every buffer. -/
theorem feed_fragments (packets : List (List UInt8)) :
    (∃ ticks tail consumed, feed emit [] packets = some (ticks, tail) ∧
      emit packets.flatten = some (ticks, consumed) ∧ tail = packets.flatten.drop consumed ∧
      tail.length < tickSize ∧ ticks = (chunks tickSize packets.flatten).map decode ∧
      feed emitStream [] packets = some (ticks, tail)) ∧
    ∀ buf, emitStream buf = emit buf := by
  have positive : 0 < tickSize := by decide
  have whole := feed_spec packets [] positive
  rw [List.nil_append] at whole
  have same : emitStream = emit := funext emitStream_eq
  refine ⟨⟨_, _, _, whole, emit_eq _, rfl, ?_, rfl, ?_⟩, emitStream_eq⟩
  · rw [leftover_length]
    exact Nat.mod_lt _ positive
  · rw [same]
    exact whole

end HundredDays.FeedParser
