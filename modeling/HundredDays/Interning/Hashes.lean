import HundredDays.Data.Mixing
import HundredDays.Interning.Model

namespace HundredDays.Interning

open Data.Mixing

/-! Three hash functions of strings, and which strings they tell apart. -/

def djb2 (str : CString) : UInt32 :=
  str.bytes.foldl (fun hash byte => (hash <<< 5 + hash) + byte.toUInt32) 5381

namespace Murmur

/-- The byte at an offset; after the last one comes the NUL. -/
def byteAt (data : List UInt8) (offset : Nat) : UInt32 := (data.getD offset 0).toUInt32

/-- `memcpy` into a 32 bit word, the first byte lowest. -/
def load (data : List UInt8) (offset : Nat) : UInt32 :=
  byteAt data offset ||| byteAt data (offset + 1) <<< 8 ||| byteAt data (offset + 2) <<< 16 |||
    byteAt data (offset + 3) <<< 24

def scramble (k1 : UInt32) : UInt32 :=
  let k1 := k1 * 0xcc9e2d51
  let k1 := k1 <<< 15 ||| k1 >>> (32 - 15)
  k1 * 0x1b873593

/-- The body of the loop over the blocks. -/
def absorb (h1 k1 : UInt32) : UInt32 :=
  let h1 := h1 ^^^ scramble k1
  let h1 := h1 <<< 13 ||| h1 >>> (32 - 13)
  h1 * 5 + 0xe6546b64

def case1 (data : List UInt8) (tail : Nat) (k1 h1 : UInt32) : UInt32 :=
  h1 ^^^ scramble (k1 ^^^ byteAt data tail)

def case2 (data : List UInt8) (tail : Nat) (k1 h1 : UInt32) : UInt32 :=
  case1 data tail (k1 ^^^ byteAt data (tail + 1) <<< 8) h1

def case3 (data : List UInt8) (tail : Nat) (k1 h1 : UInt32) : UInt32 :=
  case2 data tail (k1 ^^^ byteAt data (tail + 2) <<< 16) h1

/-- The `switch`, in which every case falls through to the next. -/
def addTail (data : List UInt8) (tail : Nat) (rest h1 : UInt32) : UInt32 :=
  if rest = 3 then case3 data tail 0 h1
  else if rest = 2 then case2 data tail 0 h1
  else if rest = 1 then case1 data tail 0 h1
  else h1

def finalize (h1 : UInt32) : UInt32 :=
  let h1 := h1 ^^^ h1 >>> 16
  let h1 := h1 * 0x85ebca6b
  let h1 := h1 ^^^ h1 >>> 13
  let h1 := h1 * 0xc2b2ae35
  h1 ^^^ h1 >>> 16

end Murmur

open Murmur in
/-- There is no result where `nblocks * 4` is beyond an `int`. -/
def murmur3_32 (key : CString) (seed : UInt32) : Option UInt32 :=
  let len := UInt32.ofNat key.bytes.length
  let nblocks := (len / 4).toNat
  if 2 ^ 31 ≤ nblocks * 4 then none
  else
    let h1 := (List.range nblocks).foldl (fun h1 i => absorb h1 (load key.bytes (i * 4))) seed
    let h1 := addTail key.bytes (nblocks * 4) (len &&& 3) h1
    some (finalize (h1 ^^^ len))

section Words

theorem shiftLeft_five (hash : UInt32) : hash <<< 5 + hash = hash * 33 := by
  apply UInt32.toNat_inj.mp
  have five : (5 : UInt32).toNat % 32 = 5 := rfl
  have factor : (33 : UInt32).toNat = 33 := rfl
  rw [UInt32.toNat_add, UInt32.toNat_mul, UInt32.toNat_shiftLeft, Nat.shiftLeft_eq, five, factor]
  omega

theorem toBitVec_injective : Function.Injective UInt32.toBitVec := fun _ _ => UInt32.toBitVec_inj.mp

theorem odd_injective {factor inverse : UInt32} (unit : factor * inverse = 1) :
    Function.Injective fun word => word * factor :=
  injective_through toBitVec_injective (mul_injective (congrArg UInt32.toBitVec unit)) fun _ => rfl

end Words

section OneByte

theorem djb2_lossless : Lossless fun (hash : UInt32) (byte : UInt8) => (hash <<< 5 + hash) + byte.toUInt32 where
  state byte := by
    intro left right same
    rw [UInt32.add_left_inj, shiftLeft_five, shiftLeft_five] at same
    exact odd_injective (by decide : (33 : UInt32) * 0x3e0f83e1 = 1) same
  item hash := by
    intro left right same
    exact UInt8.toUInt32_inj.mp ((UInt32.add_right_inj _).mp same)

theorem fnv1a_lossless : Lossless fun (hash : UInt32) (byte : UInt8) => (hash ^^^ byte.toUInt32) * 0x01000193 where
  state byte := by
    intro left right same
    have mixed := odd_injective (by decide : (0x01000193 : UInt32) * 0x359c449b = 1) same
    exact (UInt32.xor_left_inj _).mp mixed
  item hash := by
    intro left right same
    have mixed := odd_injective (by decide : (0x01000193 : UInt32) * 0x359c449b = 1) same
    exact UInt8.toUInt32_inj.mp ((UInt32.xor_right_inj _).mp mixed)

variable {left right : CString} {place : Nat}

theorem CString.ext_bytes (same : left.bytes = right.bytes) : left = right := by
  cases left
  cases right
  cases same
  rfl

/-- Strings of one length that differ in one byte collide under neither hash. -/
theorem one_byte_apart (length : left.bytes.length = right.bytes.length)
    (elsewhere : ∀ index, index ≠ place → left.bytes[index]? = right.bytes[index]?) :
    (djb2 left = djb2 right → left = right) ∧ (fnv1a left = fnv1a right → left = right) := by
  constructor
  · intro same
    exact CString.ext_bytes (djb2_lossless.foldl_separates length elsewhere same)
  · intro same
    exact CString.ext_bytes (fnv1a_lossless.foldl_separates length elsewhere same)

theorem one_byte_apart_dog :
    djb2 ⟨[100, 111, 103], by decide⟩ ≠ djb2 ⟨[100, 105, 103], by decide⟩ ∧
      fnv1a ⟨[100, 111, 103], by decide⟩ ≠ fnv1a ⟨[100, 105, 103], by decide⟩ := by
  obtain ⟨djb2, fnv1a⟩ := @one_byte_apart ⟨[100, 111, 103], by decide⟩ ⟨[100, 105, 103], by decide⟩ 1 rfl (by
    intro index apart
    match index with
    | 0 => rfl
    | 1 => exact absurd rfl apart
    | _ + 2 => rfl)
  have different : (⟨[100, 111, 103], by decide⟩ : CString) ≠ ⟨[100, 105, 103], by decide⟩ := by decide
  exact ⟨fun same => different (djb2 same), fun same => different (fnv1a same)⟩

end OneByte

section Window

/-- The bytes as digits of a number in base 33. -/
def horner (bytes : List UInt8) : Nat := bytes.foldl (fun value byte => 33 * value + byte.toNat) 0

variable {before after middle other : List UInt8} {left right : CString}

theorem horner_concat {byte : UInt8} : horner (middle ++ [byte]) = 33 * horner middle + byte.toNat := by
  rw [horner, List.foldl_append]
  rfl

theorem horner_add_le (middle : List UInt8) : horner middle + 8 ≤ 8 * 33 ^ middle.length := by
  induction middle using List.reverseRecOn with
  | nil => decide
  | append_singleton middle byte ih =>
      have bound := byte.toNat_lt
      rw [horner_concat, List.length_append, List.length_singleton, Nat.pow_succ]
      omega

theorem foldl_djb2_toNat (middle : List UInt8) {hash : UInt32} :
    (middle.foldl (fun (hash : UInt32) byte => (hash <<< 5 + hash) + byte.toUInt32) hash).toNat =
      (hash.toNat * 33 ^ middle.length + horner middle) % 2 ^ 32 := by
  induction middle using List.reverseRecOn with
  | nil =>
      rw [List.foldl_nil, List.length_nil, Nat.pow_zero, Nat.mul_one]
      exact (Nat.mod_eq_of_lt hash.toNat_lt).symm
  | append_singleton middle byte ih =>
      have factor : (33 : UInt32).toNat = 33 := rfl
      rw [List.foldl_append, List.foldl_cons, List.foldl_nil, shiftLeft_five, UInt32.toNat_add, UInt32.toNat_mul,
        ih, factor, horner_concat, List.length_append, List.length_singleton, Nat.pow_succ 33, ← Nat.mul_assoc,
        UInt8.toNat_toUInt32]
      omega

/-- Strings that differ within five bytes collide exactly when these have one value in base 33. -/
theorem djb2_window (lefts : left.bytes = before ++ middle ++ after) (rights : right.bytes = before ++ other ++ after)
    (length : middle.length = other.length) (short : middle.length ≤ 5) :
    djb2 left = djb2 right ↔ horner middle = horner other := by
  have power : 33 ^ middle.length ≤ 33 ^ 5 := Nat.pow_le_pow_right (by decide) short
  have first := horner_add_le middle
  have second := horner_add_le other
  rw [← length] at second
  rw [djb2, djb2, lefts, rights, List.foldl_append, List.foldl_append, List.foldl_append, List.foldl_append,
    (djb2_lossless.foldl_state after).eq_iff, ← UInt32.toNat_inj, foldl_djb2_toNat middle,
    foldl_djb2_toNat other, ← length]
  omega

/-- `aB` and `b!` are such strings. -/
theorem djb2_window_two : djb2 ⟨[97, 66], by decide⟩ = djb2 ⟨[98, 33], by decide⟩ :=
  (@djb2_window [] [] [97, 66] [98, 33] _ _ rfl rfl rfl (by decide)).mpr rfl

end Window

namespace Murmur

section Mixers

theorem rotate_fifteen : Function.Injective fun word : UInt32 => word <<< 15 ||| word >>> (32 - 15) :=
  injective_through toBitVec_injective (rotate_injective (by decide : 15 ≤ 32)) fun _ => rfl

theorem rotate_thirteen : Function.Injective fun word : UInt32 => word <<< 13 ||| word >>> (32 - 13) :=
  injective_through toBitVec_injective (rotate_injective (by decide : 13 ≤ 32)) fun _ => rfl

theorem scramble_injective : Function.Injective scramble := by
  have first : Function.Injective fun word : UInt32 => word * 0xcc9e2d51 :=
    odd_injective (by decide : (0xcc9e2d51 : UInt32) * 0xdee13bb1 = 1)
  have last : Function.Injective fun word : UInt32 => word * 0x1b873593 :=
    odd_injective (by decide : (0x1b873593 : UInt32) * 0x56ed309b = 1)
  exact last.comp (rotate_fifteen.comp first)

theorem absorb_lossless : Lossless absorb := by
  have outer : Function.Injective fun word : UInt32 =>
      (word <<< 13 ||| word >>> (32 - 13)) * 5 + 0xe6546b64 := by
    intro left right same
    have multiplied := (UInt32.add_left_inj _).mp same
    exact rotate_thirteen (odd_injective (by decide : (5 : UInt32) * 0xcccccccd = 1) multiplied)
  refine ⟨fun k1 left right same => ?_, fun h1 left right same => ?_⟩
  · exact (UInt32.xor_left_inj _).mp (outer same)
  · exact scramble_injective ((UInt32.xor_right_inj _).mp (outer same))

theorem finalize_injective : Function.Injective finalize := by
  have sixteen : Function.Injective fun word : UInt32 => word ^^^ word >>> 16 :=
    injective_through toBitVec_injective (xorShift_injective (by decide : 0 < 16)) fun _ => rfl
  have thirteen : Function.Injective fun word : UInt32 => word ^^^ word >>> 13 :=
    injective_through toBitVec_injective (xorShift_injective (by decide : 0 < 13)) fun _ => rfl
  have first : Function.Injective fun word : UInt32 => word * 0x85ebca6b :=
    odd_injective (by decide : (0x85ebca6b : UInt32) * 0xa5cb9243 = 1)
  have last : Function.Injective fun word : UInt32 => word * 0xc2b2ae35 :=
    odd_injective (by decide : (0xc2b2ae35 : UInt32) * 0x7ed1b41d = 1)
  exact sixteen.comp (last.comp (thirteen.comp (first.comp sixteen)))

end Mixers

section Words

theorem bytes_of_or (a b c d : UInt8) {word : UInt32}
    (packed : word = a.toUInt32 ||| b.toUInt32 <<< 8 ||| c.toUInt32 <<< 16 ||| d.toUInt32 <<< 24) :
    a = word.toUInt8 ∧ b = (word >>> 8).toUInt8 ∧ c = (word >>> 16).toUInt8 ∧ d = (word >>> 24).toUInt8 := by
  subst packed
  refine ⟨?_, ?_, ?_, ?_⟩ <;>
  · refine UInt8.toBitVec_inj.mp (BitVec.eq_of_getLsbD_eq fun index below => ?_)
    simp [below] <;> grind

theorem bytes_of_xor (a b c : UInt8) {word : UInt32}
    (packed : word = (0 : UInt32) ^^^ c.toUInt32 <<< 16 ^^^ b.toUInt32 <<< 8 ^^^ a.toUInt32) :
    a = word.toUInt8 ∧ b = (word >>> 8).toUInt8 ∧ c = (word >>> 16).toUInt8 := by
  subst packed
  refine ⟨?_, ?_, ?_⟩ <;>
  · refine UInt8.toBitVec_inj.mp (BitVec.eq_of_getLsbD_eq fun index below => ?_)
    simp [below] <;> grind

variable {left right : List UInt8} {offset tail rest : Nat} {h1 : UInt32}

theorem load_separates (same : load left offset = load right offset) (place : Nat) (inside : place < 4) :
    left.getD (offset + place) 0 = right.getD (offset + place) 0 := by
  obtain ⟨zero, one, two, three⟩ := bytes_of_or _ _ _ _ (rfl : load left offset = _)
  obtain ⟨zero', one', two', three'⟩ := bytes_of_or _ _ _ _ (rfl : load right offset = _)
  rw [same] at zero one two three
  match place with
  | 0 => exact zero.trans zero'.symm
  | 1 => exact one.trans one'.symm
  | 2 => exact two.trans two'.symm
  | 3 => exact three.trans three'.symm

/-- The bytes after the last block, those that are not there being zero. -/
def tailByte (data : List UInt8) (tail rest place : Nat) : UInt8 :=
  if place < rest then data.getD (tail + place) 0 else 0

def tailWord (data : List UInt8) (tail rest : Nat) : UInt32 :=
  (0 : UInt32) ^^^ (tailByte data tail rest 2).toUInt32 <<< 16 ^^^ (tailByte data tail rest 1).toUInt32 <<< 8 ^^^
    (tailByte data tail rest 0).toUInt32

/-- Without a tail the word that is mixed in is zero. -/
theorem addTail_eq (few : rest < 4) :
    addTail left tail (UInt32.ofNat rest) h1 = h1 ^^^ scramble (tailWord left tail rest) := by
  match rest with
  | 0 =>
      have empty : tailWord left tail 0 = 0 := by simp [tailWord, tailByte]
      have nothing : scramble 0 = 0 := by decide
      rw [empty, nothing, UInt32.xor_zero]
      rfl
  | 1 => simp [addTail, case1, tailWord, tailByte, byteAt]
  | 2 => simp [addTail, case2, case1, tailWord, tailByte, byteAt]
  | 3 => simp [addTail, case3, case2, case1, tailWord, tailByte, byteAt]

theorem tailWord_separates (same : tailWord left tail rest = tailWord right tail rest) (place : Nat)
    (few : rest < 4) (inside : place < rest) :
    left.getD (tail + place) 0 = right.getD (tail + place) 0 := by
  obtain ⟨zero, one, two⟩ := bytes_of_xor _ _ _ (rfl : tailWord left tail rest = _)
  obtain ⟨zero', one', two'⟩ := bytes_of_xor _ _ _ (rfl : tailWord right tail rest = _)
  rw [same] at zero one two
  have bytes : tailByte left tail rest place = tailByte right tail rest place := by
    match place with
    | 0 => exact zero.trans zero'.symm
    | 1 => exact one.trans one'.symm
    | 2 => exact two.trans two'.symm
    | _ + 3 => omega
  simpa only [tailByte, if_pos inside] using bytes

theorem tailWord_congr (same : ∀ place < rest, left.getD (tail + place) 0 = right.getD (tail + place) 0) :
    tailWord left tail rest = tailWord right tail rest := by
  have bytes (place : Nat) : tailByte left tail rest place = tailByte right tail rest place := by
    by_cases inside : place < rest
    · rw [tailByte, tailByte, if_pos inside, if_pos inside, same place inside]
    · rw [tailByte, tailByte, if_neg inside, if_neg inside]
  rw [tailWord, tailWord, bytes, bytes, bytes]

theorem load_congr (same : ∀ place < 4, left.getD (offset + place) 0 = right.getD (offset + place) 0) :
    load left offset = load right offset := by
  have bytes (place : Nat) (inside : place < 4) : byteAt left (offset + place) = byteAt right (offset + place) :=
    congrArg UInt8.toUInt32 (same place inside)
  rw [load, load, bytes 1 (by decide), bytes 2 (by decide), bytes 3 (by decide)]
  exact congrArg (· ||| _ ||| _ ||| _) (bytes 0 (by decide))

end Words

section Keys

/-- The hash of the first bytes of a string. -/
def hashed (data : List UInt8) (count : Nat) (seed : UInt32) : UInt32 :=
  let blocks := ((List.range (count / 4)).map fun i => load data (i * 4)).foldl absorb seed
  finalize ((blocks ^^^ scramble (tailWord data (count / 4 * 4) (count % 4))) ^^^ UInt32.ofNat count)

theorem murmur3_32_eq {key : CString} {seed : UInt32} {count : Nat}
    (counted : key.bytes.length % 2 ^ 32 = count) :
    murmur3_32 key seed = if 2 ^ 31 ≤ count / 4 * 4 then none else some (hashed key.bytes count seed) := by
  have wraps : UInt32.ofNat key.bytes.length = UInt32.ofNat count := by
    apply UInt32.toNat_inj.mp
    rw [UInt32.toNat_ofNat', UInt32.toNat_ofNat', counted, Nat.mod_eq_of_lt (by omega)]
  have value : (UInt32.ofNat count).toNat = count := by
    rw [UInt32.toNat_ofNat', Nat.mod_eq_of_lt (by omega)]
  have blocks : (UInt32.ofNat count / 4).toNat = count / 4 := by
    rw [UInt32.toNat_div, value]
    rfl
  have rest : UInt32.ofNat count &&& 3 = UInt32.ofNat (count % 4) := by
    apply UInt32.toNat_inj.mp
    rw [UInt32.toNat_and, value, UInt32.toNat_ofNat', Nat.mod_eq_of_lt (by omega)]
    exact Nat.and_two_pow_sub_one_eq_mod count 2
  simp only [murmur3_32, wraps, blocks, rest, hashed, List.foldl_map,
    addTail_eq (Nat.mod_lt count (by decide : 0 < 4))]

variable {left right : List UInt8} {count group : Nat} {seed other : UInt32}

theorem hashed_congr (same : ∀ index < count, left.getD index 0 = right.getD index 0) :
    hashed left count seed = hashed right count seed := by
  have blocks : ((List.range (count / 4)).map fun i => load left (i * 4)) =
      (List.range (count / 4)).map fun i => load right (i * 4) := by
    refine List.map_congr_left fun i member => load_congr fun place inside => ?_
    have below := List.mem_range.mp member
    exact same _ (by omega)
  have tail : tailWord left (count / 4 * 4) (count % 4) = tailWord right (count / 4 * 4) (count % 4) :=
    tailWord_congr fun place inside => same _ (by omega)
  rw [hashed, hashed, blocks, tail]

theorem hashed_seed (same : hashed left count seed = hashed left count other) : seed = other := by
  have mixed := (UInt32.xor_left_inj _).mp (finalize_injective same)
  exact absorb_lossless.foldl_state _ ((UInt32.xor_left_inj _).mp mixed)

/-- Of two strings that agree outside one group of four bytes, the hashed parts agree there too. -/
theorem hashed_separates (elsewhere : ∀ index, index / 4 ≠ group → left.getD index 0 = right.getD index 0)
    (same : hashed left count seed = hashed right count seed) {index : Nat} (inside : index < count) :
    left.getD index 0 = right.getD index 0 := by
  by_cases apart : index / 4 = group
  · have mixed := (UInt32.xor_left_inj _).mp (finalize_injective same)
    by_cases block : group < count / 4
    · have tails : tailWord left (count / 4 * 4) (count % 4) = tailWord right (count / 4 * 4) (count % 4) :=
        tailWord_congr fun place _ => elsewhere _ (by omega)
      rw [tails] at mixed
      have others : ∀ i, i ≠ group → ((List.range (count / 4)).map fun i => load left (i * 4))[i]? =
          ((List.range (count / 4)).map fun i => load right (i * 4))[i]? := by
        intro i apart
        simp only [List.getElem?_map]
        by_cases below : i < count / 4
        · rw [List.getElem?_range below]
          exact congrArg some (load_congr fun place inside => elsewhere _ (by omega))
        · rw [List.getElem?_eq_none (by simpa using below)]
          rfl
      have blocks := absorb_lossless.foldl_separates (by simp) others ((UInt32.xor_left_inj _).mp mixed)
      have words := List.map_inj_left.mp blocks group (List.mem_range.mpr block)
      have bytes := load_separates words (index % 4) (by omega)
      rwa [show group * 4 + index % 4 = index by omega] at bytes
    · have blocks : ((List.range (count / 4)).map fun i => load left (i * 4)) =
          (List.range (count / 4)).map fun i => load right (i * 4) := by
        refine List.map_congr_left fun i member => load_congr fun place inside => elsewhere _ ?_
        have below := List.mem_range.mp member
        omega
      rw [blocks] at mixed
      have words := scramble_injective ((UInt32.xor_right_inj _).mp mixed)
      have bytes := tailWord_separates words (index % 4) (by omega) (by omega)
      rwa [show count / 4 * 4 + index % 4 = index by omega] at bytes
  · exact elsewhere index apart

end Keys

end Murmur

section Murmur

variable {left right : CString} {seed other : UInt32} {group : Nat}

/-- Short strings of one length that differ within one group of four bytes do not collide. -/
theorem murmur3_separates (short : left.bytes.length < 2 ^ 31) (length : left.bytes.length = right.bytes.length)
    (elsewhere : ∀ index, index / 4 ≠ group → left.bytes[index]? = right.bytes[index]?) :
    ∃ first second, murmur3_32 left seed = some first ∧ murmur3_32 right seed = some second ∧
      (first = second → left = right) := by
  have counted : left.bytes.length % 2 ^ 32 = left.bytes.length := Nat.mod_eq_of_lt (by omega)
  have fits : ¬ 2 ^ 31 ≤ left.bytes.length / 4 * 4 := by omega
  refine ⟨Murmur.hashed left.bytes left.bytes.length seed, Murmur.hashed right.bytes left.bytes.length seed,
    ?_, ?_, fun same => ?_⟩
  · rw [Murmur.murmur3_32_eq counted, if_neg fits]
  · rw [length] at counted
    rw [Murmur.murmur3_32_eq counted, if_neg (by omega), length]
  · apply CString.ext_bytes
    refine List.ext_getElem? fun index => ?_
    by_cases inside : index < left.bytes.length
    · have others : ∀ index, index / 4 ≠ group → left.bytes.getD index 0 = right.bytes.getD index 0 := by
        intro index apart
        rw [List.getD_eq_getElem?_getD, List.getD_eq_getElem?_getD, elsewhere index apart]
      have bytes := Murmur.hashed_separates others same inside
      rw [List.getD_eq_getElem?_getD, List.getD_eq_getElem?_getD, List.getElem?_eq_getElem inside,
        List.getElem?_eq_getElem (length ▸ inside)] at bytes
      rw [List.getElem?_eq_getElem inside, List.getElem?_eq_getElem (length ▸ inside)]
      exact congrArg some bytes
    · rw [List.getElem?_eq_none (by omega), List.getElem?_eq_none (by omega)]

/-- `good` and `gold` differ within the first group. -/
theorem murmur3_separates_four : ∃ first second,
    murmur3_32 ⟨[103, 111, 111, 100, 33], by decide⟩ 42 = some first ∧
      murmur3_32 ⟨[103, 111, 108, 100, 33], by decide⟩ 42 = some second ∧ first ≠ second := by
  obtain ⟨first, second, left, right, separates⟩ := @murmur3_separates
    ⟨[103, 111, 111, 100, 33], by decide⟩ ⟨[103, 111, 108, 100, 33], by decide⟩ 42 0 (by decide) rfl (by
      intro index apart
      match index with
      | 0 | 1 | 2 | 3 => exact absurd rfl apart
      | _ + 4 => rfl)
  refine ⟨first, second, left, right, fun same => ?_⟩
  exact absurd (congrArg CString.bytes (separates same)) (by decide)

/-- The seeds of a string that has a hash are told apart by it. -/
theorem murmur3_seeds {key : CString} : murmur3_32 key seed = murmur3_32 key other ↔
    seed = other ∨ 2 ^ 31 ≤ key.bytes.length % 2 ^ 32 := by
  rw [Murmur.murmur3_32_eq rfl, Murmur.murmur3_32_eq rfl]
  by_cases long : 2 ^ 31 ≤ key.bytes.length % 2 ^ 32
  · simp only [if_pos (show 2 ^ 31 ≤ key.bytes.length % 2 ^ 32 / 4 * 4 by omega), long, or_true]
  · simp only [if_neg (show ¬ 2 ^ 31 ≤ key.bytes.length % 2 ^ 32 / 4 * 4 by omega), long, or_false,
      Option.some.injEq]
    constructor
    · exact Murmur.hashed_seed
    · exact fun same => congrArg _ same

def CString.take (str : CString) (count : Nat) : CString where
  bytes := str.bytes.take count
  noNul := fun member => str.noNul (List.mem_of_mem_take member)

/-- `len` is the length modulo `2 ^ 32`, and no byte from there on has a part in the hash. -/
theorem murmur3_wraps {key : CString} :
    murmur3_32 key seed = murmur3_32 (key.take (key.bytes.length % 2 ^ 32)) seed := by
  have length : (key.take (key.bytes.length % 2 ^ 32)).bytes.length = key.bytes.length % 2 ^ 32 := by
    rw [CString.take, List.length_take]
    exact Nat.min_eq_left (Nat.mod_le _ _)
  have short : key.bytes.length % 2 ^ 32 < 2 ^ 32 := Nat.mod_lt _ (by decide)
  rw [Murmur.murmur3_32_eq rfl, Murmur.murmur3_32_eq ((congrArg (· % 2 ^ 32) length).trans
    (Nat.mod_eq_of_lt short))]
  have bytes : ∀ index < key.bytes.length % 2 ^ 32,
      key.bytes.getD index 0 = (key.take (key.bytes.length % 2 ^ 32)).bytes.getD index 0 := by
    intro index inside
    rw [CString.take, List.getD_eq_getElem?_getD, List.getD_eq_getElem?_getD, List.getElem?_take_of_lt inside]
  rw [Murmur.hashed_congr bytes]

end Murmur

end HundredDays.Interning
