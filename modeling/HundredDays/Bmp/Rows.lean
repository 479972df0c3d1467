import HundredDays.Bmp.Model
import Mathlib.Data.List.GetD

namespace HundredDays.Bmp

open HundredDays.Data HundredDays.Memory

/-! What the loops read and write. -/

@[simp] theorem littleEndian_length {width value : Nat} : (littleEndian width value).length = width := by
  simp [littleEndian]

section Numbers

variable {front back bytes : List UInt8} {offset width value : Nat}

theorem numberAt_append (inside : offset + width ≤ front.length) :
    numberAt (front ++ back) offset width = numberAt front offset width := by
  rw [numberAt, numberAt, List.drop_append_of_le_length (by omega), List.take_append_of_le_length (by simp; omega)]

theorem numberAt_concat (behind : front.length = offset) :
    numberAt (front ++ littleEndian width value) offset width = value % 256 ^ width := by
  subst offset
  rw [numberAt, List.drop_left, List.take_of_length_le (by simp), littleEndian, List.reverse_reverse, fromBE_toBE]

theorem numberAt_littleEndian : numberAt (littleEndian width value) 0 width = value % 256 ^ width := by
  rw [← List.nil_append (littleEndian width value), numberAt_concat List.length_nil]

theorem numberAt_lt : numberAt bytes offset width < 256 ^ width := by
  refine lt_of_lt_of_le fromBE_lt (Nat.pow_le_pow_right (by decide) ?_)
  simp

/-- A number that was read is written where it stood. -/
theorem littleEndian_numberAt (inside : offset + width ≤ bytes.length) :
    littleEndian width (numberAt bytes offset width) = (bytes.drop offset).take width := by
  have size : ((bytes.drop offset).take width).reverse.length = width := by simp; omega
  calc littleEndian width (numberAt bytes offset width)
      = (toBE ((bytes.drop offset).take width).reverse.length
          (fromBE ((bytes.drop offset).take width).reverse)).reverse := by rw [size]; rfl
    _ = (bytes.drop offset).take width := by rw [toBE_fromBE, List.reverse_reverse]

end Numbers

namespace BMPHeader

variable {header : BMPHeader} {bytes file : List UInt8}

@[simp] theorem bytes_length : header.bytes.length = headerSize := by simp [BMPHeader.bytes, headerSize]

/-- A header is read back. -/
theorem ofBytes_bytes : ofBytes header.bytes = header := by
  cases header
  simp (disch := simp) only [ofBytes, BMPHeader.bytes, numberAt_append, numberAt_concat, numberAt_littleEndian]
  simp

/-- The bytes of a header are written back. -/
theorem bytes_ofBytes (whole : bytes.length = headerSize) : (ofBytes bytes).bytes = bytes := by
  have small16 (offset : Nat) : (UInt16.ofNat (numberAt bytes offset 2)).toNat = numberAt bytes offset 2 :=
    UInt16.toNat_ofNat_of_lt' numberAt_lt
  have small32 (offset : Nat) : (UInt32.ofNat (numberAt bytes offset 4)).toNat = numberAt bytes offset 4 :=
    UInt32.toNat_ofNat_of_lt' numberAt_lt
  have whole' : bytes.length = 54 := whole
  simp (disch := omega) only [BMPHeader.bytes, ofBytes, UInt32.toUInt32_toInt32, small16, small32,
    littleEndian_numberAt, List.drop_zero, ← List.take_add, Nat.reduceAdd]
  rw [List.take_of_length_le (by omega)]

/-- Where a pixel's byte stands behind the first one. -/
def pixelAt (header : BMPHeader) (index : Nat) : Nat :=
  index / header.rowBytes * header.stride + index % header.rowBytes

variable {index i steps position base offset : Nat} {pixels row : List UInt8}

theorem pixelAt_of_lt (first : index < header.rowBytes) : header.pixelAt index = index := by
  rw [pixelAt, Nat.div_eq_of_lt first, Nat.mod_eq_of_lt first]
  omega

theorem pixelAt_add (positive : 0 < header.rowBytes) :
    header.pixelAt (index + header.rowBytes) = header.stride + header.pixelAt index := by
  rw [pixelAt, pixelAt, Nat.add_div_right _ positive, Nat.add_mod_right, Nat.succ_mul]
  omega

theorem pixelAt_div (positive : 0 < header.rowBytes) :
    header.pixelAt index / header.stride = index / header.rowBytes := by
  have inRow := Nat.mod_lt index positive
  have wider : header.rowBytes ≤ header.stride := Nat.le_add_right _ _
  rw [pixelAt, Nat.mul_comm, Nat.mul_add_div (by omega), Nat.div_eq_of_lt (inRow.trans_le wider), Nat.add_zero]

theorem pixelAt_mod (positive : 0 < header.rowBytes) :
    header.pixelAt index % header.stride = index % header.rowBytes := by
  have inRow := Nat.mod_lt index positive
  have wider : header.rowBytes ≤ header.stride := Nat.le_add_right _ _
  rw [pixelAt, Nat.mul_comm, Nat.mul_add_mod, Nat.mod_eq_of_lt (inRow.trans_le wider)]

theorem pixelAt_lt (inside : index < header.totalPixelsBytes) :
    header.pixelAt index + header.getPadding < header.rows * header.stride := by
  have positive : 0 < header.rowBytes := Nat.pos_of_mul_pos_right (Nat.zero_lt_of_lt inside)
  have inRow := Nat.mod_lt index positive
  have row : index / header.rowBytes + 1 ≤ header.rows := (Nat.div_lt_iff_lt_mul positive).mpr (by
    rw [Nat.mul_comm]
    exact inside)
  have whole := Nat.mul_le_mul_right header.stride row
  rw [Nat.succ_mul] at whole
  rw [pixelAt]
  have wide : header.stride = header.rowBytes + header.getPadding := rfl
  omega

theorem splice_getElem? (inside : offset ≤ pixels.length) :
    (splice pixels offset row)[index]? =
      if offset ≤ index then (row[index - offset]?).or pixels[index]? else pixels[index]? := by
  rw [splice, List.append_assoc]
  split
  case isFalse early =>
    rw [List.getElem?_append_left (by simp; omega), List.getElem?_take_of_lt (by omega)]
  case isTrue late =>
    rw [List.getElem?_append_right (by simp; omega), List.length_take_of_le inside]
    by_cases inRow : index - offset < row.length
    · rw [List.getElem?_append_left inRow, List.getElem?_eq_getElem inRow, Option.some_or]
    · rw [List.getElem?_append_right (by omega), List.getElem?_drop, List.getElem?_eq_none (by omega : row.length ≤ _),
        Option.none_or]
      congr 1
      omega

/-- A row in a file that has the same bytes from two positions on. -/
theorem next_row (same : file.drop position = file.drop base) :
    file.drop (position + ((file.drop position).take header.rowBytes).length + header.getPadding) =
      file.drop (base + header.stride) := by
  rw [Nat.add_assoc, ← List.drop_drop, same, List.length_take, stride]
  by_cases whole : header.rowBytes ≤ (file.drop base).length
  · rw [Nat.min_eq_left whole, List.drop_drop]
  · rw [Nat.min_eq_right (by omega), List.drop_of_length_le (by omega), List.drop_of_length_le]
    rw [List.length_drop] at whole
    omega

theorem freadRows_getElem? (positive : 0 < header.rowBytes) (room : (i + steps) * header.rowBytes ≤ pixels.length)
    (same : file.drop position = file.drop base) :
    (freadRows file header pixels position i steps)[index]? =
      if i * header.rowBytes ≤ index ∧ index < (i + steps) * header.rowBytes then
        (file[base + header.pixelAt (index - i * header.rowBytes)]?).or pixels[index]?
      else pixels[index]? := by
  induction steps generalizing pixels position base i with
  | zero => rw [freadRows, if_neg (by rw [Nat.add_zero]; omega)]
  | succ steps ih =>
      have count : (i + (steps + 1)) = i + 1 + steps := by omega
      have next : (i + 1) * header.rowBytes = i * header.rowBytes + header.rowBytes := Nat.succ_mul _ _
      have later : (i + 1) * header.rowBytes ≤ (i + 1 + steps) * header.rowBytes :=
        Nat.mul_le_mul_right _ (Nat.le_add_right _ _)
      rw [count] at room
      have inside : i * header.rowBytes ≤ pixels.length := by omega
      have size : ((file.drop position).take header.rowBytes).length ≤ header.rowBytes := List.length_take_le _ _
      have kept : pixels.length ≤
          (splice pixels (i * header.rowBytes) ((file.drop position).take header.rowBytes)).length := by
        simp only [splice, List.length_append, List.length_take, List.length_drop]
        omega
      rw [freadRows, ih (room.trans kept) (next_row same), splice_getElem? inside, count, same]
      by_cases early : index < i * header.rowBytes
      · rw [if_neg (by omega), if_neg (by omega), if_neg (by omega)]
      · by_cases here : index < (i + 1) * header.rowBytes
        · have column : index - i * header.rowBytes < header.rowBytes := by omega
          rw [if_neg (by omega), if_pos (by omega), if_pos (by omega), List.getElem?_take_of_lt column,
            List.getElem?_drop, pixelAt_of_lt column]
        · have short : ((file.drop base).take header.rowBytes)[index - i * header.rowBytes]? = none :=
            List.getElem?_eq_none (by rw [← same]; omega)
          have onward : index - i * header.rowBytes = index - (i + 1) * header.rowBytes + header.rowBytes := by omega
          rw [if_pos (by omega : i * header.rowBytes ≤ index), short, Option.none_or, onward, pixelAt_add positive,
            ← Nat.add_assoc]
          by_cases last : index < (i + 1 + steps) * header.rowBytes
          · rw [if_pos (by omega), if_pos (by omega)]
          · rw [if_neg (by omega), if_neg (by omega)]

theorem freadRows_past (past : file.length ≤ position) : freadRows file header pixels position i steps = pixels := by
  induction steps generalizing position i with
  | zero => rfl
  | succ steps ih =>
      have nothing : (file.drop position).take header.rowBytes = [] := by simp [List.drop_of_length_le past]
      have unchanged : splice pixels (i * header.rowBytes) [] = pixels := by simp [splice]
      rw [freadRows, nothing, unchanged, ih (by omega)]

/-- Both loops read the same bytes: after a row that is cut short, there are none. -/
theorem readRows_eq : readRows file header pixels position i steps = freadRows file header pixels position i steps := by
  induction steps generalizing pixels position i with
  | zero => rfl
  | succ steps ih =>
      rw [readRows, freadRows]
      split
      case isTrue short =>
        rw [freadRows_past]
        rw [List.length_take, List.length_drop] at short ⊢
        omega
      case isFalse _ => exact ih

/-- The pixels that are read into a buffer. -/
def painted (file : List UInt8) (header : BMPHeader) (garbage : Nat → UInt8) : List UInt8 :=
  (List.range header.totalPixelsBytes).map fun index =>
    (file[header.bfOffbits.toNat + header.pixelAt index]?).getD (garbage index)

variable {garbage : Nat → UInt8}

@[simp] theorem painted_length : (painted file header garbage).length = header.totalPixelsBytes := by simp [painted]

theorem freadRows_eq_painted (positive : 0 < header.rowBytes) (size : pixels.length = header.totalPixelsBytes)
    (content : ∀ index < header.totalPixelsBytes, pixels[index]? = some (garbage index)) :
    freadRows file header pixels header.bfOffbits.toNat 0 header.rows = painted file header garbage := by
  have total : (0 + header.rows) * header.rowBytes = header.totalPixelsBytes := by
    rw [Nat.zero_add, Nat.mul_comm, totalPixelsBytes]
  apply List.ext_getElem?
  intro index
  rw [freadRows_getElem? positive (by rw [total, size]) rfl, painted, total, Nat.zero_mul, Nat.sub_zero]
  by_cases inside : index < header.totalPixelsBytes
  · rw [if_pos ⟨Nat.zero_le _, inside⟩, content index inside, List.getElem?_map, List.getElem?_range inside,
      Option.map_some, Option.or_some]
  · rw [if_neg (by omega), List.getElem?_eq_none (by omega), List.getElem?_eq_none (by simpa using inside)]

/-- What stands at a position of the rows that are written. -/
def writtenAt (header : BMPHeader) (pixels : List UInt8) (position : Nat) : Option UInt8 :=
  if position % header.stride < header.rowBytes then
    pixels[position / header.stride * header.rowBytes + position % header.stride]?
  else some 0

theorem writtenAt_pixelAt (positive : 0 < header.rowBytes) :
    header.writtenAt pixels (header.pixelAt index) = pixels[index]? := by
  rw [writtenAt, pixelAt_mod positive, pixelAt_div positive, if_pos (Nat.mod_lt _ positive), Nat.mul_comm,
    Nat.div_add_mod]

theorem writeRows_spec (positive : 0 < header.rowBytes) (room : (i + steps) * header.rowBytes ≤ pixels.length) :
    ∃ rows, writeRows header pixels i steps = some rows ∧ rows.length = steps * header.stride ∧
      ∀ position < steps * header.stride, rows[position]? = header.writtenAt pixels (i * header.stride + position) := by
  induction steps generalizing i with
  | zero => exact ⟨[], rfl, by simp, by simp⟩
  | succ steps ih =>
      have count : (i + (steps + 1)) = i + 1 + steps := by omega
      have next : (i + 1) * header.rowBytes = i * header.rowBytes + header.rowBytes := Nat.succ_mul _ _
      have nextStride : (i + 1) * header.stride = i * header.stride + header.stride := Nat.succ_mul _ _
      have later : (i + 1) * header.rowBytes ≤ (i + 1 + steps) * header.rowBytes :=
        Nat.mul_le_mul_right _ (Nat.le_add_right _ _)
      have wide : header.stride = header.rowBytes + header.getPadding := rfl
      rw [count] at room
      obtain ⟨rest, written, size, content⟩ := ih room
      have row := readBytes_eq (by omega : i * header.rowBytes + header.rowBytes ≤ pixels.length)
      have rowSize : ((pixels.drop (i * header.rowBytes)).take header.rowBytes).length = header.rowBytes := by
        simp only [List.length_take, List.length_drop]
        omega
      refine ⟨_, by rw [writeRows, row, written]; rfl, ?_, ?_⟩
      · simp only [List.length_append, List.length_replicate, size, rowSize]
        rw [Nat.succ_mul]
        omega
      intro position inside
      rw [Nat.succ_mul] at inside
      by_cases here : position < header.stride
      · have division : (i * header.stride + position) / header.stride = i := by
          rw [Nat.mul_comm, Nat.mul_add_div (by omega), Nat.div_eq_of_lt here, Nat.add_zero]
        have remainder : (i * header.stride + position) % header.stride = position := by
          rw [Nat.mul_comm, Nat.mul_add_mod, Nat.mod_eq_of_lt here]
        rw [writtenAt, division, remainder, List.getElem?_append_left (by simp [rowSize]; omega)]
        by_cases pixel : position < header.rowBytes
        · rw [if_pos pixel, List.getElem?_append_left (by omega), List.getElem?_take_of_lt pixel, List.getElem?_drop]
        · rw [if_neg pixel, List.getElem?_append_right (by omega), List.getElem?_replicate, if_pos (by omega)]
      · rw [List.getElem?_append_right (by simp [rowSize]; omega), content _ (by simp [rowSize]; omega)]
        congr 1
        simp only [List.length_append, List.length_replicate, rowSize]
        omega

end BMPHeader

end HundredDays.Bmp
