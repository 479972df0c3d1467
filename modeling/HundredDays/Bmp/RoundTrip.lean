import HundredDays.Bmp.Rows

namespace HundredDays.Bmp

open HundredDays.Data HundredDays.Memory BMPHeader

/-! Saving an image and opening what was saved. -/

/-- The header at the start of a file. -/
def headerOf (file : List UInt8) : BMPHeader := .ofBytes (file.take headerSize)

/-- A file with a header for 24 bits per pixel and with data for all rows. -/
structure Readable (file : List UInt8) : Prop where
  whole : headerSize ≤ file.length
  valid : (headerOf file).isValid = true
  bitCount : (headerOf file).biBitCount = 24
  width : 0 < (headerOf file).biWidth
  height : (headerOf file).biHeight ≠ 0
  size : (headerOf file).totalPixelsBytes < 2 ^ 31
  behind : headerSize ≤ (headerOf file).bfOffbits.toNat
  enough : ∀ index < (headerOf file).totalPixelsBytes,
    (headerOf file).bfOffbits.toNat + (headerOf file).pixelAt index < file.length

/-- Pixels right behind the header, with zeros as padding and nothing after them. -/
structure Tight (file : List UInt8) : Prop where
  adjacent : (headerOf file).bfOffbits.toNat = headerSize
  padding : ∀ position < (headerOf file).rows * (headerOf file).stride,
    (headerOf file).rowBytes ≤ position % (headerOf file).stride → file[headerSize + position]? = some 0
  ends : file.length = headerSize + (headerOf file).rows * (headerOf file).stride

/-- All bytes of the pixels are zero. -/
def Black (file : List UInt8) : Prop :=
  ∀ index < (headerOf file).totalPixelsBytes,
    file[(headerOf file).bfOffbits.toNat + (headerOf file).pixelAt index]? = some 0

/-- The class: what is saved opens as the same image in a new object. -/
def BMPImage.SaveUndoesOpen (file : List UInt8) : Prop :=
  ∀ image : BMPImage, ∃ opened saved,
    image.open file = some (true, opened) ∧ opened.save = some saved ∧
      BMPImage.default.open saved = some (true, opened) ∧ opened.invertColors.invertColors = opened ∧
      (Tight file → saved = file)

/-- The functions: what is written opens as the same pixels, in memory of any content. -/
def WriteUndoesOpen (file : List UInt8) : Prop :=
  ∀ header garbage, ∃ opened pixels saved,
    openBMP file header garbage = some (opened, pixels) ∧ writeBMP opened pixels = some saved ∧
      (∀ header garbage, openBMP saved header garbage = some (opened, pixels)) ∧
      invertBMP opened (invertBMP opened pixels) = pixels ∧ (Tight file → saved = file)

/-- The bytes of the pixels of a file. -/
def pixelsOf (file : List UInt8) : List UInt8 := painted file (headerOf file) fun _ => 0

section Opening

variable {file : List UInt8} {header : BMPHeader} {image : BMPImage} {garbage : Nat → UInt8}

theorem read_eq (whole : headerSize ≤ file.length) : header.read file = headerOf file := by
  have size : (file.take headerSize).length = headerSize := List.length_take_of_le whole
  rw [BMPHeader.read, headerOf, splice, size, List.drop_of_length_le (by rw [bytes_length]; omega), List.append_nil,
    List.take_zero, List.nil_append]

theorem headerOf_append {rows : List UInt8} : headerOf (header.bytes ++ rows) = header := by
  have size : header.bytes.length = headerSize := bytes_length
  rw [headerOf, ← size, List.take_left, ofBytes_bytes]

theorem openBMP_eq (whole : headerSize ≤ file.length) (positive : 0 < (headerOf file).rowBytes)
    (representable : (headerOf file).Representable) :
    openBMP file header garbage = some (headerOf file, painted file (headerOf file) garbage) := by
  rw [openBMP, read_eq whole, if_pos representable]
  simp only
  rw [freadRows_eq_painted positive (by simp)]
  intro index inside
  rw [List.getElem?_map, List.getElem?_range inside, Option.map_some]

theorem open_eq (whole : headerSize ≤ file.length) (positive : 0 < (headerOf file).rowBytes)
    (representable : (headerOf file).Representable) (valid : (headerOf file).isValid = true) :
    image.open file =
      some (true, ⟨headerOf file, painted file (headerOf file) fun index => image.pixels[index]?.getD 0⟩) := by
  have content (size index : Nat) (inside : index < size) :
      (BMPImage.resize image.pixels size)[index]? = some (image.pixels[index]?.getD 0) := by
    by_cases old : index < image.pixels.length
    · rw [BMPImage.resize, List.getElem?_append_left (by simp; omega), List.getElem?_take_of_lt inside,
        List.getElem?_eq_getElem old]
      rfl
    · rw [BMPImage.resize, List.getElem?_append_right (by simp; omega), List.getElem?_replicate,
        if_pos (by simp; omega), List.getElem?_eq_none (by omega)]
      rfl
  have size : (BMPImage.resize image.pixels (headerOf file).totalPixelsBytes).length =
      (headerOf file).totalPixelsBytes := by
    simp [BMPImage.resize]
    omega
  rw [BMPImage.open, read_eq whole, if_pos valid, if_pos representable]
  simp only
  rw [if_neg (by omega), readRows_eq, freadRows_eq_painted positive size (content _)]

end Opening

theorem pixelsOf_length {file : List UInt8} : (pixelsOf file).length = (headerOf file).totalPixelsBytes :=
  painted_length

namespace Readable

variable {file : List UInt8} {image : BMPImage} {garbage : Nat → UInt8} (readable : Readable file)
include readable

theorem positive : 0 < (headerOf file).rowBytes := by
  have width := Int32.lt_iff_toInt_lt.mp readable.width
  have zero : (0 : Int32).toInt = 0 := rfl
  rw [rowBytes]
  omega

theorem rows_pos : 0 < (headerOf file).rows := by
  have height : (headerOf file).biHeight.toInt ≠ 0 := fun zero => readable.height (Int32.toInt_inj.mp zero)
  rw [rows]
  omega

theorem representable : (headerOf file).Representable := by
  have width := Int32.lt_iff_toInt_lt.mp readable.width
  have zero : (0 : Int32).toInt = 0 := rfl
  have size := readable.size
  have wide := Nat.le_mul_of_pos_right (headerOf file).rowBytes readable.rows_pos
  have high := Nat.le_mul_of_pos_left (headerOf file).rows readable.positive
  have total : (headerOf file).totalPixelsBytes = (headerOf file).rowBytes * (headerOf file).rows := rfl
  refine ⟨by omega, by omega, by omega, size⟩

theorem painted_eq : painted file (headerOf file) garbage = pixelsOf file := by
  apply List.map_congr_left
  intro index inside
  rw [List.getElem?_eq_getElem (readable.enough index (List.mem_range.mp inside)), Option.getD_some, Option.getD_some]

theorem open_eq : image.open file = some (true, { header := headerOf file, pixels := pixelsOf file }) := by
  rw [Bmp.open_eq readable.whole readable.positive readable.representable readable.valid, readable.painted_eq]

theorem openBMP_eq {header : BMPHeader} : openBMP file header garbage = some (headerOf file, pixelsOf file) := by
  rw [Bmp.openBMP_eq readable.whole readable.positive readable.representable, readable.painted_eq]

theorem pixelsOf_getElem? {index : Nat} (inside : index < (headerOf file).totalPixelsBytes) :
    (pixelsOf file)[index]? = file[(headerOf file).bfOffbits.toNat + (headerOf file).pixelAt index]? := by
  rw [pixelsOf, painted, List.getElem?_map, List.getElem?_range inside, Option.map_some,
    List.getElem?_eq_getElem (readable.enough index inside)]
  rfl

end Readable

namespace BMPHeader

variable {header : BMPHeader} {index other position : Nat}

theorem pixelAt_mono (ordered : index ≤ other) : header.pixelAt index ≤ header.pixelAt other := by
  have spread (index : Nat) : header.pixelAt index = index + index / header.rowBytes * header.getPadding := by
    have whole := Nat.div_add_mod index header.rowBytes
    rw [pixelAt, stride, Nat.mul_add, Nat.mul_comm (index / header.rowBytes) header.rowBytes]
    omega
  rw [spread, spread]
  exact Nat.add_le_add ordered (Nat.mul_le_mul_right _ (Nat.div_le_div_right ordered))

theorem pixelAt_last (positive : 0 < header.rowBytes) (some_row : 0 < header.rows) :
    header.pixelAt (header.totalPixelsBytes - 1) + header.getPadding + 1 = header.rows * header.stride := by
  obtain ⟨above, rows⟩ : ∃ above, header.rows = above + 1 := ⟨header.rows - 1, by omega⟩
  have last : header.totalPixelsBytes - 1 = header.rowBytes * above + (header.rowBytes - 1) := by
    rw [totalPixelsBytes, rows, Nat.mul_succ]
    omega
  have column : header.rowBytes - 1 < header.rowBytes := by omega
  rw [last, pixelAt, Nat.mul_add_div positive, Nat.mul_add_mod, Nat.div_eq_of_lt column, Nat.mod_eq_of_lt column, rows,
    Nat.succ_mul, Nat.add_zero above]
  have wide : header.stride = header.rowBytes + header.getPadding := rfl
  omega

/-- Every position is one of a pixel or one of padding. -/
theorem pixel_or_padding (positive : 0 < header.rowBytes) (pixels : List UInt8) :
    (header.rowBytes ≤ position % header.stride ∧ header.writtenAt pixels position = some 0) ∨
      ∃ index, header.pixelAt index = position ∧ header.writtenAt pixels position = pixels[index]? := by
  by_cases inRow : position % header.stride < header.rowBytes
  · right
    have row : (position / header.stride * header.rowBytes + position % header.stride) / header.rowBytes =
        position / header.stride := by
      rw [Nat.mul_comm, Nat.mul_add_div positive, Nat.div_eq_of_lt inRow, Nat.add_zero]
    have column : (position / header.stride * header.rowBytes + position % header.stride) % header.rowBytes =
        position % header.stride := by
      rw [Nat.mul_comm, Nat.mul_add_mod, Nat.mod_eq_of_lt inRow]
    have stands : header.pixelAt (position / header.stride * header.rowBytes + position % header.stride) =
        position := by
      rw [pixelAt, row, column, Nat.mul_comm, Nat.div_add_mod]
    exact ⟨_, stands, by rw [writtenAt, if_pos inRow]⟩
  · left
    exact ⟨by omega, by rw [writtenAt, if_neg inRow]⟩

end BMPHeader

/-- The rows that are written for a list of pixels. -/
structure Written (header : BMPHeader) (pixels rows : List UInt8) : Prop where
  write : writeRows header pixels 0 header.rows = some rows
  size : rows.length = header.rows * header.stride
  content : ∀ position < header.rows * header.stride, rows[position]? = header.writtenAt pixels position

/-- How much further on than they do the header says that the pixels start. -/
def shift (header : BMPHeader) : Nat := header.bfOffbits.toNat - headerSize

theorem saved_getElem? {header : BMPHeader} {rows : List UInt8} {index : Nat}
    (behind : headerSize ≤ header.bfOffbits.toNat) :
    (header.bytes ++ rows)[header.bfOffbits.toNat + index]? = rows[shift header + index]? := by
  rw [List.getElem?_append_right (by rw [bytes_length]; omega), bytes_length, shift]
  congr 1
  omega

namespace Written

variable {header : BMPHeader} {pixels rows : List UInt8} {garbage : Nat → UInt8} {index : Nat} {byte : UInt8}

theorem exists_of_length (positive : 0 < header.rowBytes) (size : pixels.length = header.totalPixelsBytes) :
    ∃ rows, Written header pixels rows := by
  have room : (0 + header.rows) * header.rowBytes ≤ pixels.length := by
    rw [size, Nat.zero_add, Nat.mul_comm, totalPixelsBytes]
  obtain ⟨rows, write, length, content⟩ := writeRows_spec positive room
  simp only [Nat.zero_mul, Nat.zero_add] at content
  exact ⟨rows, write, length, content⟩

variable (written : Written header pixels rows) (positive : 0 < header.rowBytes)
include written positive

/-- A shifted byte is zero, or it is one of a later pixel. -/
theorem shifted (late : 0 < shift header) (found : rows[shift header + header.pixelAt index]? = some byte) :
    byte = 0 ∨ ∃ later, index < later ∧ pixels[later]? = some byte := by
  have inside : shift header + header.pixelAt index < header.rows * header.stride := by
    rw [← written.size]
    exact (List.getElem?_eq_some_iff.mp found).1
  rw [written.content _ inside] at found
  rcases pixel_or_padding positive pixels with ⟨_, padding⟩ | ⟨later, stands, pixel⟩
  · rw [padding] at found
    exact .inl (Option.some.inj found).symm
  · right
    refine ⟨later, ?_, by rw [← pixel, found]⟩
    by_contra early
    have ordered : header.pixelAt later ≤ header.pixelAt index := pixelAt_mono (by omega)
    omega

variable (size : pixels.length = header.totalPixelsBytes)
include size

/-- Pixels that a shifted reading does not change, with nothing but zeros behind the end, are zero. -/
theorem zero_of_same (late : 0 < shift header)
    (same : ∀ index < header.totalPixelsBytes,
      (rows[shift header + header.pixelAt index]?).getD 0 = pixels[index]?.getD 0) :
    ∀ index < header.totalPixelsBytes, pixels[index]? = some 0 := by
  intro index inside
  induction left : header.totalPixelsBytes - index using Nat.strong_induction_on generalizing index with
  | _ left ih =>
      have present : pixels[index]? = some (pixels[index]?.getD 0) := by
        rw [List.getElem?_eq_getElem (by omega), Option.getD_some]
      rw [present, ← same index inside]
      cases found : rows[shift header + header.pixelAt index]? with
      | none => rfl
      | some byte =>
          rcases written.shifted positive late found with zero | ⟨later, after, pixel⟩
          · rw [zero, Option.getD_some]
          · have laterInside : later < header.totalPixelsBytes := by
              rw [← size]
              exact (List.getElem?_eq_some_iff.mp pixel).1
            rw [Option.getD_some, ← pixel]
            exact ih _ (by omega) later laterInside rfl

/-- Read behind its place, a black image is zero. -/
theorem zero_of_black (black : ∀ index < header.totalPixelsBytes, pixels[index]? = some 0) :
    (rows[index]?).getD 0 = 0 := by
  cases found : rows[index]? with
  | none => rfl
  | some byte =>
      have inside : index < header.rows * header.stride := by
        rw [← written.size]
        exact (List.getElem?_eq_some_iff.mp found).1
      rw [written.content _ inside] at found
      rcases pixel_or_padding positive pixels with ⟨_, padding⟩ | ⟨place, stands, pixel⟩
      · rw [padding] at found
        rw [Option.getD_some, Option.some.inj found]
      · rw [pixel] at found
        have placeInside : place < header.totalPixelsBytes := by
          rw [← size]
          exact (List.getElem?_eq_some_iff.mp found).1
        rw [black place placeInside] at found
        rw [Option.getD_some, Option.some.inj found]

omit written positive in
theorem painted_iff (behind : headerSize ≤ header.bfOffbits.toNat) :
    painted (header.bytes ++ rows) header garbage = pixels ↔
      ∀ index < header.totalPixelsBytes,
        (rows[shift header + header.pixelAt index]?).getD (garbage index) = pixels[index]?.getD 0 := by
  have read (index : Nat) (inside : index < header.totalPixelsBytes) :
      (painted (header.bytes ++ rows) header garbage)[index]? =
        some ((rows[shift header + header.pixelAt index]?).getD (garbage index)) := by
    rw [painted, List.getElem?_map, List.getElem?_range inside, Option.map_some,
      saved_getElem? behind]
  constructor
  · intro same index inside
    rw [← Option.some_inj, ← read index inside, same, List.getElem?_eq_getElem (by omega), Option.getD_some]
  · intro same
    apply List.ext_getElem?
    intro index
    by_cases inside : index < header.totalPixelsBytes
    · rw [read index inside, same index inside, List.getElem?_eq_getElem (by omega), Option.getD_some]
    · rw [List.getElem?_eq_none (by rw [painted_length]; omega), List.getElem?_eq_none (by omega)]

theorem painted_of_unshifted (behind : headerSize ≤ header.bfOffbits.toNat) (unshifted : shift header = 0) :
    painted (header.bytes ++ rows) header garbage = pixels := by
  rw [painted_iff size behind]
  intro index inside
  have place := pixelAt_lt inside
  rw [unshifted, Nat.zero_add, written.content _ (by omega), writtenAt_pixelAt positive,
    List.getElem?_eq_getElem (by omega), Option.getD_some, Option.getD_some]

end Written

section RoundTrip

variable {file : List UInt8} (readable : Readable file)
include readable

theorem black_iff :
    Black file ↔ ∀ index < (headerOf file).totalPixelsBytes, (pixelsOf file)[index]? = some 0 :=
  forall₂_congr fun _ inside => by rw [readable.pixelsOf_getElem? inside]

theorem Written.saved_eq {rows : List UInt8} (written : Written (headerOf file) (pixelsOf file) rows)
    (tight : Tight file) : (headerOf file).bytes ++ rows = file := by
  have front : (headerOf file).bytes = file.take headerSize :=
    bytes_ofBytes (List.length_take_of_le readable.whole)
  have back : rows = file.drop headerSize := by
    apply List.ext_getElem?
    intro position
    have ends := tight.ends
    rw [List.getElem?_drop]
    by_cases inside : position < (headerOf file).rows * (headerOf file).stride
    · rcases pixel_or_padding readable.positive (pixelsOf file) with ⟨inPadding, padding⟩ | ⟨index, stands, pixel⟩
      · rw [written.content position inside, padding, tight.padding position inside inPadding]
      · have present : rows[position]? = some (rows[position]?.getD 0) := by
          rw [List.getElem?_eq_getElem (by rw [written.size]; exact inside), Option.getD_some]
        have indexInside : index < (headerOf file).totalPixelsBytes := by
          rw [written.content position inside, pixel] at present
          rw [← pixelsOf_length]
          exact (List.getElem?_eq_some_iff.mp present).1
        rw [written.content position inside, pixel, readable.pixelsOf_getElem? indexInside, tight.adjacent, stands]
    · rw [List.getElem?_eq_none (by rw [written.size]; omega), List.getElem?_eq_none (by omega)]
  rw [front, back, List.take_append_drop]

omit readable in
theorem invert_invert (pixels : List UInt8) : (pixels.map (255 - ·)).map (255 - ·) = pixels := by
  have twice (byte : UInt8) : 255 - (255 - byte) = byte := by
    apply UInt8.toNat_inj.mp
    rw [UInt8.toNat_sub, UInt8.toNat_sub]
    have small := byte.toNat_lt
    have top : (255 : UInt8).toNat = 255 := rfl
    omega
  have composed : ((255 - ·) ∘ (255 - ·) : UInt8 → UInt8) = id := funext twice
  rw [List.map_map, composed, List.map_id]

theorem saveUndoesOpen_iff :
    BMPImage.SaveUndoesOpen file ↔ (headerOf file).bfOffbits.toNat = headerSize ∨ Black file := by
  have positive := readable.positive
  have behind := readable.behind
  obtain ⟨rows, written⟩ : ∃ rows, Written (headerOf file) (pixelsOf file) rows :=
    Written.exists_of_length positive pixelsOf_length
  have saved : BMPImage.save ⟨headerOf file, pixelsOf file⟩ = some ((headerOf file).bytes ++ rows) := by
    rw [BMPImage.save, written.write]
    rfl
  have reopened : BMPImage.default.open ((headerOf file).bytes ++ rows) =
      some (true, ⟨headerOf file, painted ((headerOf file).bytes ++ rows) (headerOf file) fun _ => 0⟩) := by
    rw [open_eq (by simp), headerOf_append]
    · simp [BMPImage.default]
    all_goals rw [headerOf_append]
    · exact positive
    · exact readable.representable
    · exact readable.valid
  have same : BMPImage.SaveUndoesOpen file ↔
      painted ((headerOf file).bytes ++ rows) (headerOf file) (fun _ => 0) = pixelsOf file := by
    constructor
    · intro restores
      obtain ⟨opened, result, first, second, third, _⟩ := restores .default
      rw [readable.open_eq, Option.some_inj, Prod.mk.injEq] at first
      rw [← first.2, saved, Option.some_inj] at second
      rw [← second, ← first.2, reopened, Option.some_inj, Prod.mk.injEq, BMPImage.mk.injEq] at third
      exact third.2.2
    · intro equal image
      refine ⟨_, _, readable.open_eq, saved, by rw [reopened, equal], ?_, written.saved_eq readable⟩
      simp only [BMPImage.invertColors, invert_invert]
  rw [same]
  constructor
  · intro equal
    rw [Written.painted_iff pixelsOf_length behind] at equal
    by_cases unshifted : shift (headerOf file) = 0
    · left
      rw [shift] at unshifted
      omega
    · right
      rw [black_iff readable]
      exact written.zero_of_same positive pixelsOf_length (by omega) equal
  · rintro (adjacent | black)
    · exact written.painted_of_unshifted positive pixelsOf_length behind (by rw [shift, adjacent, Nat.sub_self])
    · rw [black_iff readable] at black
      rw [Written.painted_iff pixelsOf_length behind]
      intro index inside
      rw [written.zero_of_black positive pixelsOf_length black, black index inside, Option.getD_some]

theorem writeUndoesOpen_iff :
    WriteUndoesOpen file ↔ (headerOf file).bfOffbits.toNat = headerSize ∨
      (Black file ∧ (headerOf file).bfOffbits.toNat ≤ headerSize + (headerOf file).getPadding) := by
  have positive := readable.positive
  have behind := readable.behind
  obtain ⟨rows, written⟩ : ∃ rows, Written (headerOf file) (pixelsOf file) rows :=
    Written.exists_of_length positive pixelsOf_length
  have saved : writeBMP (headerOf file) (pixelsOf file) = some ((headerOf file).bytes ++ rows) := by
    rw [writeBMP, written.write]
    rfl
  have reopened (header : BMPHeader) (garbage : Nat → UInt8) :
      openBMP ((headerOf file).bytes ++ rows) header garbage =
        some (headerOf file, painted ((headerOf file).bytes ++ rows) (headerOf file) garbage) := by
    rw [openBMP_eq (by simp), headerOf_append]
    all_goals rw [headerOf_append]
    · exact positive
    · exact readable.representable
  have inverted : invertBMP (headerOf file) (invertBMP (headerOf file) (pixelsOf file)) = pixelsOf file := by
    have whole (pixels : List UInt8) (size : pixels.length = (headerOf file).totalPixelsBytes) :
        invertBMP (headerOf file) pixels = pixels.map (255 - ·) := by
      rw [invertBMP, List.take_of_length_le (by omega), List.drop_of_length_le (by omega), List.append_nil]
    rw [whole _ pixelsOf_length, whole _ (by rw [List.length_map, pixelsOf_length]), invert_invert]
  have same : WriteUndoesOpen file ↔ ∀ garbage : Nat → UInt8,
      painted ((headerOf file).bytes ++ rows) (headerOf file) garbage = pixelsOf file := by
    constructor
    · intro restores garbage
      obtain ⟨opened, pixels, result, first, second, third, _⟩ := restores (headerOf file) garbage
      rw [readable.openBMP_eq, Option.some_inj, Prod.mk.injEq] at first
      rw [← first.1, ← first.2, saved, Option.some_inj] at second
      have again := third (headerOf file) garbage
      rw [← second, ← first.1, ← first.2, reopened, Option.some_inj, Prod.mk.injEq] at again
      exact again.2
    · intro equal header garbage
      exact ⟨_, _, _, readable.openBMP_eq, saved, fun header garbage => by rw [reopened, equal], inverted,
        written.saved_eq readable⟩
  rw [same]
  constructor
  · intro equal
    by_cases unshifted : shift (headerOf file) = 0
    · left
      rw [shift] at unshifted
      omega
    · right
      have zeros := (Written.painted_iff pixelsOf_length behind).mp (equal fun _ => 0)
      have ones := (Written.painted_iff pixelsOf_length behind).mp (equal fun _ => 1)
      have black := written.zero_of_same positive pixelsOf_length (by omega) zeros
      refine ⟨(black_iff readable).mpr black, ?_⟩
      -- the last byte of the last pixel still lies in the file
      have some_pixel : 0 < (headerOf file).totalPixelsBytes := Nat.mul_pos positive readable.rows_pos
      have last : (headerOf file).totalPixelsBytes - 1 < (headerOf file).totalPixelsBytes := by omega
      have inFile : shift (headerOf file) + (headerOf file).pixelAt ((headerOf file).totalPixelsBytes - 1) <
          rows.length := by
        by_contra outside
        have one := ones _ last
        rw [black _ last, List.getElem?_eq_none (by omega)] at one
        cases one
      have ends := pixelAt_last positive readable.rows_pos
      rw [written.size, shift] at inFile
      omega
  · rintro (adjacent | ⟨black, near⟩) garbage
    · exact written.painted_of_unshifted positive pixelsOf_length behind (by rw [shift, adjacent, Nat.sub_self])
    · rw [black_iff readable] at black
      rw [Written.painted_iff pixelsOf_length behind]
      intro index inside
      have place := pixelAt_lt inside
      have present : rows[shift (headerOf file) + (headerOf file).pixelAt index]? ≠ none := by
        rw [Ne, List.getElem?_eq_none_iff, written.size, shift]
        omega
      have zero : (rows[shift (headerOf file) + (headerOf file).pixelAt index]?).getD 0 = 0 :=
        written.zero_of_black positive pixelsOf_length black
      cases found : rows[shift (headerOf file) + (headerOf file).pixelAt index]? with
      | none => exact absurd found present
      | some byte =>
          rw [found] at zero
          rw [black index inside]
          exact zero

end RoundTrip

/-- Saving undoes opening only where the pixels start right behind the header, or all are zero. -/
theorem save_undoes_open (file : List UInt8) (readable : Readable file) :
    (BMPImage.SaveUndoesOpen file ↔ (headerOf file).bfOffbits.toNat = headerSize ∨ Black file) ∧
      (WriteUndoesOpen file ↔ (headerOf file).bfOffbits.toNat = headerSize ∨
        (Black file ∧ (headerOf file).bfOffbits.toNat ≤ headerSize + (headerOf file).getPadding)) :=
  ⟨saveUndoesOpen_iff readable, writeUndoesOpen_iff readable⟩

/-- A header for one pixel. -/
def onePixel (bfOffbits : UInt32) : BMPHeader :=
  { bfType := 0x4D42, bfSize := bfOffbits + 4, bfReserved1 := 0, bfReserved2 := 0, bfOffbits
    biSize := 40, biWidth := 1, biHeight := 1, biPlanes := 1, biBitCount := 24, biCompression := 0, biSizeImage := 4
    biXPelsPerMeter := 0, biYPelsPerMeter := 0, biClrUsed := 0, biClrImportant := 0 }

theorem save_undoes_open_adjacent :
    BMPImage.SaveUndoesOpen ((onePixel 54).bytes ++ [1, 2, 3, 0]) ∧
      WriteUndoesOpen ((onePixel 54).bytes ++ [1, 2, 3, 0]) := by
  have readable : Readable ((onePixel 54).bytes ++ [1, 2, 3, 0]) := by
    constructor
    case whole => simp
    all_goals
      rw [headerOf_append]
      decide
  have both := save_undoes_open _ readable
  rw [headerOf_append] at both
  exact ⟨both.1.mpr (.inl rfl), both.2.mpr (.inl rfl)⟩

/-- Four bytes between the header and the pixel. -/
theorem save_breaks_open :
    Readable ((onePixel 58).bytes ++ [0, 0, 0, 0, 1, 2, 3, 0]) ∧
      ¬ BMPImage.SaveUndoesOpen ((onePixel 58).bytes ++ [0, 0, 0, 0, 1, 2, 3, 0]) ∧
      ¬ WriteUndoesOpen ((onePixel 58).bytes ++ [0, 0, 0, 0, 1, 2, 3, 0]) := by
  have readable : Readable ((onePixel 58).bytes ++ [0, 0, 0, 0, 1, 2, 3, 0]) := by
    constructor
    case whole => simp
    all_goals
      rw [headerOf_append]
      decide
  have bright : ¬ Black ((onePixel 58).bytes ++ [0, 0, 0, 0, 1, 2, 3, 0]) := by
    intro black
    rw [Black, headerOf_append] at black
    exact absurd (black 0 (by decide)) (by decide)
  have shifted : (onePixel 58).bfOffbits.toNat ≠ headerSize := by decide
  refine ⟨readable, ?_, ?_⟩
  · rw [saveUndoesOpen_iff readable, headerOf_append]
    exact fun either => either.elim shifted bright
  · rw [writeUndoesOpen_iff readable, headerOf_append]
    exact fun either => either.elim shifted fun zero => bright zero.1

end HundredDays.Bmp
