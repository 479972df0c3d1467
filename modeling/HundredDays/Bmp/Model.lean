import HundredDays.Data.BigEndian
import HundredDays.Memory.Buffer

namespace HundredDays.Bmp

open HundredDays.Data HundredDays.Memory

/-! Reading and writing bitmaps, in C and in C++.

A file is the list of its bytes.  The header is overlaid with the first 54 of them, on
a little-endian host.
-/

structure BMPHeader where
  bfType : UInt16
  bfSize : UInt32
  bfReserved1 : UInt16
  bfReserved2 : UInt16
  bfOffbits : UInt32
  biSize : UInt32
  biWidth : Int32
  biHeight : Int32
  biPlanes : UInt16
  biBitCount : UInt16
  biCompression : UInt32
  biSizeImage : UInt32
  biXPelsPerMeter : Int32
  biYPelsPerMeter : Int32
  biClrUsed : UInt32
  biClrImportant : UInt32
deriving DecidableEq

/-- `sizeof(BMPHeader)` -/
def headerSize : Nat := 54

/-- A number in memory. -/
def littleEndian (width value : Nat) : List UInt8 := (toBE width value).reverse

/-- The number in the bytes from an offset on. -/
def numberAt (bytes : List UInt8) (offset width : Nat) : Nat := fromBE ((bytes.drop offset).take width).reverse

namespace BMPHeader

def bytes (header : BMPHeader) : List UInt8 :=
  littleEndian 2 header.bfType.toNat ++ littleEndian 4 header.bfSize.toNat ++
    littleEndian 2 header.bfReserved1.toNat ++ littleEndian 2 header.bfReserved2.toNat ++
    littleEndian 4 header.bfOffbits.toNat ++ littleEndian 4 header.biSize.toNat ++
    littleEndian 4 header.biWidth.toUInt32.toNat ++ littleEndian 4 header.biHeight.toUInt32.toNat ++
    littleEndian 2 header.biPlanes.toNat ++ littleEndian 2 header.biBitCount.toNat ++
    littleEndian 4 header.biCompression.toNat ++ littleEndian 4 header.biSizeImage.toNat ++
    littleEndian 4 header.biXPelsPerMeter.toUInt32.toNat ++ littleEndian 4 header.biYPelsPerMeter.toUInt32.toNat ++
    littleEndian 4 header.biClrUsed.toNat ++ littleEndian 4 header.biClrImportant.toNat

def ofBytes (bytes : List UInt8) : BMPHeader :=
  { bfType := UInt16.ofNat (numberAt bytes 0 2)
    bfSize := UInt32.ofNat (numberAt bytes 2 4)
    bfReserved1 := UInt16.ofNat (numberAt bytes 6 2)
    bfReserved2 := UInt16.ofNat (numberAt bytes 8 2)
    bfOffbits := UInt32.ofNat (numberAt bytes 10 4)
    biSize := UInt32.ofNat (numberAt bytes 14 4)
    biWidth := (UInt32.ofNat (numberAt bytes 18 4)).toInt32
    biHeight := (UInt32.ofNat (numberAt bytes 22 4)).toInt32
    biPlanes := UInt16.ofNat (numberAt bytes 26 2)
    biBitCount := UInt16.ofNat (numberAt bytes 28 2)
    biCompression := UInt32.ofNat (numberAt bytes 30 4)
    biSizeImage := UInt32.ofNat (numberAt bytes 34 4)
    biXPelsPerMeter := (UInt32.ofNat (numberAt bytes 38 4)).toInt32
    biYPelsPerMeter := (UInt32.ofNat (numberAt bytes 42 4)).toInt32
    biClrUsed := UInt32.ofNat (numberAt bytes 46 4)
    biClrImportant := UInt32.ofNat (numberAt bytes 50 4) }

variable (header : BMPHeader)

/-- `header.biWidth * 3` -/
def rowBytes : Nat := header.biWidth.toInt.toNat * 3

/-- `abs(header.biHeight)` -/
def rows : Nat := header.biHeight.toInt.natAbs

def getPadding : Nat := (4 - header.rowBytes % 4) % 4

def stride : Nat := header.rowBytes + header.getPadding

def totalPixelsBytes : Nat := header.rowBytes * header.rows

/-- Sizes that are computed in `int` without overflow.  With other ones nothing is returned. -/
def Representable : Prop :=
  0 ≤ header.biWidth.toInt ∧ header.rowBytes < 2 ^ 31 ∧ header.rows < 2 ^ 31 ∧ header.totalPixelsBytes < 2 ^ 31

instance : Decidable header.Representable := inferInstanceAs (Decidable (_ ∧ _ ∧ _ ∧ _))

/-- Reading into the header; a short file leaves the rest of it. -/
def read (file : List UInt8) : BMPHeader := ofBytes (splice header.bytes 0 (file.take headerSize))

def isValid : Bool := header.bfType == 0x4D42

end BMPHeader

/-! ### The C functions -/

/-- The loop of `openBMP`.  Behind the end of the file there is nothing to read. -/
def freadRows (file : List UInt8) (header : BMPHeader) (pixels : List UInt8) (position i : Nat) : Nat → List UInt8
  | 0 => pixels
  | steps + 1 =>
      let row := (file.drop position).take header.rowBytes
      let pixels := splice pixels (i * header.rowBytes) row
      freadRows file header pixels (position + row.length + header.getPadding) (i + 1) steps

/-- With what `malloc` returns; the header is not checked. -/
def openBMP (file : List UInt8) (header : BMPHeader) (garbage : Nat → UInt8) : Option (BMPHeader × List UInt8) :=
  let header := header.read file
  if header.Representable then
    let pixels := (List.range header.totalPixelsBytes).map garbage
    some (header, freadRows file header pixels header.bfOffbits.toNat 0 header.rows)
  else none

/-- The loop over the rows, with what it writes. -/
def writeRows (header : BMPHeader) (pixels : List UInt8) (i : Nat) : Nat → Option (List UInt8)
  | 0 => some []
  | steps + 1 => do
      let row ← readBytes pixels (i * header.rowBytes) header.rowBytes
      let rest ← writeRows header pixels (i + 1) steps
      return row ++ List.replicate header.getPadding 0 ++ rest

def writeBMP (header : BMPHeader) (pixels : List UInt8) : Option (List UInt8) := do
  let rows ← writeRows header pixels 0 header.rows
  return header.bytes ++ rows

def invertBMP (header : BMPHeader) (pixels : List UInt8) : List UInt8 :=
  (pixels.take header.totalPixelsBytes).map (255 - ·) ++ pixels.drop header.totalPixelsBytes

/-! ### The C++ class -/

structure BMPImage where
  header : BMPHeader
  pixels : List UInt8

/-- What the constructor makes. -/
def BMPImage.default : BMPImage := { header := .ofBytes (List.replicate headerSize 0), pixels := [] }

/-- The loop of `open`.  A row that is cut short is the last one that the stream reads. -/
def readRows (file : List UInt8) (header : BMPHeader) (pixels : List UInt8) (position i : Nat) : Nat → List UInt8
  | 0 => pixels
  | steps + 1 =>
      let row := (file.drop position).take header.rowBytes
      let pixels := splice pixels (i * header.rowBytes) row
      if row.length < header.rowBytes then pixels
      else readRows file header pixels (position + row.length + header.getPadding) (i + 1) steps

namespace BMPImage

/-- `pixels.resize` -/
def resize (pixels : List UInt8) (size : Nat) : List UInt8 :=
  pixels.take size ++ List.replicate (size - pixels.length) 0

/-- After a header that is cut short, the stream reads no row. -/
def «open» (image : BMPImage) (file : List UInt8) : Option (Bool × BMPImage) :=
  let header := image.header.read file
  if header.isValid then
    if header.Representable then
      let pixels := resize image.pixels header.totalPixelsBytes
      let steps := if file.length < headerSize then 0 else header.rows
      some (true, { header, pixels := readRows file header pixels header.bfOffbits.toNat 0 steps })
    else none
  else some (false, { image with header })

def save (image : BMPImage) : Option (List UInt8) := do
  let rows ← writeRows image.header image.pixels 0 image.header.rows
  return image.header.bytes ++ rows

def invertColors (image : BMPImage) : BMPImage := { image with pixels := image.pixels.map (255 - ·) }

end BMPImage

end HundredDays.Bmp
