import Mathlib.Algebra.Ring.Int.Defs
import Mathlib.Algebra.Ring.Nat
import Mathlib.Data.List.Basic

namespace HundredDays.GrepBuffer

/-! `grep_buffer`, on the bytes of the buffer that it is given.

A pointer into the buffer is its index.  Reading a byte behind the buffer is undefined
and has no result.
-/

def newline : UInt8 := 10

/-- The bytes up to the terminator. -/
def cString (memory : List UInt8) : List UInt8 := memory.takeWhile (· ≠ 0)

/-- What is printed: a line that matches, with its number, and the count at the end. -/
inductive Output where
  | line (lineNo : Nat) (text : List UInt8)
  | found (target : List UInt8) (matched : Nat)
deriving DecidableEq

/-- The conversion from `ptrdiff_t` to `int`. -/
def int (value : Nat) : Int :=
  let low : Nat := value % 2 ^ 32
  if low < 2 ^ 31 then low else (low : Int) - 2 ^ 32

/-- What `%.*s` prints: the bytes up to a terminator, and no more of them than the precision unless that is negative.
-/
def boundedString (bytes : List UInt8) (precision : Int) : Option (List UInt8) :=
  if precision < 0 then if 0 ∈ bytes then some (cString bytes) else none
  else if precision.toNat ≤ bytes.length ∨ 0 ∈ bytes then some (cString (bytes.take precision.toNat))
  else none

/-- `memcmp` finds no difference. -/
def matchesAt (buf target : List UInt8) (ptr : Nat) : Option Bool :=
  if ptr + target.length ≤ buf.length then some (decide ((buf.drop ptr).take target.length = target)) else none

/-- The line end that `memchr` finds, or the end of the buffer. -/
def findLineEnd (buf : List UInt8) (lineStart : Nat) : Nat :=
  match (buf.drop lineStart).findIdx? (· = newline) with
  | some distance => lineStart + distance
  | none => buf.length

/-- The variables of the loop, and what was printed. -/
structure Scan where
  ptr : Nat
  lineStart : Nat
  lineNo : Nat
  matched : Nat
  printed : List Output

/-- The bookkeeping at a newline. -/
def Scan.advanceLine (scan : Scan) (byte : UInt8) : Scan :=
  if byte = newline then { scan with lineNo := scan.lineNo + 1, lineStart := scan.ptr + 1 } else scan

/-- One match: the line is printed, and the search goes on behind the match. -/
def Scan.report (scan : Scan) (buf : List UInt8) (targetLen : Nat) : Option Scan :=
  (boundedString (buf.drop scan.lineStart) (int (findLineEnd buf scan.lineStart - scan.lineStart))).map fun text =>
    { scan with
      matched := scan.matched + 1
      printed := scan.printed ++ [.line scan.lineNo text]
      ptr := scan.ptr + targetLen }

/-- The loop, with more rounds than there are bytes. -/
def scanFrom (buf target : List UInt8) : Nat → Scan → Option Scan
  | 0, _ => none
  | rounds + 1, scan =>
      if scan.ptr ≤ buf.length - target.length then
        buf[scan.ptr]?.bind fun byte =>
          let scan := scan.advanceLine byte
          (matchesAt buf target scan.ptr).bind fun equal =>
            if equal then (scan.report buf target.length).bind fun scan => scanFrom buf target rounds scan
            else scanFrom buf target rounds { scan with ptr := scan.ptr + 1 }
      else some scan

def grep (buf target : List UInt8) : Option (List Output) :=
  if target.length = 0 ∨ buf.length < target.length then some []
  else
    (scanFrom buf target (buf.length + 1) { ptr := 0, lineStart := 0, lineNo := 1, matched := 0, printed := [] }).map
      fun scan => scan.printed ++ [.found (cString target) scan.matched]

/-- `shared_memory.c`, where the target is a string in memory. -/
def SharedMemory.grepBuffer (buf memory : List UInt8) : Option (List Output) := grep buf (cString memory)

/-- `not_shared.c` -/
def NotShared.grepBuffer (buf memory : List UInt8) : Option (List Output) := grep buf (cString memory)

/-- `shared_memory.cpp`, where the target is a `std::string`. -/
def Cpp.grepBuffer (buf target : List UInt8) : Option (List Output) := grep buf target

end HundredDays.GrepBuffer
