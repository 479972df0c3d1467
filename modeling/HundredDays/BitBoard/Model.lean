import Mathlib.Algebra.Ring.Nat
import Mathlib.Logic.Function.Basic

namespace HundredDays.BitBoard

/-! Bitboards: a square of the board is a bit of a 64-bit word, `a1` the lowest.

The C functions get the array of the twelve piece sets; the members of the C++ class
have it as `pieces`.
-/

abbrev Bitboard := BitVec 64

inductive Piece where
  | P | N | B | R | Q | K
  | p | n | b | r | q | k
deriving DecidableEq

/-- The pieces in the order of their numbers. -/
def Piece.all : List Piece := [.P, .N, .B, .R, .Q, .K, .p, .n, .b, .r, .q, .k]

abbrev Boards := Piece → Bitboard

def fileA : Bitboard := 0x0101010101010101

def fileB : Bitboard := 0x0202020202020202

def fileG : Bitboard := 0x4040404040404040

def fileH : Bitboard := 0x8080808080808080

def setBit (board : Bitboard) (square : Nat) : Bitboard := board ||| (1 <<< square)

def initBoard : Boards
  | .P => 0x000000000000FF00
  | .p => 0x00FF000000000000
  | .R => setBit (setBit 0 0) 7
  | .N => setBit (setBit 0 1) 6
  | .B => setBit (setBit 0 2) 5
  | .Q => setBit 0 3
  | .K => setBit 0 4
  | .r => setBit (setBit 0 56) 63
  | .n => setBit (setBit 0 57) 62
  | .b => setBit (setBit 0 58) 61
  | .q => setBit 0 59
  | .k => setBit 0 60

def getOccupied (boards : Boards) : Bitboard := Piece.all.foldl (fun occ piece => occ ||| boards piece) 0

def knightAttacks (knights : Bitboard) : Bitboard :=
  let l1 := (knights >>> 1) &&& ~~~fileH
  let l2 := (knights >>> 2) &&& ~~~(fileH ||| fileG)
  let r1 := (knights <<< 1) &&& ~~~fileA
  let r2 := (knights <<< 2) &&& ~~~(fileA ||| fileB)
  (l1 <<< 16) ||| (l1 >>> 16) |||
    (l2 <<< 8) ||| (l2 >>> 8) |||
    (r1 <<< 16) ||| (r1 >>> 16) |||
    (r2 <<< 8) ||| (r2 >>> 8)

def pushWhitePawns (boards : Boards) : Boards :=
  let empty := ~~~getOccupied boards
  let pushed := (boards .P <<< 8) &&& empty
  let movers := pushed >>> 8
  let boards := Function.update boards .P (boards .P &&& ~~~movers)
  Function.update boards .P (boards .P ||| pushed)

def pushBlackPawns (boards : Boards) : Boards :=
  let empty := ~~~getOccupied boards
  let pushed := (boards .p >>> 8) &&& empty
  let movers := pushed <<< 8
  let boards := Function.update boards .p (boards .p &&& ~~~movers)
  Function.update boards .p (boards .p ||| pushed)

/-- The C++ class. -/
structure Board where
  pieces : Piece → Bitboard

namespace Board

def occupied (board : Board) : Bitboard := Piece.all.foldl (fun occ piece => occ ||| board.pieces piece) 0

def empty (board : Board) : Bitboard := ~~~board.occupied

def pushWhitePawns (board : Board) : Board :=
  let pushed := (board.pieces .P <<< 8) &&& board.empty
  let movers := pushed >>> 8
  let pieces := Function.update board.pieces .P (board.pieces .P &&& ~~~movers)
  { pieces := Function.update pieces .P (pieces .P ||| pushed) }

def pushBlackPawns (board : Board) : Board :=
  let pushed := (board.pieces .p >>> 8) &&& board.empty
  let movers := pushed <<< 8
  let pieces := Function.update board.pieces .p (board.pieces .p &&& ~~~movers)
  { pieces := Function.update pieces .p (pieces .p ||| pushed) }

def knightAttacks (knights : Bitboard) : Bitboard :=
  let l1 := (knights >>> 1) &&& ~~~fileH
  let l2 := (knights >>> 2) &&& ~~~(fileH ||| fileG)
  let r1 := (knights <<< 1) &&& ~~~fileA
  let r2 := (knights <<< 2) &&& ~~~(fileA ||| fileB)
  (l1 <<< 16) ||| (l1 >>> 16) |||
    (l2 <<< 8) ||| (l2 >>> 8) |||
    (r1 <<< 16) ||| (r1 >>> 16) |||
    (r2 <<< 8) ||| (r2 >>> 8)

end Board

/-- The square is in the set. -/
def Holds (board : Bitboard) (square : Nat) : Prop := board.getLsbD square = true

instance (board : Bitboard) (square : Nat) : Decidable (Holds board square) :=
  inferInstanceAs (Decidable (board.getLsbD square = true))

variable {board other : Bitboard} {square count : Nat}

theorem Holds.lt (holds : Holds board square) : square < 64 := BitVec.lt_of_getLsbD holds

theorem holds_or : Holds (board ||| other) square ↔ Holds board square ∨ Holds other square := by
  simp [Holds]

theorem holds_and : Holds (board &&& other) square ↔ Holds board square ∧ Holds other square := by
  simp [Holds]

theorem holds_not : Holds (~~~board) square ↔ square < 64 ∧ ¬ Holds board square := by
  simp [Holds]

theorem holds_shiftLeft : Holds (board <<< count) square ↔
    square < 64 ∧ count ≤ square ∧ Holds board (square - count) := by
  simp [Holds, and_assoc]

theorem holds_shiftRight : Holds (board >>> count) square ↔ Holds board (square + count) := by
  simp [Holds, Nat.add_comm]

theorem holds_zero : ¬ Holds 0 square := by
  simp [Holds]

theorem ext_of_holds (same : ∀ square, Holds board square ↔ Holds other square) : board = other := by
  apply BitVec.eq_of_getLsbD_eq
  intro square _
  exact Bool.eq_iff_iff.mpr (same square)

end HundredDays.BitBoard
