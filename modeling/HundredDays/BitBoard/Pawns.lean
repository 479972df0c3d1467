import HundredDays.BitBoard.Model
import Mathlib.Data.Finset.Card
import Mathlib.Data.Finset.Image

namespace HundredDays.BitBoard

/-! Pawns that are pushed, all of one colour at a time. -/

inductive Color where
  | white
  | black
deriving DecidableEq

def Color.pawn : Color → Piece
  | .white => .P
  | .black => .p

/-- The square in front of a pawn, when there is one. -/
def Color.ahead : Color → Nat → Option Nat
  | .white, square => if square + 8 < 64 then some (square + 8) else none
  | .black, square => if 8 ≤ square then some (square - 8) else none

def push : Color → Boards → Boards
  | .white => pushWhitePawns
  | .black => pushBlackPawns

def Board.push : Color → Board → Board
  | .white => Board.pushWhitePawns
  | .black => Board.pushBlackPawns

def squares (board : Bitboard) : Finset Nat := (Finset.range 64).filter fun square => Holds board square

/-- How many pieces are in the set. -/
def count (board : Bitboard) : Nat := (squares board).card

/-- No two pieces are on one square. -/
def Unstacked (boards : Boards) : Prop := ∀ piece other, piece ≠ other → boards piece &&& boards other = 0

/-- No piece is on the square. -/
def Vacant (boards : Boards) (square : Nat) : Prop := ∀ piece, ¬ Holds (boards piece) square

variable {boards after : Boards} {board : Bitboard} {square origin next : Nat} {piece : Piece} {color : Color}

theorem Piece.mem_all (piece : Piece) : piece ∈ Piece.all := by
  cases piece <;> decide

instance (boards : Boards) (square : Nat) : Decidable (Vacant boards square) :=
  decidable_of_iff (∀ piece ∈ Piece.all, ¬ Holds (boards piece) square)
    ⟨fun none piece => none piece piece.mem_all, fun none piece _ => none piece⟩

/-- Where the push leaves a pawn of the colour. -/
def destination (color : Color) (boards : Boards) (square : Nat) : Nat :=
  match color.ahead square with
  | some next => if Vacant boards next then next else square
  | none => square

/-- Each pawn goes to its destination, and nothing else changes. -/
structure Pushed (color : Color) (boards after : Boards) : Prop where
  pawns : ∀ square, Holds (after color.pawn) square ↔
    ∃ origin, Holds (boards color.pawn) origin ∧ destination color boards origin = square
  others : ∀ piece, piece ≠ color.pawn → after piece = boards piece

theorem mem_squares : square ∈ squares board ↔ Holds board square := by
  rw [squares, Finset.mem_filter, Finset.mem_range]
  exact and_iff_right_of_imp Holds.lt

theorem holds_foldl (boards : Boards) (pieces : List Piece) (occupied : Bitboard) :
    Holds (pieces.foldl (fun occ piece => occ ||| boards piece) occupied) square ↔
      Holds occupied square ∨ ∃ piece ∈ pieces, Holds (boards piece) square := by
  induction pieces generalizing occupied with
  | nil => simp
  | cons piece rest ih =>
      rw [List.foldl_cons, ih, holds_or]
      simp [or_assoc]

theorem holds_empty : Holds (~~~getOccupied boards) square ↔ square < 64 ∧ Vacant boards square := by
  rw [holds_not, getOccupied, holds_foldl, or_iff_right holds_zero]
  simp [Piece.mem_all, Vacant]

theorem Unstacked.same {other : Piece} (unstacked : Unstacked boards) (here : Holds (boards piece) square)
    (there : Holds (boards other) square) : piece = other := by
  by_contra differs
  have both : Holds (boards piece &&& boards other) square := holds_and.mpr ⟨here, there⟩
  rw [unstacked piece other differs] at both
  exact holds_zero both

theorem unstacked_of_same (same : ∀ square piece other, Holds (boards piece) square → Holds (boards other) square →
    piece = other) : Unstacked boards := by
  intro piece other differs
  apply ext_of_holds
  intro square
  rw [holds_and]
  exact iff_of_false (fun both => differs (same square piece other both.1 both.2)) holds_zero

theorem destination_eq (color : Color) (boards : Boards) (square : Nat) :
    (∃ next, color.ahead square = some next ∧ Vacant boards next ∧ destination color boards square = next) ∨
      (∀ next, color.ahead square = some next → ¬ Vacant boards next) ∧ destination color boards square = square := by
  unfold destination
  cases ahead : color.ahead square with
  | none => exact .inr ⟨by simp, rfl⟩
  | some next =>
      by_cases vacant : Vacant boards next
      · exact .inl ⟨next, rfl, vacant, if_pos vacant⟩
      · refine .inr ⟨?_, if_neg vacant⟩
        intro other same
        cases same
        exact vacant

/-- The squares that pawns are moved to, and those of the pawns that stay. -/
theorem holds_moved {pawns pushed movers : Bitboard}
    (targets : ∀ square, Holds pushed square ↔
      ∃ origin, Holds pawns origin ∧ color.ahead origin = some square ∧ Vacant boards square)
    (sources : ∀ square < 64, Holds movers square ↔ ∃ next, Holds pushed next ∧ color.ahead square = some next)
    (square : Nat) : Holds ((pawns &&& ~~~movers) ||| pushed) square ↔
      ∃ origin, Holds pawns origin ∧ destination color boards origin = square := by
  rw [holds_or, holds_and, holds_not]
  constructor
  · intro moved
    obtain ⟨pawn, inside, stays⟩ | target := moved
    · refine ⟨square, pawn, ?_⟩
      obtain ⟨next, ahead, vacant, _⟩ | ⟨_, same⟩ := destination_eq color boards square
      · exact absurd ((sources square inside).mpr ⟨next, (targets next).mpr ⟨square, pawn, ahead, vacant⟩, ahead⟩) stays
      · exact same
    · obtain ⟨origin, pawn, ahead, vacant⟩ := (targets square).mp target
      obtain ⟨next, also, _, there⟩ | ⟨blocked, _⟩ := destination_eq color boards origin
      · cases ahead.symm.trans also
        exact ⟨origin, pawn, there⟩
      · exact absurd vacant (blocked square ahead)
  · intro moved
    obtain ⟨origin, pawn, there⟩ := moved
    obtain ⟨next, ahead, vacant, same⟩ | ⟨blocked, same⟩ := destination_eq color boards origin
    · cases same.symm.trans there
      exact .inr ((targets _).mpr ⟨origin, pawn, ahead, vacant⟩)
    · cases same.symm.trans there
      refine .inl ⟨pawn, pawn.lt, fun moves => ?_⟩
      obtain ⟨next, target, ahead⟩ := (sources _ pawn.lt).mp moves
      obtain ⟨_, _, _, vacant⟩ := (targets next).mp target
      exact blocked next ahead vacant

theorem pushWhitePawns_pushed (boards : Boards) : Pushed .white boards (pushWhitePawns boards) := by
  constructor
  · intro square
    simp only [pushWhitePawns, Color.pawn, Function.update_self]
    refine holds_moved (fun square => ?_) (fun square inside => ?_) square
    · rw [holds_and, holds_shiftLeft, holds_empty]
      constructor
      · intro moved
        obtain ⟨⟨_, after, pawn⟩, inside, vacant⟩ := moved
        refine ⟨square - 8, pawn, ?_, vacant⟩
        rw [Color.ahead, Nat.sub_add_cancel after, if_pos inside]
      · intro moved
        obtain ⟨origin, pawn, ahead, vacant⟩ := moved
        simp only [Color.ahead, Option.ite_none_right_eq_some, Option.some.injEq] at ahead
        obtain ⟨inside, rfl⟩ := ahead
        exact ⟨⟨inside, Nat.le_add_left .., by rwa [Nat.add_sub_cancel]⟩, inside, vacant⟩
    · rw [holds_shiftRight]
      constructor
      · intro pushed
        exact ⟨square + 8, pushed, if_pos pushed.lt⟩
      · intro moved
        obtain ⟨next, pushed, ahead⟩ := moved
        simp only [Color.ahead, Option.ite_none_right_eq_some, Option.some.injEq] at ahead
        exact ahead.2 ▸ pushed
  · intro piece differs
    exact (Function.update_of_ne differs _ _).trans (Function.update_of_ne differs _ _)

theorem pushBlackPawns_pushed (boards : Boards) : Pushed .black boards (pushBlackPawns boards) := by
  constructor
  · intro square
    simp only [pushBlackPawns, Color.pawn, Function.update_self]
    refine holds_moved (fun square => ?_) (fun square inside => ?_) square
    · rw [holds_and, holds_shiftRight, holds_empty]
      constructor
      · intro moved
        obtain ⟨pawn, _, vacant⟩ := moved
        refine ⟨square + 8, pawn, ?_, vacant⟩
        rw [Color.ahead, if_pos (Nat.le_add_left ..), Nat.add_sub_cancel]
      · intro moved
        obtain ⟨origin, pawn, ahead, vacant⟩ := moved
        simp only [Color.ahead, Option.ite_none_right_eq_some, Option.some.injEq] at ahead
        obtain ⟨after, rfl⟩ := ahead
        exact ⟨by rwa [Nat.sub_add_cancel after], Nat.lt_of_le_of_lt (Nat.sub_le ..) pawn.lt, vacant⟩
    · rw [holds_shiftLeft]
      constructor
      · intro moved
        obtain ⟨_, after, pushed⟩ := moved
        exact ⟨square - 8, pushed, if_pos after⟩
      · intro moved
        obtain ⟨next, pushed, ahead⟩ := moved
        simp only [Color.ahead, Option.ite_none_right_eq_some, Option.some.injEq] at ahead
        exact ⟨inside, ahead.1, ahead.2 ▸ pushed⟩
  · intro piece differs
    exact (Function.update_of_ne differs _ _).trans (Function.update_of_ne differs _ _)

theorem push_pushed (color : Color) (boards : Boards) : Pushed color boards (push color boards) := by
  cases color with
  | white => exact pushWhitePawns_pushed boards
  | black => exact pushBlackPawns_pushed boards

theorem Color.ahead_injective {other : Nat} (ahead : color.ahead square = some next)
    (also : color.ahead other = some next) : square = other := by
  cases color <;> simp only [Color.ahead, Option.ite_none_right_eq_some, Option.some.injEq] at ahead also <;> omega

/-- No two pawns have the same destination. -/
theorem destination_injOn (color : Color) (boards : Boards) :
    Set.InjOn (destination color boards) {square | Holds (boards color.pawn) square} := by
  intro square pawn other also same
  obtain ⟨next, ahead, vacant, there⟩ | ⟨_, here⟩ := destination_eq color boards square
  · obtain ⟨later, aheadOther, _, thereOther⟩ | ⟨_, hereOther⟩ := destination_eq color boards other
    · rw [there, thereOther] at same
      exact Color.ahead_injective (same ▸ ahead) aheadOther
    · rw [there, hereOther] at same
      exact absurd also (same ▸ vacant color.pawn)
  · obtain ⟨later, _, vacantOther, thereOther⟩ | ⟨_, hereOther⟩ := destination_eq color boards other
    · rw [here, thereOther] at same
      exact absurd pawn (same ▸ vacantOther color.pawn)
    · rw [here, hereOther] at same
      exact same

namespace Pushed

theorem unmoved (pushed : Pushed color boards after) (unstacked : Unstacked boards)
    (pawn : Holds (after color.pawn) square) (differs : piece ≠ color.pawn) : ¬ Holds (boards piece) square := by
  obtain ⟨origin, before, there⟩ := (pushed.pawns square).mp pawn
  intro here
  obtain ⟨next, _, vacant, same⟩ | ⟨_, same⟩ := destination_eq color boards origin
  · rw [← there, same] at here
    exact vacant piece here
  · rw [← there, same] at here
    exact differs (unstacked.same here before)

theorem unstacked (pushed : Pushed color boards after) (unstacked : Unstacked boards) : Unstacked after := by
  apply unstacked_of_same
  intro square piece other here there
  by_cases first : piece = color.pawn
  · by_cases second : other = color.pawn
    · rw [first, second]
    · rw [pushed.others other second] at there
      exact absurd there (pushed.unmoved unstacked (first ▸ here) second)
  · rw [pushed.others piece first] at here
    by_cases second : other = color.pawn
    · exact absurd here (pushed.unmoved unstacked (second ▸ there) first)
    · rw [pushed.others other second] at there
      exact unstacked.same here there

theorem count_eq (pushed : Pushed color boards after) (piece : Piece) : count (after piece) = count (boards piece) := by
  by_cases pawn : piece = color.pawn
  · subst pawn
    have moved : squares (after color.pawn) = (squares (boards color.pawn)).image (destination color boards) := by
      ext square
      rw [Finset.mem_image, mem_squares, pushed.pawns]
      simp only [mem_squares]
    have injective : Set.InjOn (destination color boards) (squares (boards color.pawn)) := by
      refine (destination_injOn color boards).mono fun square listed => ?_
      exact mem_squares.mp listed
    rw [count, moved, Finset.card_image_of_injOn injective, count]
  · rw [pushed.others piece pawn]

end Pushed

theorem board_push (color : Color) (boards : Boards) : Board.push color ⟨boards⟩ = ⟨push color boards⟩ := by
  cases color <;> rfl

/-- After any pushes the pieces are as many as before and on squares of their own, the next push moves exactly the
pawns that are not blocked, and the C++ class has the same board. -/
theorem pawn_pushes_exact (boards : Boards) (unstacked : Unstacked boards) (colors : List Color) :
    Unstacked (colors.foldl (fun boards color => push color boards) boards) ∧
      (∀ piece, count (colors.foldl (fun boards color => push color boards) boards piece) = count (boards piece)) ∧
      (∀ color, Pushed color (colors.foldl (fun boards color => push color boards) boards)
        (push color (colors.foldl (fun boards color => push color boards) boards))) ∧
      colors.foldl (fun board color => Board.push color board) ⟨boards⟩ =
        ⟨colors.foldl (fun boards color => push color boards) boards⟩ := by
  induction colors generalizing boards with
  | nil => exact ⟨unstacked, fun _ => rfl, fun color => push_pushed color boards, rfl⟩
  | cons color rest ih =>
      have pushed := push_pushed color boards
      obtain ⟨apart, counts, exactly, same⟩ := ih (push color boards) (pushed.unstacked unstacked)
      simp only [List.foldl_cons, board_push]
      exact ⟨apart, fun piece => (counts piece).trans (pushed.count_eq piece), exactly, same⟩

theorem initBoard_unstacked : Unstacked initBoard := by
  intro piece other distinct
  cases piece <;> cases other <;> first | exact absurd rfl distinct | decide

theorem pawn_pushes_exact_initBoard : Unstacked initBoard ∧
    Unstacked ([Color.white, .black].foldl (fun boards color => push color boards) initBoard) :=
  ⟨initBoard_unstacked, (pawn_pushes_exact initBoard initBoard_unstacked [.white, .black]).1⟩

end HundredDays.BitBoard
