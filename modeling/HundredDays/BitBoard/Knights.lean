import HundredDays.BitBoard.Model

namespace HundredDays.BitBoard

/-! The squares that knights attack. -/

variable {knights : Bitboard} {origin square : Nat}

def apart (first second : Nat) : Nat := first - second + (second - first)

/-- The files and the ranks of the squares differ by 1 and 2 in some order. -/
def KnightMove (origin square : Nat) : Prop :=
  (apart (origin % 8) (square % 8) = 1 ∧ apart (origin / 8) (square / 8) = 2) ∨
    (apart (origin % 8) (square % 8) = 2 ∧ apart (origin / 8) (square / 8) = 1)

instance (origin square : Nat) : Decidable (KnightMove origin square) := inferInstanceAs (Decidable (_ ∨ _))

theorem apart_eq {first second distance : Nat} (far : apart first second = distance) :
    first = second + distance ∨ first + distance = second := by
  rw [apart] at far
  omega

theorem holds_fileA (inside : square < 64) : Holds fileA square ↔ square % 8 = 0 := by
  revert square
  decide

theorem holds_fileB (inside : square < 64) : Holds fileB square ↔ square % 8 = 1 := by
  revert square
  decide

theorem holds_fileG (inside : square < 64) : Holds fileG square ↔ square % 8 = 6 := by
  revert square
  decide

theorem holds_fileH (inside : square < 64) : Holds fileH square ↔ square % 8 = 7 := by
  revert square
  decide

/-! A knight goes one or two files to the side, where the mask keeps it on its rank, and then one or two ranks. -/

theorem holds_l1 : Holds ((knights >>> 1) &&& ~~~fileH) square ↔
    ∃ origin, Holds knights origin ∧ origin % 8 = square % 8 + 1 ∧ origin / 8 = square / 8 := by
  rw [holds_and, holds_shiftRight, holds_not]
  constructor
  · intro moved
    obtain ⟨knight, inside, masked⟩ := moved
    rw [holds_fileH inside] at masked
    exact ⟨square + 1, knight, by omega, by omega⟩
  · intro moved
    obtain ⟨origin, knight, file, rank⟩ := moved
    have bound := knight.lt
    have here : origin = square + 1 := by omega
    have inside : square < 64 := by omega
    rw [holds_fileH inside]
    exact ⟨here ▸ knight, inside, by omega⟩

theorem holds_l2 : Holds ((knights >>> 2) &&& ~~~(fileH ||| fileG)) square ↔
    ∃ origin, Holds knights origin ∧ origin % 8 = square % 8 + 2 ∧ origin / 8 = square / 8 := by
  rw [holds_and, holds_shiftRight, holds_not, holds_or]
  constructor
  · intro moved
    obtain ⟨knight, inside, masked⟩ := moved
    rw [holds_fileH inside, holds_fileG inside] at masked
    exact ⟨square + 2, knight, by omega, by omega⟩
  · intro moved
    obtain ⟨origin, knight, file, rank⟩ := moved
    have bound := knight.lt
    have here : origin = square + 2 := by omega
    have inside : square < 64 := by omega
    rw [holds_fileH inside, holds_fileG inside]
    exact ⟨here ▸ knight, inside, by omega⟩

theorem holds_r1 : Holds ((knights <<< 1) &&& ~~~fileA) square ↔
    ∃ origin, Holds knights origin ∧ origin % 8 + 1 = square % 8 ∧ origin / 8 = square / 8 := by
  rw [holds_and, holds_shiftLeft, holds_not]
  constructor
  · intro moved
    obtain ⟨⟨inside, after, knight⟩, _, masked⟩ := moved
    rw [holds_fileA inside] at masked
    exact ⟨square - 1, knight, by omega, by omega⟩
  · intro moved
    obtain ⟨origin, knight, file, rank⟩ := moved
    have bound := knight.lt
    have here : origin = square - 1 := by omega
    have inside : square < 64 := by omega
    rw [holds_fileA inside]
    exact ⟨⟨inside, by omega, here ▸ knight⟩, inside, by omega⟩

theorem holds_r2 : Holds ((knights <<< 2) &&& ~~~(fileA ||| fileB)) square ↔
    ∃ origin, Holds knights origin ∧ origin % 8 + 2 = square % 8 ∧ origin / 8 = square / 8 := by
  rw [holds_and, holds_shiftLeft, holds_not, holds_or]
  constructor
  · intro moved
    obtain ⟨⟨inside, after, knight⟩, _, masked⟩ := moved
    rw [holds_fileA inside, holds_fileB inside] at masked
    exact ⟨square - 2, knight, by omega, by omega⟩
  · intro moved
    obtain ⟨origin, knight, file, rank⟩ := moved
    have bound := knight.lt
    have here : origin = square - 2 := by omega
    have inside : square < 64 := by omega
    rw [holds_fileA inside, holds_fileB inside]
    exact ⟨⟨inside, by omega, here ▸ knight⟩, inside, by omega⟩

theorem holds_ranks_up {board : Bitboard} (n : Nat) : Holds (board <<< (8 * n)) square ↔
    square < 64 ∧ ∃ origin, Holds board origin ∧ origin % 8 = square % 8 ∧ origin / 8 + n = square / 8 := by
  rw [holds_shiftLeft]
  refine and_congr_right fun inside => ?_
  constructor
  · intro moved
    exact ⟨square - 8 * n, moved.2, by omega, by omega⟩
  · intro moved
    obtain ⟨origin, piece, file, rank⟩ := moved
    have here : origin = square - 8 * n := by omega
    exact ⟨by omega, here ▸ piece⟩

theorem holds_ranks_down {board : Bitboard} (n : Nat) : Holds (board >>> (8 * n)) square ↔
    square < 64 ∧ ∃ origin, Holds board origin ∧ origin % 8 = square % 8 ∧ origin / 8 = square / 8 + n := by
  rw [holds_shiftRight]
  constructor
  · intro piece
    have bound := piece.lt
    exact ⟨by omega, square + 8 * n, piece, by omega, by omega⟩
  · intro moved
    obtain ⟨_, origin, piece, file, rank⟩ := moved
    have here : origin = square + 8 * n := by omega
    exact here ▸ piece

/-- One step to the side and one up or down leads from a knight to the square. -/
theorem holds_knightAttacks : Holds (knightAttacks knights) square ↔ square < 64 ∧ ∃ origin, Holds knights origin ∧
    KnightMove origin square := by
  have up2 {board : Bitboard} := @holds_ranks_up square board 2
  have up1 {board : Bitboard} := @holds_ranks_up square board 1
  have down2 {board : Bitboard} := @holds_ranks_down square board 2
  have down1 {board : Bitboard} := @holds_ranks_down square board 1
  simp only [Nat.reduceMul] at up2 up1 down2 down1
  simp only [knightAttacks, holds_or, up2, up1, down2, down1, holds_l1, holds_l2, holds_r1, holds_r2]
  constructor
  · intro attacked
    rcases attacked with ((((((attacked | attacked) | attacked) | attacked) | attacked) | attacked) | attacked) | attacked
    all_goals
      obtain ⟨inside, middle, ⟨origin, knight, file, rank⟩, _, _⟩ := attacked
      refine ⟨inside, origin, knight, ?_⟩
      simp only [KnightMove, apart]
      omega
  · intro attacked
    obtain ⟨inside, origin, knight, move⟩ := attacked
    -- The knight goes to the side first, as far as the file of the square.
    obtain ⟨middle, file, rank⟩ : ∃ middle, middle % 8 = square % 8 ∧ middle / 8 = origin / 8 :=
      ⟨8 * (origin / 8) + square % 8, by omega, by omega⟩
    simp only [inside, true_and]
    rcases move with ⟨files, ranks⟩ | ⟨files, ranks⟩
    all_goals
      rcases apart_eq files with left | right
      all_goals rcases apart_eq ranks with down | up
    · exact .inl (.inl (.inl (.inl (.inl (.inl (.inr ⟨middle, ⟨origin, knight, by omega, by omega⟩, file, by omega⟩))))))
    · exact .inl (.inl (.inl (.inl (.inl (.inl (.inl ⟨middle, ⟨origin, knight, by omega, by omega⟩, file, by omega⟩))))))
    · exact .inl (.inl (.inr ⟨middle, ⟨origin, knight, by omega, by omega⟩, file, by omega⟩))
    · exact .inl (.inl (.inl (.inr ⟨middle, ⟨origin, knight, by omega, by omega⟩, file, by omega⟩)))
    · exact .inl (.inl (.inl (.inl (.inr ⟨middle, ⟨origin, knight, by omega, by omega⟩, file, by omega⟩))))
    · exact .inl (.inl (.inl (.inl (.inl (.inr ⟨middle, ⟨origin, knight, by omega, by omega⟩, file, by omega⟩)))))
    · exact .inr ⟨middle, ⟨origin, knight, by omega, by omega⟩, file, by omega⟩
    · exact .inl (.inr ⟨middle, ⟨origin, knight, by omega, by omega⟩, file, by omega⟩)

/-- A square is attacked exactly when a knight is a knight's move away from it. -/
theorem knight_attacks_exact (knights : Bitboard) (square : Fin 64) :
    (Holds (knightAttacks knights) square ↔ ∃ origin, Holds knights origin ∧ KnightMove origin square) ∧
      (Holds (Board.knightAttacks knights) square ↔ ∃ origin, Holds knights origin ∧ KnightMove origin square) := by
  have attacked := @holds_knightAttacks knights square
  rw [and_iff_right square.isLt] at attacked
  exact ⟨attacked, attacked⟩

end HundredDays.BitBoard
