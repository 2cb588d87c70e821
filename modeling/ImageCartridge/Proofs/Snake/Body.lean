import ImageCartridge.Snake.Game
import Mathlib.Data.List.Chain
import Mathlib.Data.List.Nodup
import Mathlib.Data.List.Perm.Subperm

/-! The cells of a snake: on the board, pairwise distinct, each beside the next.
Such a snake has at most as many cells as the board, and a snake of that many
cells covers the board. -/
namespace ImageCartridge.Snake

def Cell.Adjacent (a b : Cell) : Prop :=
  (a.x = b.x ∧ (a.y + 1 = b.y ∨ b.y + 1 = a.y)) ∨
    (a.y = b.y ∧ (a.x + 1 = b.x ∨ b.x + 1 = a.x))

instance (a b : Cell) : Decidable (Cell.Adjacent a b) :=
  inferInstanceAs (Decidable (_ ∨ _))

def boardSize : Nat := boardColumns * boardRows

example : boardSize = 480 := rfl

theorem Cell.onBoard_iff (c : Cell) : c.onBoard = true ↔ c.x < boardColumns ∧ c.y < boardRows := by
  simp [onBoard]

/-- The cell one step away, whether on the board or not. -/
def Cell.IsBeside (c : Cell) : Direction → Cell → Prop
  | .up, next => next.x = c.x ∧ next.y + 1 = c.y
  | .down, next => next.x = c.x ∧ next.y = c.y + 1
  | .left, next => next.x + 1 = c.x ∧ next.y = c.y
  | .right, next => next.x = c.x + 1 ∧ next.y = c.y

theorem Cell.guard_eq_some_iff {c next : Cell} :
    neighbour?.guard c = some next ↔ next.onBoard = true ∧ next = c := by
  unfold neighbour?.guard
  constructor
  · intro h
    split at h
    · next hBoard =>
        cases h
        exact ⟨hBoard, rfl⟩
    · cases h
  · rintro ⟨hBoard, rfl⟩
    rw [if_pos hBoard]

/-- A step is possible if it ends on the board. This is where the checks at the four edges are
spelled out. -/
theorem Cell.neighbour?_eq_some_iff {c next : Cell} {d : Direction} :
    c.neighbour? d = some next ↔ next.onBoard = true ∧ c.IsBeside d next := by
  obtain ⟨x, y⟩ := c
  obtain ⟨x', y'⟩ := next
  cases d with
  | up =>
      simp only [neighbour?, IsBeside]
      split
      · rw [guard_eq_some_iff, Cell.mk.injEq]
        refine and_congr_right fun _ => ?_
        omega
      · simp only [reduceCtorEq, false_iff, not_and]
        omega
  | down => simp only [neighbour?, IsBeside, guard_eq_some_iff, Cell.mk.injEq]
  | left =>
      simp only [neighbour?, IsBeside]
      split
      · rw [guard_eq_some_iff, Cell.mk.injEq]
        refine and_congr_right fun _ => ?_
        omega
      · simp only [reduceCtorEq, false_iff, not_and]
        omega
  | right => simp only [neighbour?, IsBeside, guard_eq_some_iff, Cell.mk.injEq]

theorem Cell.IsBeside.adjacent {c next : Cell} {d : Direction} (h : c.IsBeside d next) :
    next.Adjacent c := by
  unfold Adjacent
  cases d <;> simp only [IsBeside] at h <;> omega

theorem Cell.IsBeside.reverse {c next : Cell} {d : Direction} (h : c.IsBeside d next) :
    next.IsBeside d.reverse c := by
  cases d <;> simp only [IsBeside, Direction.reverse] at h ⊢ <;> omega

/-- A step can be taken back, provided that it began on the board. -/
theorem Cell.neighbour?_reverse {c next : Cell} {d : Direction} (hBoard : c.onBoard = true)
    (h : c.neighbour? d = some next) : next.neighbour? d.reverse = some c :=
  neighbour?_eq_some_iff.mpr ⟨hBoard, (neighbour?_eq_some_iff.mp h).2.reverse⟩

theorem mem_boardCells (c : Cell) : c ∈ boardCells ↔ c.onBoard = true := by
  simp only [boardCells, List.mem_flatMap, List.mem_map, List.mem_range, Cell.onBoard_iff]
  constructor
  · rintro ⟨y, hy, x, hx, rfl⟩
    exact ⟨hx, hy⟩
  · rintro ⟨hx, hy⟩
    exact ⟨c.y, hy, c.x, hx, rfl⟩

theorem length_boardCells : boardCells.length = boardSize := by
  simp [boardCells, List.length_flatMap, boardSize, boardColumns, boardRows]

/-- Row by row from the upper left corner, one cell comes before the other. -/
def Cell.Before (a b : Cell) : Prop :=
  a.y < b.y ∨ (a.y = b.y ∧ a.x < b.x)

theorem Cell.Before.asymm {a b : Cell} (h : a.Before b) : ¬ b.Before a := by
  unfold Before at h ⊢
  omega

/-- The cells of the board are listed in the order in which they are searched. -/
theorem pairwise_before_boardCells : boardCells.Pairwise Cell.Before := by
  rw [boardCells, List.pairwise_flatMap]
  constructor
  · intro y _
    exact List.pairwise_map.mpr (List.pairwise_lt_range.imp fun hLeft => Or.inr ⟨rfl, hLeft⟩)
  · refine List.pairwise_lt_range.imp fun hAbove c hUpper d hLower => ?_
    obtain ⟨_, -, rfl⟩ := List.mem_map.mp hUpper
    obtain ⟨_, -, rfl⟩ := List.mem_map.mp hLower
    exact Or.inl hAbove

/-- Cells in search order are different cells. -/
theorem nodup_boardCells : boardCells.Nodup :=
  pairwise_before_boardCells.imp fun hBefore hEq => (hEq ▸ hBefore).asymm (hEq ▸ hBefore)

/-- The shape of a snake between two moves. -/
structure IsBody (snake : List Cell) : Prop where
  onBoard : ∀ c ∈ snake, c.onBoard = true
  nodup : snake.Nodup
  adjacent : snake.IsChain Cell.Adjacent

namespace IsBody

variable {snake : List Cell}

theorem subperm (h : IsBody snake) : snake.Subperm boardCells :=
  List.subperm_of_subset h.nodup fun c hMem => (mem_boardCells c).mpr (h.onBoard c hMem)

/-- A snake cannot be longer than the board has cells. -/
theorem length_le (h : IsBody snake) : snake.length ≤ boardSize := by
  rw [← length_boardCells]
  exact h.subperm.length_le

/-- A snake as long as the board is large leaves no cell free. -/
theorem mem_of_length_eq (h : IsBody snake) (hFull : snake.length = boardSize) {c : Cell}
    (hc : c.onBoard = true) : c ∈ snake := by
  have hPerm := h.subperm.perm_of_length_le (by rw [length_boardCells, hFull])
  exact hPerm.mem_iff.mpr ((mem_boardCells c).mpr hc)

/-- A snake that leaves no cell free is as long as the board is large. -/
theorem length_eq_of_forall_mem (h : IsBody snake) (hAll : ∀ c, c.onBoard = true → c ∈ snake) :
    snake.length = boardSize := by
  have hBack : boardCells.Subperm snake :=
    List.subperm_of_subset nodup_boardCells fun c hMem => hAll c ((mem_boardCells c).mp hMem)
  have hLess := hBack.length_le
  rw [length_boardCells] at hLess
  exact Nat.le_antisymm h.length_le hLess

/-- A free cell beside the head becomes the new head. -/
theorem cons {head next : Cell} {tail : List Cell} (h : IsBody (head :: tail))
    (hBoard : next.onBoard = true) (hAdjacent : next.Adjacent head)
    (hFree : next ∉ head :: tail) : IsBody (next :: head :: tail) where
  onBoard := List.forall_mem_cons.mpr ⟨hBoard, h.onBoard⟩
  nodup := List.nodup_cons.mpr ⟨hFree, h.nodup⟩
  adjacent := .cons_cons hAdjacent h.adjacent

theorem dropLast (h : IsBody snake) : IsBody snake.dropLast where
  onBoard := fun c hMem => h.onBoard c (snake.dropLast_subset hMem)
  nodup := h.nodup.sublist snake.dropLast_sublist
  adjacent := h.adjacent.dropLast

end IsBody

end ImageCartridge.Snake
