import ImageCartridge.Proofs.Snake.Body
import ImageCartridge.Proofs.XorShift

/-! Where a new apple comes. Places are drawn from the generator until one is free, and when
too many were taken the board is searched instead. What the draws cost is part of the law: a
replay goes on with the words behind them. -/
namespace ImageCartridge.Snake

namespace Game

/-- The place that is drawn after so many others. Each takes two words, one for its column and
the next for its row. -/
def drawnPlace (rng : XorShift) (earlier : Nat) : Cell :=
  ⟨(rng.skip (2 * earlier)).advance.1.toNat % boardColumns,
    (rng.skip (2 * earlier + 1)).advance.1.toNat % boardRows⟩

/-- Words are cut to the columns and the rows, so no draw is wasted on a place off the board. -/
theorem drawnPlace_onBoard (rng : XorShift) (earlier : Nat) :
    (drawnPlace rng earlier).onBoard = true :=
  (Cell.onBoard_iff _).mpr ⟨Nat.mod_lt _ (by decide), Nat.mod_lt _ (by decide)⟩

/-- Where an apple comes that is placed off the snake, and how far the generator has moved on.
It is the first of 64 drawn places that is free, else the first free cell of the board. Only
on a full board it stays. -/
inductive Respawns (snake : List Cell) (apple : Cell) (rng : XorShift) : Cell → XorShift → Prop
    where
  | drawn {tries : Nat} (hTries : tries < 64)
      (hTaken : ∀ earlier < tries, drawnPlace rng earlier ∈ snake)
      (hFree : drawnPlace rng tries ∉ snake) :
      Respawns snake apple rng (drawnPlace rng tries) (rng.skip (2 * (tries + 1)))
  | found {place : Cell} (hTaken : ∀ tries < 64, drawnPlace rng tries ∈ snake)
      (hBoard : place.onBoard = true) (hFree : place ∉ snake)
      (hFirst : ∀ c : Cell, c.onBoard = true → c.Before place → c ∈ snake) :
      Respawns snake apple rng place (rng.skip 128)
  | stays (hFull : ∀ c : Cell, c.onBoard = true → c ∈ snake) :
      Respawns snake apple rng apple (rng.skip 128)

section Respawns

variable {snake : List Cell} {apple place : Cell} {rng last : XorShift}

/-- The new place is free, unless no cell is. -/
theorem Respawns.free_or_full (h : Respawns snake apple rng place last) :
    (place.onBoard = true ∧ place ∉ snake) ∨
      (place = apple ∧ ∀ c : Cell, c.onBoard = true → c ∈ snake) := by
  cases h with
  | drawn _ _ hFree => exact Or.inl ⟨drawnPlace_onBoard _ _, hFree⟩
  | found _ hBoard hFree _ => exact Or.inl ⟨hBoard, hFree⟩
  | stays hFull => exact Or.inr ⟨rfl, hFull⟩

/-- The generator does not die of placing an apple. -/
theorem Respawns.state_ne_zero (h : Respawns snake apple rng place last) (hRng : rng.state ≠ 0) :
    last.state ≠ 0 := by
  cases h <;> exact XorShift.state_skip_ne_zero hRng _

end Respawns

/-- One draw takes two words, and the draws behind it go on from there. -/
theorem drawApple_succ (snake : List Cell) (attempts : Nat) (rng : XorShift) :
    drawApple snake (attempts + 1) rng =
      if drawnPlace rng 0 ∈ snake then drawApple snake attempts (rng.skip 2)
      else (some (drawnPlace rng 0), rng.skip 2) := rfl

/-- Behind the first draw the same places come, counted from there. -/
theorem drawnPlace_succ (rng : XorShift) (earlier : Nat) :
    drawnPlace rng (earlier + 1) = drawnPlace (rng.skip 2) earlier := by
  have hColumn : 2 * (earlier + 1) = 2 + 2 * earlier := by omega
  have hRow : 2 + 2 * earlier + 1 = 2 + (2 * earlier + 1) := by omega
  rw [drawnPlace, hColumn, hRow, XorShift.skip_add, XorShift.skip_add]
  rfl

/-- So many draws behind one draw are one more. -/
theorem skip_two_skip (rng : XorShift) (draws : Nat) :
    (rng.skip 2).skip (2 * draws) = rng.skip (2 * (draws + 1)) := by
  rw [← XorShift.skip_add, Nat.mul_succ, Nat.add_comm]

/-- A taken first place and taken places behind it, counted from the words it leaves, are taken
places counted from the start. -/
theorem forall_drawnPlace_mem_succ {snake : List Cell} {rng : XorShift} {draws : Nat}
    (hFirst : drawnPlace rng 0 ∈ snake)
    (hLater : ∀ earlier < draws, drawnPlace (rng.skip 2) earlier ∈ snake) :
    ∀ earlier < draws + 1, drawnPlace rng earlier ∈ snake := by
  refine Nat.forall_lt_succ_left.mpr ⟨hFirst, fun earlier hEarlier => ?_⟩
  rw [drawnPlace_succ]
  exact hLater earlier hEarlier

/-- The draws end at the first free place, or all of them were taken. -/
theorem drawApple_cases (snake : List Cell) (attempts : Nat) (rng : XorShift) :
    (∃ tries < attempts, (∀ earlier < tries, drawnPlace rng earlier ∈ snake) ∧
        drawnPlace rng tries ∉ snake ∧
        drawApple snake attempts rng =
          (some (drawnPlace rng tries), rng.skip (2 * (tries + 1)))) ∨
      ((∀ tries < attempts, drawnPlace rng tries ∈ snake) ∧
        drawApple snake attempts rng = (none, rng.skip (2 * attempts))) := by
  induction attempts generalizing rng with
  | zero => exact Or.inr ⟨fun _ h => absurd h (Nat.not_lt_zero _), rfl⟩
  | succ attempts ih =>
      rw [drawApple_succ]
      by_cases hFirst : drawnPlace rng 0 ∈ snake
      · rw [if_pos hFirst]
        rcases ih (rng.skip 2) with ⟨tries, hTries, hLater, hFree, hDraw⟩ | ⟨hLater, hDraw⟩
        · rw [skip_two_skip, ← drawnPlace_succ] at hDraw
          rw [← drawnPlace_succ] at hFree
          exact Or.inl ⟨tries + 1, Nat.succ_lt_succ hTries,
            forall_drawnPlace_mem_succ hFirst hLater, hFree, hDraw⟩
        · rw [skip_two_skip] at hDraw
          exact Or.inr ⟨forall_drawnPlace_mem_succ hFirst hLater, hDraw⟩
      · rw [if_neg hFirst]
        exact Or.inl ⟨0, Nat.succ_pos _, fun _ h => absurd h (Nat.not_lt_zero _), hFirst, rfl⟩

/-- The search finds a free cell that comes before all others. -/
theorem firstFree?_eq_some {snake : List Cell} {place : Cell} (h : firstFree? snake = some place) :
    place.onBoard = true ∧ place ∉ snake ∧
      ∀ c : Cell, c.onBoard = true → c.Before place → c ∈ snake := by
  have hBoard := (mem_boardCells place).mp (List.mem_of_find?_eq_some h)
  obtain ⟨hFree, before, behind, hSplit, hBefore⟩ := List.find?_eq_some_iff_append.mp h
  have hOrder := pairwise_before_boardCells
  rw [hSplit, List.pairwise_append, List.pairwise_cons] at hOrder
  refine ⟨hBoard, of_decide_eq_true hFree, fun c hc hFirst => ?_⟩
  have hMem := (mem_boardCells c).mpr hc
  rw [hSplit, List.mem_append, List.mem_cons] at hMem
  rcases hMem with hFound | rfl | hBehind
  · simpa using hBefore c hFound
  · exact absurd hFirst hFirst.asymm
  · exact absurd hFirst (hOrder.2.1.1 c hBehind).asymm

/-- A search in vain means a full board. -/
theorem firstFree?_eq_none {snake : List Cell} (h : firstFree? snake = none) {c : Cell}
    (hc : c.onBoard = true) : c ∈ snake := by
  simpa using List.find?_eq_none.mp h c ((mem_boardCells c).mpr hc)

/-- Placing an apple changes the apple and the generator only. -/
theorem spawnApple_eq (g : Game) :
    g.spawnApple = { g with apple := g.spawnApple.apple, rng := g.spawnApple.rng } := by
  unfold spawnApple
  split <;> rfl

/-- A new apple comes off the snake, by a draw or by a search. -/
theorem spawnApple_respawns (g : Game) :
    Respawns g.snake g.apple g.rng g.spawnApple.apple g.spawnApple.rng := by
  unfold spawnApple
  rcases drawApple_cases g.snake spawnAttempts g.rng with
    ⟨tries, hTries, hTaken, hFree, hDraw⟩ | ⟨hTaken, hDraw⟩ <;> rw [hDraw]
  · exact .drawn hTries hTaken hFree
  · cases hFirst : firstFree? g.snake with
    | none => exact .stays fun c hc => firstFree?_eq_none hFirst hc
    | some place =>
        obtain ⟨hBoard, hFree, hBefore⟩ := firstFree?_eq_some hFirst
        exact .found hTaken hBoard hFree hBefore

end Game

end ImageCartridge.Snake
