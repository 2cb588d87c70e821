import ImageCartridge.Snake.Frame
import ImageCartridge.Proofs.Snake.Restart
import Mathlib.Data.List.Count
import Mathlib.Logic.Function.Basic

/-! The drawn board. It is the table of a function of the cells, which a plot changes
at one cell. A later plot would hide an earlier one: that the head stays visible, and
how often each character is there, follows from what is known of the snake. -/
namespace ImageCartridge.Snake

/-- The characters of one row, as a function of the cells gives them. -/
def tableRow (f : Cell → Char) (y : Nat) : List Char :=
  (List.range boardColumns).map fun x => f ⟨x, y⟩

def table (f : Cell → Char) : List (List Char) :=
  (List.range boardRows).map (tableRow f)

/-- Write a character at a cell of a drawn board, which must be there. -/
def plot? (rows : List (List Char)) (c : Cell) (glyph : Char) : Option (List (List Char)) := do
  let row ← rows[c.y]?
  if c.x < row.length then some (plot rows c glyph) else none

/-- The board as it is drawn if no cell outside may be written. -/
def drawBoard? (g : Game) : Option (List (List Char)) := do
  let blank := List.replicate boardRows (List.replicate boardColumns '.')
  let withApple ← plot? blank g.apple '*'
  match g.snake with
  | [] => some withApple
  | head :: tail => tail.foldlM (fun rows c => plot? rows c 'o') (← plot? withApple head '@')

def charAt? (lines : List String) (x y : Nat) : Option Char := do
  let line ← lines[y]?
  line.toList[x]?

/-- What is seen at a cell: the head, another cell of the snake, the apple or nothing. -/
def Game.glyph (g : Game) (c : Cell) : Char :=
  if g.head? = some c then '@' else if c ∈ g.snake then 'o' else if c = g.apple then '*' else '.'

/-- A change at one cell is a change of one character in one row. -/
theorem tableRow_update (f : Cell → Char) (c : Cell) (glyph : Char) (y : Nat) :
    tableRow (Function.update f c glyph) y =
      if c.y = y then (tableRow f y).set c.x glyph else tableRow f y := by
  apply List.ext_getElem?
  intro x
  have hCell : (⟨x, y⟩ : Cell) = c ↔ c.y = y ∧ c.x = x := by
    cases c
    simp [and_comm, eq_comm]
  by_cases hx : x < boardColumns
  · by_cases hRow : c.y = y
    · by_cases hColumn : c.x = x
      · simp [tableRow, hx, hRow, hColumn, Function.update_apply, hCell]
      · simp [tableRow, hx, hRow, hColumn, Function.update_apply, hCell]
    · simp [tableRow, hx, hRow, Function.update_apply, hCell]
  · split
    · simp [tableRow, hx]
    · simp [tableRow, hx]

theorem table_const (glyph : Char) :
    table (fun _ => glyph) = List.replicate boardRows (List.replicate boardColumns glyph) := by
  have hRow : tableRow (fun _ => glyph) = fun _ => List.replicate boardColumns glyph := by
    funext y
    simp [tableRow]
  simp [table, hRow]

/-- Row after row, the characters of the board are those of its cells. -/
theorem flatten_table (f : Cell → Char) : (table f).flatten = boardCells.map f := by
  rw [table, ← List.flatMap_def, boardCells, List.map_flatMap]
  apply List.flatMap_congr
  intro y _
  simp [tableRow]

/-- A plot changes what is seen at its cell. -/
theorem plot_table (f : Cell → Char) (c : Cell) (glyph : Char) :
    plot (table f) c glyph = table (Function.update f c glyph) := by
  apply List.ext_getElem?
  intro y
  by_cases hy : y < boardRows
  · by_cases hRow : c.y = y
    · simp [plot, table, hy, hRow, tableRow_update]
    · simp [plot, table, hy, hRow, tableRow_update]
  · simp [plot, table, hy]

theorem plot?_table (f : Cell → Char) {c : Cell} (hc : c.onBoard = true) (glyph : Char) :
    plot? (table f) c glyph = some (table (Function.update f c glyph)) := by
  obtain ⟨hx, hy⟩ := (Cell.onBoard_iff c).mp hc
  have hRow : (table f)[c.y]? = some (tableRow f c.y) := by simp [table, hy]
  simp [plot?, hRow, tableRow, hx, plot_table]

/-- Characters written one after the other mark just the cells they are written at. -/
theorem foldlM_plot?_table (f : Cell → Char) (glyph : Char) {cells : List Cell}
    (hCells : ∀ c ∈ cells, c.onBoard = true) :
    cells.foldlM (fun rows c => plot? rows c glyph) (table f) =
      some (table fun c => if c ∈ cells then glyph else f c) := by
  induction cells generalizing f with
  | nil => simp
  | cons c cells ih =>
      obtain ⟨hHere, hRest⟩ := List.forall_mem_cons.mp hCells
      rw [List.foldlM_cons, plot?_table f hHere]
      dsimp only [Option.bind_eq_bind, Option.bind_some]
      rw [ih _ hRest]
      congr 2
      funext d
      by_cases hd : d = c <;> simp [hd]

/-- Where the checked write succeeds, the unchecked one does the same. -/
theorem plot_eq_of_plot? {rows rows' : List (List Char)} {c : Cell} {glyph : Char}
    (h : plot? rows c glyph = some rows') : plot rows c glyph = rows' := by
  obtain ⟨row, -, hPlot⟩ := Option.bind_eq_some_iff.mp h
  split at hPlot
  · exact Option.some.inj hPlot
  · cases hPlot

theorem foldl_plot_eq_of_foldlM {cells : List Cell} {rows rows' : List (List Char)} {glyph : Char}
    (h : cells.foldlM (fun rows c => plot? rows c glyph) rows = some rows') :
    cells.foldl (fun rows c => plot rows c glyph) rows = rows' := by
  induction cells generalizing rows with
  | nil => exact Option.some.inj h
  | cons c cells ih =>
      obtain ⟨next, hPlot, hRest⟩ := Option.bind_eq_some_iff.mp h
      rw [List.foldl_cons, plot_eq_of_plot? hPlot]
      exact ih hRest

/-- Where no cell outside is written, the check of the cells makes no difference. -/
theorem drawBoard_eq_of_drawBoard? {g : Game} {rows : List (List Char)}
    (h : drawBoard? g = some rows) : drawBoard g = rows := by
  obtain ⟨withApple, hApple, hSnake⟩ := Option.bind_eq_some_iff.mp h
  unfold drawBoard
  dsimp only
  rw [plot_eq_of_plot? hApple]
  cases hCells : g.snake with
  | nil =>
      rw [hCells] at hSnake
      exact Option.some.inj hSnake
  | cons head tail =>
      rw [hCells] at hSnake
      obtain ⟨withHead, hHead, hTail⟩ := Option.bind_eq_some_iff.mp hSnake
      dsimp only
      rw [plot_eq_of_plot? hHead]
      exact foldl_plot_eq_of_foldlM hTail

namespace Game

variable {g : Game}

/-- Every cell drawn is on the board, and none of the snake hides another. -/
theorem Invariant.drawBoard?_eq (hInv : g.Invariant) : drawBoard? g = some (table g.glyph) := by
  have hOn := hInv.body.onBoard
  have hNodup := hInv.body.nodup
  unfold drawBoard?
  dsimp only
  rw [← table_const, plot?_table _ hInv.apple_onBoard, Option.bind_eq_bind, Option.bind_some]
  cases hCells : g.snake with
  | nil =>
      dsimp only
      congr 2
      funext c
      simp [glyph, head?, hCells, Function.update_apply]
  | cons head tail =>
      rw [hCells] at hOn hNodup
      obtain ⟨hHead, hTail⟩ := List.forall_mem_cons.mp hOn
      obtain ⟨hOff, -⟩ := List.nodup_cons.mp hNodup
      dsimp only
      rw [plot?_table _ hHead, Option.bind_some, foldlM_plot?_table _ _ hTail]
      congr 2
      funext c
      -- The tail is drawn last, and does not touch the head.
      by_cases hc : c = head
      · simp [glyph, head?, hCells, hc, hOff]
      · simp [glyph, head?, hCells, hc, Function.update_apply, Ne.symm hc]

/-- The lines of a game show at each cell what the rules say is there. -/
theorem Invariant.boardLines_eq (hInv : g.Invariant) :
    boardLines g = (List.range boardRows).map fun y => String.ofList (tableRow g.glyph y) := by
  rw [boardLines, drawBoard_eq_of_drawBoard? hInv.drawBoard?_eq, table, List.map_map]
  rfl

/-- No cell of the board is missing from the lines. -/
theorem Invariant.charAt?_boardLines (hInv : g.Invariant) {x y : Nat} (hx : x < boardColumns)
    (hy : y < boardRows) : charAt? (boardLines g) x y = some (g.glyph ⟨x, y⟩) := by
  simp [charAt?, hInv.boardLines_eq, tableRow, hx, hy]

/-- To count characters in the lines is to count cells of the board. -/
theorem Invariant.flatMap_boardLines (hInv : g.Invariant) :
    (boardLines g).flatMap String.toList = boardCells.map g.glyph := by
  rw [← flatten_table, hInv.boardLines_eq, table, List.flatMap_map, List.flatMap_def]
  simp

/-- A character is there as often as there are cells to show it. -/
theorem Invariant.count_boardLines (hInv : g.Invariant) {ch : Char} {cells : List Cell}
    (hNodup : cells.Nodup) (hOn : ∀ c ∈ cells, c.onBoard = true)
    (hShown : ∀ c, g.glyph c = ch ↔ c ∈ cells) :
    ((boardLines g).flatMap String.toList).count ch = cells.length := by
  have hPerm : (boardCells.filter fun c => g.glyph c == ch).Perm cells := by
    apply (List.perm_ext_iff_of_nodup (nodup_boardCells.filter _) hNodup).mpr
    intro c
    rw [List.mem_filter, mem_boardCells, beq_iff_eq, hShown]
    exact and_iff_right_of_imp (hOn c)
  rw [hInv.flatMap_boardLines, List.count, List.countP_map, List.countP_eq_length_filter]
  exact hPerm.length_eq

/-- The head is drawn last, so nothing covers it. -/
theorem glyph_eq_head_iff (c : Cell) : g.glyph c = '@' ↔ g.head? = some c := by
  unfold glyph
  split_ifs <;> simp_all

theorem glyph_eq_tail_iff (c : Cell) : g.glyph c = 'o' ↔ c ∈ g.snake ∧ g.head? ≠ some c := by
  unfold glyph
  split_ifs <;> simp_all

/-- An apple under the snake is not seen. -/
theorem glyph_eq_apple_iff (c : Cell) : g.glyph c = '*' ↔ c = g.apple ∧ c ∉ g.snake := by
  have hMem : g.head? = some c → c ∈ g.snake := List.mem_of_head?
  unfold glyph
  split_ifs <;> simp_all

theorem glyph_eq_blank_iff (c : Cell) : g.glyph c = '.' ↔ c ∉ g.snake ∧ c ≠ g.apple := by
  have hMem : g.head? = some c → c ∈ g.snake := List.mem_of_head?
  unfold glyph
  split_ifs <;> simp_all

theorem Invariant.exists_snake_eq (hInv : g.Invariant) :
    ∃ head tail, g.snake = head :: tail ∧ tail.length = g.score + 2 := by
  have hLong := hInv.three_le_length
  have hScore := hInv.score_eq
  cases hCells : g.snake with
  | nil => simp [hCells] at hLong
  | cons head tail =>
      rw [hCells, List.length_cons] at hLong hScore
      exact ⟨head, tail, rfl, by omega⟩

theorem Invariant.count_head (hInv : g.Invariant) :
    ((boardLines g).flatMap String.toList).count '@' = 1 := by
  obtain ⟨head, tail, hCells, -⟩ := hInv.exists_snake_eq
  have hOn := hInv.body.onBoard head (by simp [hCells])
  apply hInv.count_boardLines (List.nodup_singleton head)
  · simpa using hOn
  · intro c
    rw [glyph_eq_head_iff, head?, hCells]
    simp [eq_comm]

/-- The tail is as long as the score says. -/
theorem Invariant.count_tail (hInv : g.Invariant) :
    ((boardLines g).flatMap String.toList).count 'o' = g.score + 2 := by
  obtain ⟨head, tail, hCells, hLength⟩ := hInv.exists_snake_eq
  have hOn := hInv.body.onBoard
  have hNodup := hInv.body.nodup
  rw [hCells] at hOn hNodup
  obtain ⟨hOff, hTail⟩ := List.nodup_cons.mp hNodup
  rw [← hLength]
  apply hInv.count_boardLines hTail (List.forall_mem_cons.mp hOn).2
  intro c
  rw [glyph_eq_tail_iff, head?, hCells]
  by_cases hc : c = head
  · simp [hc, hOff]
  · simp [hc, Ne.symm hc]

/-- The snake covers the apple only where it covers the board. -/
theorem Invariant.apple_mem_iff_forall_mem (hInv : g.Invariant) :
    g.apple ∈ g.snake ↔ ∀ c ∈ boardCells, c ∈ g.snake := by
  constructor
  · intro hApple c hc
    exact hInv.body.mem_of_length_eq (hInv.apple_mem_iff.mp hApple) ((mem_boardCells c).mp hc)
  · intro hAll
    exact hAll g.apple ((mem_boardCells _).mpr hInv.apple_onBoard)

/-- There is one apple to be seen, unless the snake fills the board. -/
theorem Invariant.count_apple (hInv : g.Invariant) :
    ((boardLines g).flatMap String.toList).count '*' =
      if ∀ c ∈ boardCells, c ∈ g.snake then 0 else 1 := by
  rw [if_congr hInv.apple_mem_iff_forall_mem.symm rfl rfl]
  by_cases hApple : g.apple ∈ g.snake
  · rw [if_pos hApple]
    apply hInv.count_boardLines List.nodup_nil (by simp)
    intro c
    rw [glyph_eq_apple_iff]
    simp only [List.not_mem_nil, iff_false, not_and, not_not]
    rintro rfl
    exact hApple
  · rw [if_neg hApple]
    apply hInv.count_boardLines (List.nodup_singleton g.apple)
    · simpa using hInv.apple_onBoard
    · intro c
      rw [glyph_eq_apple_iff, List.mem_singleton]
      constructor
      · exact And.left
      · rintro rfl
        exact ⟨rfl, hApple⟩

/-- Drawing writes to no cell outside the board, and the lines show the game: the head,
the rest of the snake, and the apple unless the snake covers the board. -/
theorem boardLines_show_game {h : Header} (hReach : Reachable h g) :
    drawBoard? g = some (drawBoard g) ∧
    (boardLines g).length = 24 ∧ (∀ line ∈ boardLines g, line.length = 20) ∧
    (∀ x < 20, ∀ y < 24,
      (charAt? (boardLines g) x y = some '@' ↔ g.head? = some ⟨x, y⟩) ∧
      (charAt? (boardLines g) x y = some 'o' ↔ ⟨x, y⟩ ∈ g.snake ∧ g.head? ≠ some ⟨x, y⟩) ∧
      (charAt? (boardLines g) x y = some '*' ↔ ⟨x, y⟩ = g.apple ∧ ⟨x, y⟩ ∉ g.snake) ∧
      (charAt? (boardLines g) x y = some '.' ↔ ⟨x, y⟩ ∉ g.snake ∧ ⟨x, y⟩ ≠ g.apple)) ∧
    ((boardLines g).flatMap String.toList).count '@' = 1 ∧
    ((boardLines g).flatMap String.toList).count 'o' = g.score + 2 ∧
    ((boardLines g).flatMap String.toList).count '*' =
      if ∀ c ∈ boardCells, c ∈ g.snake then 0 else 1 := by
  have hInv := hReach.invariant
  refine ⟨?_, ?_, ?_, ?_, hInv.count_head, hInv.count_tail, hInv.count_apple⟩
  · rw [hInv.drawBoard?_eq, drawBoard_eq_of_drawBoard? hInv.drawBoard?_eq]
  · simp [hInv.boardLines_eq, boardRows]
  · intro line hLine
    rw [hInv.boardLines_eq] at hLine
    obtain ⟨y, -, rfl⟩ := List.mem_map.mp hLine
    simp [tableRow, boardColumns]
  · intro x hx y hy
    rw [hInv.charAt?_boardLines hx hy]
    simp only [Option.some.injEq, glyph_eq_head_iff, glyph_eq_tail_iff, glyph_eq_apple_iff,
      glyph_eq_blank_iff, and_self]

/-- After the first apple the snake has grown by one, and the next apple lies elsewhere. -/
theorem boardLines_show_game_appleCalls :
    ∃ g, Reachable {} g ∧ g.score = 1 ∧ drawBoard? g = some (drawBoard g) ∧
      (boardLines g).length = 24 ∧
      charAt? (boardLines g) 5 7 = some '@' ∧ charAt? (boardLines g) 6 7 = some 'o' ∧
      charAt? (boardLines g) 5 3 = some '*' ∧ charAt? (boardLines g) 9 7 = some '.' ∧
      ((boardLines g).flatMap String.toList).count '@' = 1 ∧
      ((boardLines g).flatMap String.toList).count 'o' = 3 ∧
      ((boardLines g).flatMap String.toList).count '*' = 1 := by
  have hReach := Reachable.replay (.new (h := {})) appleCalls
  have hScore : ((new {}).replay appleCalls).score = 1 := rfl
  have hSnake : ((new {}).replay appleCalls).snake = [⟨5, 7⟩, ⟨6, 7⟩, ⟨7, 7⟩, ⟨8, 7⟩] := rfl
  have hPlace : ((new {}).replay appleCalls).apple = ⟨5, 3⟩ := rfl
  have hFree : ¬ ∀ c ∈ boardCells, c ∈ ((new {}).replay appleCalls).snake := by
    intro hAll
    have hCorner := hAll ⟨0, 0⟩ ((mem_boardCells _).mpr rfl)
    simp [hSnake] at hCorner
  obtain ⟨hDrawn, hRows, -, hShown, hHead, hTail, hApple⟩ := boardLines_show_game hReach
  rw [hScore] at hTail
  rw [if_neg hFree] at hApple
  refine ⟨_, hReach, hScore, hDrawn, hRows, ?_, ?_, ?_, ?_, hHead, hTail, hApple⟩
  · exact (hShown 5 (by decide) 7 (by decide)).1.mpr rfl
  · exact (hShown 6 (by decide) 7 (by decide)).2.1.mpr (by simp [head?, hSnake])
  · exact (hShown 5 (by decide) 3 (by decide)).2.2.1.mpr ⟨hPlace.symm, by simp [hSnake]⟩
  · exact (hShown 9 (by decide) 7 (by decide)).2.2.2.mpr ⟨by simp [hSnake], by simp [hPlace]⟩

end Game

end ImageCartridge.Snake
