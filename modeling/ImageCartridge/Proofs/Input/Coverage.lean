import ImageCartridge.Input.Button
import ImageCartridge.Proofs.OrderedMap
import Mathlib.Data.List.Nodup

/-! Which cells the buttons of a table cover. Cells of a grid have regions of their own, so
what is written for one cell is seen by no other, and a cell shows the last button over it. -/
namespace ImageCartridge

open InputGrid

namespace InputGrid

variable {grid : InputGrid} {gx gy : UInt16}

theorem ofSize_eq_ok {columns rows : UInt16} (h : ofSize columns rows = .ok grid) :
    grid.columns = columns ∧ grid.rows = rows := by
  unfold ofSize at h
  split at h
  · cases h
    exact ⟨rfl, rfl⟩
  · cases h

theorem toNat_ofNat_of_lt {count : UInt16} {n : Nat} (h : n < count.toNat) :
    (UInt16.ofNat n).toNat = n :=
  UInt16.toNat_ofNat_of_lt' (Nat.lt_trans h count.toNat_lt)

def cells (grid : InputGrid) : List (UInt16 × UInt16) :=
  (List.range grid.rows.toNat).flatMap fun gy =>
    (List.range grid.columns.toNat).map fun gx => (.ofNat gx, .ofNat gy)

theorem mem_cells : (gx, gy) ∈ grid.cells ↔ gx < grid.columns ∧ gy < grid.rows := by
  simp only [cells, List.mem_flatMap, List.mem_map, List.mem_range, UInt16.lt_iff_toNat_lt]
  constructor
  · rintro ⟨y, hy, x, hx, hCell⟩
    obtain ⟨rfl, rfl⟩ := Prod.mk.inj hCell
    rw [toNat_ofNat_of_lt hx, toNat_ofNat_of_lt hy]
    exact ⟨hx, hy⟩
  · rintro ⟨hx, hy⟩
    exact ⟨gy.toNat, hy, gx.toNat, hx, by simp⟩

theorem ofNat_injOn {count : UInt16} {a b : Nat} (ha : a < count.toNat) (hb : b < count.toNat)
    (h : UInt16.ofNat a = UInt16.ofNat b) : a = b := by
  have hNat := congrArg UInt16.toNat h
  rwa [toNat_ofNat_of_lt ha, toNat_ofNat_of_lt hb] at hNat

/-- No cell is listed twice, so counting regions is counting cells. -/
theorem nodup_cells (grid : InputGrid) : grid.cells.Nodup := by
  rw [cells, List.nodup_flatMap]
  constructor
  · intro y _
    apply List.nodup_range.map_on
    intro a ha b hb h
    exact ofNat_injOn (List.mem_range.mp ha) (List.mem_range.mp hb) (Prod.mk.inj h).1
  · refine List.nodup_range.imp_of_mem ?_
    intro y z hy hz hNe
    refine List.disjoint_left.mpr ?_
    intro cell hCell hOther
    obtain ⟨_, _, rfl⟩ := List.mem_map.mp hCell
    obtain ⟨_, _, h⟩ := List.mem_map.mp hOther
    exact hNe (ofNat_injOn (List.mem_range.mp hy) (List.mem_range.mp hz) (Prod.mk.inj h).2.symm)

/-- The number of a cell is below the number of cells, so the word arithmetic is exact. -/
theorem toNat_regionId (hx : gx < grid.columns) (hy : gy < grid.rows) :
    gx.toNat + gy.toNat * grid.columns.toNat < UInt16.size ∧
      (grid.regionId gx gy).toNat = gx.toNat + gy.toNat * grid.columns.toNat := by
  rw [UInt16.lt_iff_toNat_lt] at hx hy
  have hLess : gx.toNat + gy.toNat * grid.columns.toNat < UInt16.size :=
    calc gx.toNat + gy.toNat * grid.columns.toNat
        < grid.columns.toNat + gy.toNat * grid.columns.toNat := Nat.add_lt_add_right hx _
      _ = (gy.toNat + 1) * grid.columns.toNat := by rw [Nat.succ_mul, Nat.add_comm]
      _ ≤ grid.rows.toNat * grid.columns.toNat := Nat.mul_le_mul_right _ hy
      _ = grid.columns.toNat * grid.rows.toNat := Nat.mul_comm _ _
      _ ≤ UInt16.size := grid.cells_le
  refine ⟨hLess, ?_⟩
  rw [regionId, UInt16.toNat_add, UInt16.toNat_mul, Nat.add_mod_mod]
  exact Nat.mod_eq_of_lt hLess

/-- Cells of an accepted grid have different numbers: the last one still fits a word. -/
theorem regionId_inj {gx' gy' : UInt16} (hx : gx < grid.columns) (hy : gy < grid.rows)
    (hx' : gx' < grid.columns) (hy' : gy' < grid.rows)
    (h : grid.regionId gx gy = grid.regionId gx' gy') : gx = gx' ∧ gy = gy' := by
  have hNat := congrArg UInt16.toNat h
  rw [(toNat_regionId hx hy).2, (toNat_regionId hx' hy').2] at hNat
  rw [UInt16.lt_iff_toNat_lt] at hx hx'
  have hColumn := congrArg (· % grid.columns.toNat) hNat
  have hRow := congrArg (· / grid.columns.toNat) hNat
  simp only [Nat.add_mul_mod_self_right, Nat.mod_eq_of_lt hx, Nat.mod_eq_of_lt hx',
    Nat.add_mul_div_right _ _ grid.columns_pos, Nat.div_eq_of_lt hx, Nat.div_eq_of_lt hx',
    Nat.zero_add] at hColumn hRow
  exact ⟨UInt16.toNat_inj.mp hColumn, UInt16.toNat_inj.mp hRow⟩

end InputGrid

namespace Button

/-- The span of a stretch lies within the cells of its axis, its first cell before its last. -/
theorem span_eq_some {start length cell : Scalar} {count : UInt16} (hCount : 0 < count.toNat)
    {first last : UInt16} (h : span start length cell count = some (first, last)) :
    first ≤ last ∧ last < count := by
  have hClamp : ∀ v, clampCell v count < count := fun v =>
    UInt16.lt_iff_toNat_lt.mpr (clampCell_lt v hCount)
  have hMax : ∀ a b : UInt16, max a b = if a ≤ b then b else a := fun _ _ => rfl
  unfold span at h
  dsimp only at h
  split at h
  · cases h
    rw [hMax]
    split
    · exact ⟨UInt16.le_refl _, hClamp _⟩
    · next hAfter => exact ⟨UInt16.le_of_lt (UInt16.not_le.mp hAfter), hClamp _⟩
  · cases h

/-- Whether the spans of a button contain a cell on both axes. A button without a span on
one of them covers nothing. -/
def covers (grid : InputGrid) (gx gy : UInt16) (button : Button) : Bool :=
  (span button.x button.width grid.cellWidth grid.columns).any
      (fun columns => columns.1 ≤ gx && gx ≤ columns.2) &&
    (span button.y button.height grid.cellHeight grid.rows).any
      fun rows => rows.1 ≤ gy && gy ≤ rows.2

theorem mem_indices {bounds : UInt16 × UInt16} {index : UInt16} :
    index ∈ indices bounds ↔ bounds.1 ≤ index ∧ index ≤ bounds.2 := by
  obtain ⟨first, last⟩ := bounds
  simp only [indices, List.mem_map, List.mem_range'_1, UInt16.le_iff_toNat_le]
  constructor
  · rintro ⟨n, hn, rfl⟩
    have hLast : n ≤ last.toNat := by omega
    rw [UInt16.toNat_ofNat_of_lt' (Nat.lt_of_le_of_lt hLast last.toNat_lt)]
    exact ⟨hn.1, hLast⟩
  · rintro ⟨hFirst, hLast⟩
    exact ⟨index.toNat, by omega, by simp⟩

variable {grid : InputGrid} {gx gy : UInt16} {button : Button}

/-- What a button covers lies on the grid, wherever the button reaches to. -/
theorem mem_cells_of_covers (h : button.covers grid gx gy = true) :
    gx < grid.columns ∧ gy < grid.rows := by
  simp only [covers, Bool.and_eq_true, Option.any_eq_true, decide_eq_true_eq] at h
  obtain ⟨⟨columns, hColumns, -, hx⟩, rows, hRows, -, hy⟩ := h
  exact ⟨UInt16.lt_of_le_of_lt hx (span_eq_some grid.columns_pos hColumns).2,
    UInt16.lt_of_le_of_lt hy (span_eq_some grid.rows_pos hRows).2⟩

/-- The regions of a button are the numbers of the cells it covers. -/
theorem mem_regions {region : UInt16} :
    region ∈ button.regions grid ↔
      ∃ gx gy, button.covers grid gx gy = true ∧ grid.regionId gx gy = region := by
  simp only [regions, covers, Bool.and_eq_true, Option.any_eq_true, decide_eq_true_eq]
  split
  · next columns rows hColumns hRows =>
      simp only [List.mem_flatMap, List.mem_map, mem_indices, hColumns, hRows, Option.some.injEq,
        exists_eq_left']
      constructor
      · rintro ⟨gy, hy, gx, hx, hRegion⟩
        exact ⟨gx, gy, ⟨hx, hy⟩, hRegion⟩
      · rintro ⟨gx, gy, ⟨hx, hy⟩, hRegion⟩
        exact ⟨gy, hy, gx, hx, hRegion⟩
  · next hMiss =>
      simp only [List.not_mem_nil, false_iff]
      rintro ⟨gx, gy, ⟨⟨columns, hColumns, -⟩, rows, hRows, -⟩, -⟩
      exact hMiss columns rows hColumns hRows

/-- A button writes to the region of a cell exactly if it covers that cell. -/
theorem regionId_mem_regions (hx : gx < grid.columns) (hy : gy < grid.rows) :
    grid.regionId gx gy ∈ button.regions grid ↔ button.covers grid gx gy = true := by
  rw [mem_regions]
  constructor
  · rintro ⟨gx', gy', hCovers, hRegion⟩
    obtain ⟨hx', hy'⟩ := mem_cells_of_covers hCovers
    obtain ⟨rfl, rfl⟩ := regionId_inj hx' hy' hx hy hRegion
    exact hCovers
  · exact fun hCovers => ⟨gx, gy, hCovers, rfl⟩

end Button

namespace TruthTable

variable {grid : InputGrid} {gx gy : UInt16}

theorem ofRegion_injective : Function.Injective TouchKey.ofRegion :=
  fun _ _ h => congrArg TouchKey.region h

theorem grid_cover (table : TruthTable) (button : Button) :
    (table.cover button).grid = table.grid := by
  unfold cover
  induction button.regions table.grid generalizing table with
  | nil => rfl
  | cons region regions ih => exact ih (table.insert (.ofRegion region) button.command)

/-- A button sets the command of the keys of its regions. -/
theorem lookup_cover (table : TruthTable) (button : Button) (key : TouchKey) :
    (table.cover button).lookup key =
      if key ∈ (button.regions table.grid).map .ofRegion then some button.command
      else table.lookup key := by
  unfold cover
  induction button.regions table.grid generalizing table with
  | nil => rfl
  | cons region regions ih =>
      have hInsert : (table.insert (.ofRegion region) button.command).lookup key =
          if key = .ofRegion region then some button.command else table.lookup key :=
        OrderedMap.get?_insert table.commands (.ofRegion region) key button.command
      rw [List.foldl_cons, ih, hInsert, List.map_cons]
      by_cases hHead : key = .ofRegion region <;> simp [hHead]

theorem ofButtons_concat (grid : InputGrid) (buttons : List Button) (button : Button) :
    ofButtons grid (buttons ++ [button]) = (ofButtons grid buttons).cover button := by
  simp [ofButtons]

/-- Buttons never change the grid they are laid on. -/
theorem grid_ofButtons (grid : InputGrid) (buttons : List Button) :
    (ofButtons grid buttons).grid = grid := by
  induction buttons using List.reverseRecOn with
  | nil => rfl
  | append_singleton buttons button ih =>
      rw [ofButtons_concat, grid_cover, ih]

/-- A key has the command of the last button that wrote to it. -/
theorem lookup_ofButtons (grid : InputGrid) (buttons : List Button) (key : TouchKey) :
    (ofButtons grid buttons).lookup key =
      ((buttons.filter fun button => key ∈ (button.regions grid).map .ofRegion).getLast?).map
        Button.command := by
  induction buttons using List.reverseRecOn with
  | nil => exact OrderedMap.get?_empty key
  | append_singleton buttons button ih =>
      rw [ofButtons_concat, lookup_cover, grid_ofButtons, ih, getLast?_filter_concat]
      simp only [decide_eq_true_eq]
      split <;> rfl

def covered (grid : InputGrid) (buttons : List Button) (cell : UInt16 × UInt16) : Bool :=
  buttons.any (Button.covers grid cell.1 cell.2)

/-- A cell answers with the last of the buttons that cover it. -/
theorem lookup_ofRegion_regionId (hx : gx < grid.columns) (hy : gy < grid.rows)
    (buttons : List Button) :
    (ofButtons grid buttons).lookup (.ofRegion (grid.regionId gx gy)) =
      ((buttons.filter (Button.covers grid gx gy)).getLast?).map Button.command := by
  rw [lookup_ofButtons]
  congr 2
  apply List.filter_congr
  intro button _
  rw [Bool.eq_iff_iff, decide_eq_true_iff, List.mem_map_of_injective ofRegion_injective,
    Button.regionId_mem_regions hx hy]

theorem mem_keys_iff (table : TruthTable) (key : TouchKey) :
    key ∈ table.toList.map Prod.fst ↔ ∃ command, table.lookup key = some command := by
  simp only [lookup, OrderedMap.get?_eq_some_iff, List.mem_map, Prod.exists, exists_and_right,
    exists_eq_right]
  rfl

/-- The keys of a table are those of the covered cells. -/
theorem mem_keys_ofButtons {buttons : List Button} {key : TouchKey} :
    key ∈ (ofButtons grid buttons).toList.map Prod.fst ↔
      ∃ cell ∈ grid.cells.filter (covered grid buttons),
        .ofRegion (grid.regionId cell.1 cell.2) = key := by
  rw [mem_keys_iff]
  constructor
  · rintro ⟨command, hLookup⟩
    rw [lookup_ofButtons] at hLookup
    obtain ⟨button, hLast, -⟩ := Option.map_eq_some_iff.mp hLookup
    obtain ⟨hButton, hKey⟩ := List.mem_filter.mp (List.mem_of_getLast? hLast)
    obtain ⟨region, hRegion, rfl⟩ := List.mem_map.mp (of_decide_eq_true hKey)
    obtain ⟨gx, gy, hCovers, rfl⟩ := Button.mem_regions.mp hRegion
    refine ⟨(gx, gy), List.mem_filter.mpr ⟨?_, List.any_eq_true.mpr ⟨button, hButton, hCovers⟩⟩, rfl⟩
    exact mem_cells.mpr (Button.mem_cells_of_covers hCovers)
  · rintro ⟨⟨gx, gy⟩, hCell, rfl⟩
    obtain ⟨hMem, hCovered⟩ := List.mem_filter.mp hCell
    obtain ⟨hx, hy⟩ := mem_cells.mp hMem
    obtain ⟨button, hButton, hCovers⟩ := List.any_eq_true.mp hCovered
    have hSome : (buttons.filter (Button.covers grid gx gy)) ≠ [] :=
      List.ne_nil_of_mem (List.mem_filter.mpr ⟨hButton, hCovers⟩)
    rw [lookup_ofRegion_regionId hx hy, List.getLast?_eq_some_getLast hSome]
    exact ⟨_, rfl⟩

/-- A table has one entry for each covered cell. -/
theorem size_ofButtons (grid : InputGrid) (buttons : List Button) :
    (ofButtons grid buttons).size = grid.cells.countP (covered grid buttons) := by
  have hNodup : ((grid.cells.filter (covered grid buttons)).map fun cell =>
      TouchKey.ofRegion (grid.regionId cell.1 cell.2)).Nodup := by
    apply ((nodup_cells grid).filter _).map_on
    intro cell hCell other hOther h
    obtain ⟨hx, hy⟩ := mem_cells.mp (List.mem_filter.mp hCell).1
    obtain ⟨hx', hy'⟩ := mem_cells.mp (List.mem_filter.mp hOther).1
    obtain ⟨hColumn, hRow⟩ := regionId_inj hx hy hx' hy' (ofRegion_injective h)
    exact Prod.ext hColumn hRow
  have hKeys : ((ofButtons grid buttons).toList.map Prod.fst).Nodup :=
    (ofButtons grid buttons).commands.nodup_keys
  have hPerm := (List.perm_ext_iff_of_nodup hKeys hNodup).mpr fun key => by
    rw [mem_keys_ofButtons, List.mem_map]
  have hLength := hPerm.length_eq
  rw [List.length_map, List.length_map] at hLength
  rw [List.countP_eq_length_filter, ← hLength]
  exact OrderedMap.size_eq_length (ofButtons grid buttons).commands

/-- Laid over an accepted grid, the last button over a cell gives its command, and a cell that
no button covers has none. There is one entry for each covered cell and no other. The spans of
a button lie inside the grid, and the numbers of its cells are distinct and fit a word. -/
theorem ofButtons_lastCovering {columns rows : UInt16} {grid : InputGrid}
    (hGrid : InputGrid.ofSize columns rows = .ok grid) (buttons : List Button) :
    (∀ gx gy, gx < columns → gy < rows →
        (ofButtons grid buttons).lookup (.ofRegion (grid.regionId gx gy)) =
          ((buttons.filter (Button.covers grid gx gy)).getLast?).map Button.command) ∧
      (∀ entry ∈ (ofButtons grid buttons).toList, ∃ gx gy, gx < columns ∧ gy < rows ∧
        covered grid buttons (gx, gy) = true ∧ entry.1 = .ofRegion (grid.regionId gx gy)) ∧
      (ofButtons grid buttons).size = grid.cells.countP (covered grid buttons) ∧
      (∀ button : Button, ∀ first last,
        (Button.span button.x button.width grid.cellWidth grid.columns = some (first, last) →
          first ≤ last ∧ last < columns) ∧
        (Button.span button.y button.height grid.cellHeight grid.rows = some (first, last) →
          first ≤ last ∧ last < rows)) ∧
      (∀ gx gy, gx < columns → gy < rows →
        gx.toNat + gy.toNat * columns.toNat < UInt16.size ∧
          (grid.regionId gx gy).toNat = gx.toNat + gy.toNat * columns.toNat) ∧
      ∀ gx gy gx' gy', gx < columns → gy < rows → gx' < columns → gy' < rows →
        grid.regionId gx gy = grid.regionId gx' gy' → gx = gx' ∧ gy = gy' := by
  obtain ⟨rfl, rfl⟩ := InputGrid.ofSize_eq_ok hGrid
  refine ⟨fun _ _ hx hy => lookup_ofRegion_regionId hx hy buttons, ?_, size_ofButtons grid buttons,
    fun _ _ _ => ⟨Button.span_eq_some grid.columns_pos, Button.span_eq_some grid.rows_pos⟩,
    fun _ _ => toNat_regionId, fun _ _ _ _ => regionId_inj⟩
  intro entry hEntry
  obtain ⟨⟨gx, gy⟩, hCell, hKey⟩ := mem_keys_ofButtons.mp (List.mem_map_of_mem hEntry)
  obtain ⟨hMem, hCovered⟩ := List.mem_filter.mp hCell
  obtain ⟨hx, hy⟩ := mem_cells.mp hMem
  exact ⟨gx, gy, hx, hy, hCovered, hKey.symm⟩

/-- Buttons that lie over each other, and one beside the canvas. -/
def layeredButtons : List Button :=
  [⟨"wide", 0, 0, 32, 8, 1⟩, ⟨"narrow", 8, 0, 8, 8, 2⟩, ⟨"left", -50, 0, 10, 10, 3⟩]

/-- The grid of one cell. A button covers the cell wherever it lies on the canvas. -/
def oneCell : InputGrid := ⟨1, 1, by decide, by decide, by decide⟩

/-- The largest square grid. The last of its cells has the largest number of a word. -/
def fullGrid : InputGrid := ⟨256, 256, by decide, by decide, by decide⟩

theorem any_span_one (start length cell : Scalar) :
    (Button.span start length cell 1).any (fun s => s.1 ≤ 0 && 0 ≤ s.2) =
      (Button.span start length cell 1).isSome := by
  cases hSpan : Button.span start length cell 1 with
  | none => rfl
  | some s =>
      obtain ⟨first, last⟩ := s
      obtain ⟨hFirst, hLast⟩ := Button.span_eq_some (by decide) hSpan
      rw [UInt16.le_iff_toNat_le] at hFirst
      rw [UInt16.lt_iff_toNat_lt, UInt16.toNat_one] at hLast
      have hZero : first.toNat = 0 := by omega
      simp [UInt16.le_iff_toNat_le, hZero]

/-- On one cell the button that comes last wins, and the largest grid still numbers its last cell.
-/
theorem ofButtons_lastCovering_layeredButtons :
    (InputGrid.ofSize 1 1 = .ok oneCell ∧
        (ofButtons oneCell layeredButtons).lookup (.ofRegion 0) = some 2 ∧
        (ofButtons oneCell layeredButtons).size = 1) ∧
      InputGrid.ofSize 256 256 = .ok fullGrid ∧ (fullGrid.regionId 255 255).toNat = 65535 := by
  have hCovers : ∀ button : Button, button.covers oneCell 0 0 =
      ((Button.span button.x button.width oneCell.cellWidth 1).isSome &&
        (Button.span button.y button.height oneCell.cellHeight 1).isSome) := fun button => by
    rw [← any_span_one, ← any_span_one]
    rfl
  have hOver : layeredButtons.map (Button.covers oneCell 0 0) = [true, true, false] := by
    simp only [layeredButtons, List.map_cons, List.map_nil, hCovers]
    decide
  obtain ⟨hLookup, -, hSize, -⟩ :=
    ofButtons_lastCovering (show InputGrid.ofSize 1 1 = .ok oneCell from rfl) layeredButtons
  obtain ⟨-, -, -, -, hNumber, -⟩ :=
    ofButtons_lastCovering (show InputGrid.ofSize 256 256 = .ok fullGrid from rfl) []
  simp only [layeredButtons, List.map_cons, List.map_nil, List.cons.injEq, and_true] at hOver
  obtain ⟨hWide, hNarrow, hLeft⟩ := hOver
  have hCell : oneCell.cells = [(0, 0)] := rfl
  refine ⟨⟨rfl, ?_, ?_⟩, rfl, (hNumber 255 255 (by decide) (by decide)).2⟩
  · refine (hLookup 0 0 (by decide) (by decide)).trans ?_
    simp [layeredButtons, hWide, hNarrow, hLeft]
  · rw [hSize, hCell]
    simp [covered, layeredButtons, hWide]

end TruthTable

end ImageCartridge
