import ImageCartridge.Error
import ImageCartridge.Scalar

namespace ImageCartridge

/-- A grid laid over the canvas. It has cells, and no more of them than there
are region numbers. -/
structure InputGrid where
  columns : UInt16
  rows : UInt16
  columns_pos : 0 < columns.toNat
  rows_pos : 0 < rows.toNat
  cells_le : columns.toNat * rows.toNat ≤ UInt16.size
  deriving DecidableEq

namespace InputGrid

def ofSize (columns rows : UInt16) : Except SchemaError InputGrid :=
  if h : 0 < columns.toNat ∧ 0 < rows.toNat ∧ columns.toNat * rows.toNat ≤ UInt16.size then
    .ok ⟨columns, rows, h.1, h.2.1, h.2.2⟩
  else .error (.badGrid columns rows)

def standard : InputGrid := ⟨64, 64, by decide, by decide, by decide⟩

def cellWidth (grid : InputGrid) : Scalar :=
  Scalar.canvasSide / grid.columns.toFloat32

def cellHeight (grid : InputGrid) : Scalar :=
  Scalar.canvasSide / grid.rows.toFloat32

/-- Cells are numbered row by row. -/
def regionId (grid : InputGrid) (gx gy : UInt16) : UInt16 :=
  gx + gy * grid.columns

/-- The cell index nearest to a whole number, among `count` of them. Conversion
to a word stops at zero and at the largest word, so one bound is left to apply. -/
def clampCell (v : Scalar) (count : UInt16) : UInt16 :=
  min v.toUInt16 (count - 1)

/-- A clamped index is that of a cell, also for a coordinate that is no number. -/
theorem clampCell_lt (v : Scalar) {count : UInt16} (h : 0 < count.toNat) :
    (clampCell v count).toNat < count.toNat := by
  have hOne : (1 : UInt16) ≤ count := UInt16.le_iff_toNat_le.mpr h
  have hLast : (count - 1).toNat = count.toNat - 1 := UInt16.toNat_sub_of_le count 1 hOne
  have hMin : clampCell v count ≤ count - 1 := Std.min_le_right
  have hNat := UInt16.le_iff_toNat_le.mp hMin
  omega

/-- The region of a canvas point. Points off the canvas belong to the nearest
cell at its edge. -/
def regionAt (grid : InputGrid) (vx vy : Scalar) : UInt16 :=
  grid.regionId (clampCell (vx / grid.cellWidth).floor grid.columns)
    (clampCell (vy / grid.cellHeight).floor grid.rows)

end InputGrid

end ImageCartridge
