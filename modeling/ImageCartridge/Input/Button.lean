import ImageCartridge.Input.TruthTable

/-! Buttons are rectangles on the canvas. A truth table is built by laying them
over the grid one after the other. -/
namespace ImageCartridge

/-- A named rectangle on the canvas and the command it stands for. -/
structure Button where
  name : String
  x : Scalar
  y : Scalar
  width : Scalar
  height : Scalar
  command : UInt16

namespace Button

/-- The cells a stretch of one axis touches, first and last of them. A stretch
that has no positive length on the canvas touches none. -/
def span (start length cell : Scalar) (count : UInt16) : Option (UInt16 × UInt16) :=
  let low := Scalar.maxNum start 0
  let high := Scalar.minNum (start + length) Scalar.canvasSide
  if low < high then
    let first := InputGrid.clampCell (low / cell).floor count
    let last := InputGrid.clampCell ((high / cell).ceil - 1) count
    some (first, max last first)
  else none

def indices (bounds : UInt16 × UInt16) : List UInt16 :=
  (List.range' bounds.1.toNat (bounds.2.toNat + 1 - bounds.1.toNat)).map UInt16.ofNat

def regions (grid : InputGrid) (button : Button) : List UInt16 :=
  match span button.x button.width grid.cellWidth grid.columns,
    span button.y button.height grid.cellHeight grid.rows with
  | some columns, some rows =>
      (indices rows).flatMap fun gy => (indices columns).map fun gx => grid.regionId gx gy
  | _, _ => []

end Button

/-- Give every region a button covers its command. -/
def TruthTable.cover (table : TruthTable) (button : Button) : TruthTable :=
  (button.regions table.grid).foldl
    (fun table region => table.insert (.ofRegion region) button.command) table

/-- The table of a list of buttons. Where buttons overlap, the last one wins. -/
def TruthTable.ofButtons (grid : InputGrid) (buttons : List Button) : TruthTable :=
  buttons.foldl cover (.empty grid)

end ImageCartridge
