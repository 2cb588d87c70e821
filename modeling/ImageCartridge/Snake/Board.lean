import ImageCartridge.Scalar
import ImageCartridge.Snake.Direction

namespace ImageCartridge.Snake

def boardColumns : Nat := 20

def boardRows : Nat := 24

/-- A cell, counted from the upper left corner. -/
structure Cell where
  x : Nat
  y : Nat
  deriving DecidableEq, Repr

namespace Cell

def onBoard (c : Cell) : Bool :=
  c.x < boardColumns && c.y < boardRows

def neighbour? (c : Cell) : Direction → Option Cell
  | .up => if 0 < c.y then guard ⟨c.x, c.y - 1⟩ else none
  | .down => guard ⟨c.x, c.y + 1⟩
  | .left => if 0 < c.x then guard ⟨c.x - 1, c.y⟩ else none
  | .right => guard ⟨c.x + 1, c.y⟩
where
  guard (c : Cell) : Option Cell := if c.onBoard then some c else none

end Cell

/-- All cells of the board, row by row. -/
def boardCells : List Cell :=
  (List.range boardRows).flatMap fun y => (List.range boardColumns).map fun x => ⟨x, y⟩

/-- Where a board sits in the framebuffer. -/
structure BoardGeometry where
  cellSize : Nat
  originX : Nat
  originY : Nat
  framebufferWidth : Nat
  framebufferHeight : Nat
  deriving DecidableEq, Repr

namespace BoardGeometry

/-- The largest whole cells that fit, and the board centred. Cells have at
least one pixel, even where the board then does not fit. -/
def fit (width height columns rows : Nat) : BoardGeometry :=
  let cellSize := max (min (width / columns) (height / rows)) 1
  { cellSize
    originX := (width - cellSize * columns) / 2
    originY := (height - cellSize * rows) / 2
    framebufferWidth := width
    framebufferHeight := height }

/-- The square a cell covers on the canvas: left edge, upper edge and side. The
framebuffer is scaled to the canvas as a whole and centred on its short axis. -/
def canvasRect (g : BoardGeometry) (c : Cell) : Scalar × Scalar × Scalar :=
  let width := Float32.ofNat g.framebufferWidth
  let height := Float32.ofNat g.framebufferHeight
  let scale := Scalar.canvasSide / Scalar.maxNum (Scalar.maxNum width height) 1
  let left := (Scalar.canvasSide - width * scale) / 2
  let top := (Scalar.canvasSide - height * scale) / 2
  let size := Float32.ofNat g.cellSize
  (left + (Float32.ofNat g.originX + Float32.ofNat c.x * size) * scale,
    top + (Float32.ofNat g.originY + Float32.ofNat c.y * size) * scale,
    size * scale)

end BoardGeometry

end ImageCartridge.Snake
