import ImageCartridge.Player.Frontend

/-! How a board, touches and keys map onto a text terminal. A terminal cell is
about twice as tall as it is wide, so a row counts as two screen units. -/
namespace ImageCartridge.Terminal

open Snake

/-- The screen of a terminal. Its last row holds the status line and does not
belong to the screen; sizes past the largest word stay there. -/
def screenUnits (columns rows : UInt16) : UInt16 × UInt16 :=
  (columns, UInt16.ofNat (min ((rows.toNat - 1) * 2) 65535))

def touchPoint (column row : UInt16) : Scalar × Scalar :=
  (column.toFloat32 + 0.5, row.toFloat32 * 2 + 1)

structure Area where
  x : UInt16
  y : UInt16
  width : UInt16
  height : UInt16
  deriving DecidableEq, Repr

def Area.limit : Nat := 65535

/-- An area of too many cells, shrunk to the limit with the ratio of its sides
kept. The sides are cut to whole cells at the end only. -/
def Area.shrink (area : Area) : Area :=
  if area.width.toNat * area.height.toNat ≤ Area.limit then area
  else
    let ratio := area.width.toFloat / area.height.toFloat
    let height := (Float.ofNat Area.limit / ratio).sqrt
    { area with width := (height * ratio).toUInt16, height := height.toUInt16 }

/-- The terminal cells along one axis whose centres lie between two edges, as a
first cell and a number of them. Where there is none, the cell at the middle of
the board cell stands in. -/
def axisSpan (first stop middle : Scalar) : UInt16 × UInt16 :=
  let start := if first < stop then first else Scalar.maxNum middle.floor 0
  (start.toUInt16, max (stop - first).toUInt16 1)

/-- The terminal cells a board cell is drawn on through a view: those with their
centres in it, and at least one. -/
def cellSpan (view : View) (geometry : BoardGeometry) (cell : Cell) : Area :=
  let (x, y, side) := geometry.canvasRect cell
  let (left, top) := view.toScreen x y
  let (right, bottom) := view.toScreen (x + side) (y + side)
  let firstColumn := Scalar.maxNum (left - 0.5).ceil 0
  let stopColumn := Scalar.maxNum (right - 0.5).ceil firstColumn
  let firstRow := Scalar.maxNum ((top - 1) / 2).ceil 0
  let stopRow := Scalar.maxNum ((bottom - 1) / 2).ceil firstRow
  let (middleX, middleY) := view.toScreen (x + side / 2) (y + side / 2)
  let (column, width) := axisSpan firstColumn stopColumn middleX
  let (row, height) := axisSpan firstRow stopRow (middleY / 2)
  Area.shrink ⟨column, row, width, height⟩

inductive KeyCode where
  | char (c : Char)
  | up
  | down
  | left
  | right
  | escape
  | other
  deriving DecidableEq, Repr

inductive KeyAction where
  | press
  | hold
  | release
  deriving DecidableEq, Repr

/-- A key, whether the control key was down with it, and what happened to it. -/
structure KeyEvent where
  code : KeyCode
  control : Bool
  action : KeyAction
  deriving DecidableEq, Repr

/-- The command code of a key. Arrows and the letters beside them steer. -/
def keyCommand? : KeyCode → Option UInt16
  | .up | .char 'k' => some 1
  | .down | .char 'j' => some 2
  | .left | .char 'h' => some 3
  | .right | .char 'l' => some 4
  | .char ' ' | .char 'p' => some 5
  | .char 'r' => some 6
  | .char 's' => some 7
  | .char 'c' => some 8
  | .char 'o' => some 9
  | _ => none

/-- The input a key stands for. Only a press counts. Escape, `q`, and `c` with
the control key quit. -/
def mapKey (key : KeyEvent) : Option Input :=
  if key.action ≠ .press then none
  else if key.code = .char 'c' && key.control then some .quit
  else if key.code = .escape || key.code = .char 'q' then some .quit
  else (keyCommand? key.code).map Input.command

end ImageCartridge.Terminal
