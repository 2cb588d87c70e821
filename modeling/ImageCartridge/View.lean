import ImageCartridge.Scalar

/-! The mapping between the screen and the square canvas: one scale for both
axes, and an offset on each. Drawing and touch both go through it, so a button
is hit where it is drawn. -/
namespace ImageCartridge

/-- How the canvas is placed on the screen. -/
structure View where
  scale : Scalar
  offsetX : Scalar
  offsetY : Scalar

namespace View

def identity : View := ⟨1, 0, 0⟩

/-- The largest scale at which the canvas fits the screen, centred on the axis
that has room left. -/
def fit (width height : Scalar) : View :=
  let scale := Scalar.maxNum
    (Scalar.minNum (width / Scalar.canvasSide) (height / Scalar.canvasSide)) 0
  { scale
    offsetX := (width - Scalar.canvasSide * scale) / 2
    offsetY := (height - Scalar.canvasSide * scale) / 2 }

/-- The canvas point under a screen point. Bars beside the canvas have none,
and no point has one while the scale is not positive. -/
def toCanvas? (view : View) (x y : Scalar) : Option (Scalar × Scalar) :=
  if 0 < view.scale then
    let vx := (x - view.offsetX) / view.scale
    let vy := (y - view.offsetY) / view.scale
    if vx.onCanvas && vy.onCanvas then some (vx, vy) else none
  else none

def toScreen (view : View) (vx vy : Scalar) : Scalar × Scalar :=
  (vx * view.scale + view.offsetX, vy * view.scale + view.offsetY)

end View

end ImageCartridge
