/-! Coordinates are single-precision numbers, rounded once per operation. -/
namespace ImageCartridge

abbrev Scalar := Float32

namespace Scalar

/-- The larger of two numbers, the second one if they are equal. So zero as a
lower bound leaves no negative zero. A number wins over a value that is none. -/
def maxNum (a b : Scalar) : Scalar :=
  if a.isNaN || a ≤ b then b else a

/-- The smaller of two numbers, the second one if they are equal. A number wins
over a value that is none. -/
def minNum (a b : Scalar) : Scalar :=
  if a.isNaN || b ≤ a then b else a

def canvasSide : Scalar := 512

/-- Whether a canvas coordinate lies on the canvas. The lower edge belongs to
it and the upper does not; a value that is no number lies nowhere. -/
def onCanvas (v : Scalar) : Bool :=
  0 ≤ v && v < canvasSide

end Scalar

end ImageCartridge
