namespace ImageCartridge.Snake

/-- The four ways to move on the board, numbered clockwise from up. -/
inductive Direction where
  | up
  | right
  | down
  | left
  deriving DecidableEq, Repr

namespace Direction

/-- The direction with a number. Numbers count round and round. -/
def ofIndex (index : UInt8) : Direction :=
  match index.toNat % 4 with
  | 0 => up
  | 1 => right
  | 2 => down
  | _ => left

def index : Direction → UInt8
  | up => 0
  | right => 1
  | down => 2
  | left => 3

def reverse : Direction → Direction
  | up => down
  | right => left
  | down => up
  | left => right

def name : Direction → String
  | up => "Up"
  | right => "Right"
  | down => "Down"
  | left => "Left"

end Direction

end ImageCartridge.Snake
