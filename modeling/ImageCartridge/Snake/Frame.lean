import ImageCartridge.Snake.Game

/-! What a game looks like from outside: the snapshot handed to a renderer, and
the board as text. -/
namespace ImageCartridge.Snake

/-- What a renderer needs of one frame. -/
structure Snapshot where
  snake : List Cell
  apple : Cell
  score : Nat
  highScore : Nat
  paused : Bool
  gameOver : Bool
  deriving DecidableEq, Repr

def Snapshot.of (g : Game) : Snapshot where
  snake := g.snake
  apple := g.apple
  score := g.score
  highScore := g.highScore
  paused := g.paused
  gameOver := g.gameOver

/-- Receives a frame after every start and every applied tick. -/
inductive Observer where
  | discard
  | record (frames : Array Snapshot)

namespace Observer

def recording : Observer := .record #[]

def publish (o : Observer) (g : Game) : Observer :=
  match o with
  | discard => discard
  | record frames => record (frames.push (.of g))

def frames : Observer → Array Snapshot
  | discard => #[]
  | record frames => frames

end Observer

/-- Write a character at a cell of a drawn board. A cell outside changes
nothing. -/
def plot (rows : List (List Char)) (c : Cell) (glyph : Char) : List (List Char) :=
  rows.modify c.y fun row => row.set c.x glyph

/-- The board with one character a cell: the head, the rest of the snake, the
apple and empty cells. The snake is drawn over the apple, tail last. -/
def drawBoard (g : Game) : List (List Char) :=
  let blank := List.replicate boardRows (List.replicate boardColumns '.')
  let withApple := plot blank g.apple '*'
  match g.snake with
  | [] => withApple
  | head :: tail => tail.foldl (fun rows c => plot rows c 'o') (plot withApple head '@')

def boardLines (g : Game) : List String :=
  (drawBoard g).map String.ofList

def statusLine (g : Game) : String :=
  let flag :=
    if g.gameOver then "  GAME OVER" else if g.paused then "  PAUSED" else ""
  s!"Score: {g.score}  High: {g.highScore}{flag}"

end ImageCartridge.Snake
