import ImageCartridge.Command
import ImageCartridge.Header
import ImageCartridge.XorShift
import ImageCartridge.Snake.Board

/-! The rules of the game. Nothing in it is left to chance but the generator,
which starts from the header: the same header and the same commands always give
the same game. -/
namespace ImageCartridge.Snake

/-- A game between two ticks. The snake is listed from its head. -/
structure Game where
  geometry : BoardGeometry
  osId : UInt32
  snake : List Cell
  apple : Cell
  direction : Direction
  pending : Direction
  score : Nat
  highScore : Nat
  paused : Bool
  gameOver : Bool
  lastTick : UInt32
  rng : XorShift
  deriving DecidableEq, Repr

namespace Game

/-- Random places tried for an apple before the board is searched. -/
def spawnAttempts : Nat := 64

/-- The snake at the start: three cells in the middle, heading up. -/
def startSnake : List Cell :=
  (List.range 3).map fun i => ⟨boardColumns / 2, boardRows / 2 + i⟩

/-- Draw places for an apple, column before row, until one is free. -/
def drawApple (snake : List Cell) : Nat → XorShift → Option Cell × XorShift
  | 0, rng => (none, rng)
  | attempts + 1, rng =>
      let (first, rng) := rng.advance
      let (second, rng) := rng.advance
      let place : Cell := ⟨first.toNat % boardColumns, second.toNat % boardRows⟩
      if place ∈ snake then drawApple snake attempts rng else (some place, rng)

def firstFree? (snake : List Cell) : Option Cell :=
  boardCells.find? fun c => decide (c ∉ snake)

/-- Place a new apple. On a full board it stays where it is. -/
def spawnApple (g : Game) : Game :=
  match drawApple g.snake spawnAttempts g.rng with
  | (some place, rng) => { g with apple := place, rng }
  | (none, rng) => { g with apple := (firstFree? g.snake).getD g.apple, rng }

/-- Start again from the beginning. The high score is kept. -/
def reset (g : Game) : Game :=
  spawnApple { g with
    snake := startSnake
    direction := .up
    pending := .up
    score := 0
    paused := false
    gameOver := false
    lastTick := 0
    rng := .ofOsId g.osId }

def new (h : Header) : Game :=
  reset {
    geometry := .fit h.framebufferWidth.toNat h.framebufferHeight.toNat boardColumns boardRows
    osId := h.osTag
    snake := []
    apple := ⟨0, 0⟩
    direction := .up
    pending := .up
    score := 0
    highScore := 0
    paused := false
    gameOver := false
    lastTick := 0
    rng := .ofOsId h.osTag }

def head? (g : Game) : Option Cell :=
  g.snake.head?

/-- Steer in a direction. Turning straight back is refused, measured by the
direction of the last move. -/
def steer (g : Game) (wanted : Direction) : Game :=
  if wanted.reverse = g.direction then g else { g with pending := wanted }

/-- Take in a command other than a restart. A game that is over cannot be
paused. -/
def obey (g : Game) : Option Command → Game
  | some .startPause => if g.gameOver then g else { g with paused := !g.paused }
  | some command =>
      match command.direction? with
      | some wanted => g.steer wanted
      | none => g
  | none => g

/-- The cells that block a move: the whole snake if it grows, and all but its
last cell if it does not. -/
def blocking (g : Game) (grows : Bool) : List Cell :=
  if grows then g.snake else g.snake.dropLast

/-- Move the head to a free cell. The snake grows where the apple was, and a new
apple comes. -/
def moveTo (g : Game) (next : Cell) : Game :=
  if next = g.apple then
    spawnApple { g with
      snake := next :: g.snake
      score := g.score + 1
      highScore := max g.highScore (g.score + 1) }
  else { g with snake := next :: g.snake.dropLast }

/-- Move one step in the pending direction. Leaving the board or running into
the snake ends the game. -/
def advance (g : Game) : Game :=
  let g := { g with direction := g.pending }
  match g.head?.bind fun h => h.neighbour? g.direction with
  | none => { g with gameOver := true }
  | some next =>
      if next ∈ g.blocking (next = g.apple) then { g with gameOver := true }
      else g.moveTo next

/-- Apply a command and let time pass. A tick number equal to the last one was
already applied and gives nothing. A restart takes the place of the move. -/
def tick (g : Game) (code : UInt16) (number : UInt32) : Option Game :=
  if number = g.lastTick then none
  else
    let g := { g with lastTick := number }
    match Command.ofCode? code with
    | some .restart => some { g.reset with lastTick := number }
    | command =>
        let g := g.obey command
        some (if g.paused || g.gameOver then g else g.advance)

end Game

end ImageCartridge.Snake
