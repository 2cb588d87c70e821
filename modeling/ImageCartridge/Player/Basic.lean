import ImageCartridge.Machine.Run
import ImageCartridge.Player.Frontend

/-! The player owns the loaded cartridge and its machine, counts the ticks and
keeps the view. A file that does not load is shown as a plain image for good. -/
namespace ImageCartridge

open Snake

/-- What the player does with a file: run it, or show the image only and say
why. -/
inductive Mode where
  | interactive (cartridge : Cartridge) (machine : Machine)
  | inert (cause : CartridgeError)

structure Player where
  limits : Limits
  mode : Mode
  view : View
  tick : UInt32
  queued : Option Command

namespace Player

/-- Load a file and run its prologue. -/
def openFile (jpeg : Bytes) (limits : Limits) (observer : Observer) : Player × Observer :=
  let player := fun mode : Mode =>
    ({ limits, mode, view := .identity, tick := 0, queued := none } : Player)
  match Cartridge.readFrom jpeg limits.maxCartridgeBytes with
  | .error cause => (player (.inert cause), observer)
  | .ok cartridge =>
      let machine := Machine.new cartridge.header cartridge.bytecode limits.maxCycleBudget
      let run := machine.boot limits.cyclesPerFrame observer
      (player (.interactive cartridge run.machine), run.observer)

def isInteractive (p : Player) : Bool :=
  match p.mode with
  | .interactive _ _ => true
  | .inert _ => false

def cartridge? (p : Player) : Option Cartridge :=
  match p.mode with
  | .interactive cartridge _ => some cartridge
  | .inert _ => none

def machine? (p : Player) : Option Machine :=
  match p.mode with
  | .interactive _ machine => some machine
  | .inert _ => none

def game? (p : Player) : Option Game :=
  p.machine?.bind (·.game)

def setViewport (p : Player) (width height : Scalar) : Player :=
  { p with view := .fit width height }

/-- Queue a command for the next frame, in place of the one queued before.
Commands of the host are handed back instead, and codes without a meaning are
dropped. -/
def press (p : Player) (code : UInt16) : Player × Option HostCommand :=
  match Command.ofCode? code with
  | none => (p, none)
  | some command =>
      match command.host? with
      | some host => (p, some host)
      | none => (if p.isInteractive then { p with queued := some command } else p, none)

/-- The code of the button under a screen point. -/
def codeAt? (p : Player) (x y : Scalar) : Option UInt16 := do
  let cartridge ← p.cartridge?
  let table ← cartridge.truthTable
  table.resolve p.view x y

def touch (p : Player) (x y : Scalar) : Player × Option HostCommand :=
  match p.codeAt? x y with
  | none => (p, none)
  | some code => p.press code

/-- Let one frame pass: count the tick, hand over the queued command and run the
program. A plain image stays as it is. -/
def step (p : Player) (observer : Observer) : Player × Observer × Option Machine.RunResult :=
  match p.mode with
  | .inert _ => (p, observer, none)
  | .interactive cartridge machine =>
      let tick := p.tick + 1
      let cmd := (p.queued.map Command.code).getD 0
      let run := { machine with registers := { machine.registers with cmd, tick } }.runFrame
        p.limits.cyclesPerFrame observer
      ({ p with mode := .interactive cartridge run.machine, tick, queued := none },
        run.observer, some run.result)

def handle (p : Player) : Input → Player × Option HostCommand
  | .command code => p.press code
  | .touch x y => p.touch x y
  | .resize width height => (p.setViewport width.toFloat32 height.toFloat32, none)
  | .quit => (p, none)

/-- A player at its frontend, with the host commands asked for so far. -/
structure Session where
  player : Player
  frontend : Frontend
  hosts : List HostCommand

/-- Poll the frontend until it quits. An entry without input ends the frame. -/
def loop (s : Session) : Session :=
  match _hScript : s.frontend.script with
  | [] => s
  | _ :: _ =>
      match _hPoll : s.frontend.poll with
      | (some .quit, frontend) => { s with frontend }
      | (none, frontend) =>
          let (player, observer, _) := s.player.step frontend.observer
          loop { s with player, frontend := { frontend with observer } }
      | (some input, frontend) =>
          let (player, host) := s.player.handle input
          loop { player, frontend, hosts := s.hosts ++ host.toList }
termination_by s.frontend.script.length
decreasing_by
  all_goals
    have hTail := Frontend.poll_script _hPoll
    simp_all

/-- Play until the frontend quits, after fitting the canvas to its screen. -/
def run (p : Player) (frontend : Frontend) : Session :=
  let (width, height) := frontend.screen
  loop { player := p.setViewport width.toFloat32 height.toFloat32, frontend, hosts := [] }

end Player

end ImageCartridge
