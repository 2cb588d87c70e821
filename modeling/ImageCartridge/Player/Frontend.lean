import ImageCartridge.Config

/-! Where a player takes its input from and shows its frames. -/
namespace ImageCartridge

open Snake

inductive Input where
  | command (code : UInt16)
  | touch (x y : Scalar)
  | resize (width height : UInt16)
  | quit

structure DisplayError where
  message : String

namespace DisplayError

/-- The failure an error of the operating system amounts to. -/
def ofSystem (message : String) : DisplayError :=
  ⟨"I/O error: " ++ message⟩

def text (e : DisplayError) : String :=
  "Display error: " ++ e.message

end DisplayError

/-- A frontend without a display: its input is a script, and it records what it
is shown. In the script, `none` ends the input of a frame. -/
structure Frontend where
  observer : Observer
  script : List (Option Input)
  screen : UInt16 × UInt16

namespace Frontend

def ofScript (script : List (Option Input)) : Frontend :=
  { observer := .recording, script, screen := (512, 512) }

/-- A frontend that lets a number of frames pass without input. -/
def idle (frames : Nat) : Frontend :=
  ofScript (List.replicate frames none)

def queue (f : Frontend) (entries : List (Option Input)) : Frontend :=
  { f with script := f.script ++ entries }

/-- The next entry of the script. A script that has come to its end quits for
ever. The screen changes as soon as its new size is told. -/
def poll (f : Frontend) : Option Input × Frontend :=
  match f.script with
  | [] => (some .quit, f)
  | entry :: rest =>
      let f := { f with script := rest }
      match entry with
      | some (.resize width height) => (entry, { f with screen := (width, height) })
      | _ => (entry, f)

/-- Each poll takes one entry off the script, if there is one. -/
theorem poll_script {f g : Frontend} {entry : Option Input} (h : f.poll = (entry, g)) :
    g.script = f.script.tail := by
  unfold poll at h
  repeat' split at h
  all_goals
    cases h
    simp_all

end Frontend

structure DisplayCapabilities where
  hasTerminal : Bool
  isInteractive : Bool

def DisplayCapabilities.supportsDrawing (c : DisplayCapabilities) : Bool :=
  c.hasTerminal && c.isInteractive

/-- The frontend of a display mode where there is no terminal to draw on. It
lets a number of frames pass and quits. -/
def Frontend.create (mode : DisplayMode) (frames : Nat) : Except DisplayError Frontend :=
  match mode with
  | .auto | .headless => .ok (.idle frames)
  | .terminal => .error (.ofSystem "no terminal to draw on")

end ImageCartridge
