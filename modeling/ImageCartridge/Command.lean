import ImageCartridge.Snake.Direction

namespace ImageCartridge

open Snake

/-- What a button or a key can ask for. -/
inductive Command where
  | up
  | down
  | left
  | right
  | startPause
  | restart
  | download
  | capture
  | load
  deriving DecidableEq, Repr

/-- Commands the host carries out itself. No program ever sees them. -/
inductive HostCommand where
  | download
  | capture
  | load
  deriving DecidableEq, Repr

namespace Command

/-- The command with a code. Codes from one to nine have one. -/
def ofCode? (code : UInt16) : Option Command :=
  match code.toNat with
  | 1 => some up
  | 2 => some down
  | 3 => some left
  | 4 => some right
  | 5 => some startPause
  | 6 => some restart
  | 7 => some download
  | 8 => some capture
  | 9 => some load
  | _ => none

def code : Command → UInt16
  | up => 1
  | down => 2
  | left => 3
  | right => 4
  | startPause => 5
  | restart => 6
  | download => 7
  | capture => 8
  | load => 9

def direction? : Command → Option Direction
  | up => some .up
  | down => some .down
  | left => some .left
  | right => some .right
  | _ => none

def host? : Command → Option HostCommand
  | download => some .download
  | capture => some .capture
  | load => some .load
  | _ => none

def name : Command → String
  | up => "Up"
  | down => "Down"
  | left => "Left"
  | right => "Right"
  | startPause => "StartPause"
  | restart => "Restart"
  | download => "Download"
  | capture => "Capture"
  | load => "Load"

/-- Every command is found by its own code. -/
@[simp] theorem ofCode?_code (command : Command) : ofCode? command.code = some command := by
  cases command <;> rfl

/-- No two codes stand for one command. -/
theorem code_of_ofCode? {code : UInt16} {command : Command} (h : ofCode? code = some command) :
    command.code = code := by
  unfold ofCode? at h
  split at h
  case h_10 => cases h
  all_goals
    next hCode =>
      cases h
      exact UInt16.toNat_inj.mp hCode.symm

end Command

def HostCommand.name : HostCommand → String
  | download => "Download"
  | capture => "Capture"
  | load => "Load"

end ImageCartridge
