import ImageCartridge.Machine.Basic

/-! Running a machine. A run reads the program from its start forward, never
backward, so the code that is left is all it needs to look at. -/
namespace ImageCartridge.Machine

open Snake

/-- What the services act on: the game, and the observer that sees its frames. -/
structure Stage where
  game : Option Game
  observer : Observer

namespace Stage

def present (stage : Stage) (g : Game) : Stage :=
  { game := some g, observer := stage.observer.publish g }

/-- Carry out a service. `init` starts a game, or starts the live one again.
`tick` does nothing before the first `init`, and shows no frame for a tick that
was already applied. -/
def dispatch (header : Header) (registers : Registers) (call : Syscall) (stage : Stage) : Stage :=
  match call, stage.game with
  | .init, none => stage.present (.new header)
  | .init, some g => stage.present g.reset
  | .tick, none => stage
  | .tick, some g =>
      match g.tick registers.cmd registers.tick with
      | some g => stage.present g
      | none => stage

end Stage

/-- What a run leaves behind. -/
structure Trail where
  pc : Nat
  cycles : Nat
  result : RunResult
  stage : Stage

/-- Run the code that begins at `pc` for at most `budget` cycles. Every
instruction takes one, also the one that stops the run. -/
def execute (header : Header) (registers : Registers) (budget cycles pc : Nat) (code : Bytes)
    (stage : Stage) : Trail :=
  match budget with
  | 0 => ⟨pc, cycles, .budgetExhausted, stage⟩
  | budget + 1 =>
      match code with
      | [] => ⟨pc, cycles + 1, .faulted (.pcOutOfBounds pc), stage⟩
      | opcode :: rest =>
          if opcode = opHalt then ⟨pc + 1, cycles + 1, .halted, stage⟩
          else if opcode = opSyscall then
            match rest with
            | [] => ⟨pc + 1, cycles + 1, .faulted (.pcOutOfBounds (pc + 1)), stage⟩
            | id :: rest =>
                match Syscall.ofId? id with
                | none => ⟨pc + 2, cycles + 1, .faulted (.unknownSyscall pc id), stage⟩
                | some call =>
                    execute header registers budget (cycles + 1) (pc + 2) rest
                      (stage.dispatch header registers call)
          else ⟨pc + 1, cycles + 1, .faulted (.invalidOpcode pc opcode), stage⟩

/-- A machine after a run, what its observer has seen, and how the run ended. -/
structure Run where
  machine : Machine
  observer : Observer
  result : RunResult

/-- Run from an offset. The budget is clamped to the ceiling of the machine. -/
def runFrom (m : Machine) (start budget : Nat) (observer : Observer) : Run :=
  let trail := execute m.header m.registers (min budget m.maxBudget) 0 start
    (m.program.drop start) ⟨m.game, observer⟩
  { machine := { m with
      pc := trail.pc
      cycles := trail.cycles
      halted := trail.result ≠ .budgetExhausted
      fault := trail.result.fault?
      game := trail.stage.game }
    observer := trail.stage.observer
    result := trail.result }

/-- Run the prologue. Without one there is nothing to do, and a machine that has
faulted does not run again. -/
def boot (m : Machine) (budget : Nat) (observer : Observer) : Run :=
  match m.fault with
  | some fault => ⟨m, observer, .faulted fault⟩
  | none => if m.entryPoint = 0 then ⟨m, observer, .halted⟩ else m.runFrom 0 budget observer

/-- Run one frame from the entry point, unless the machine has faulted. -/
def runFrame (m : Machine) (budget : Nat) (observer : Observer) : Run :=
  match m.fault with
  | some fault => ⟨m, observer, .faulted fault⟩
  | none => m.runFrom m.entryPoint budget observer

end ImageCartridge.Machine
