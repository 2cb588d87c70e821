import ImageCartridge.Snake.Frame

/-! The machine that runs a cartridge: two instructions, a bounded number of
cycles a run, and the game as its only memory. -/
namespace ImageCartridge.Machine

open Snake

inductive Syscall where
  | init
  | tick
  deriving DecidableEq, Repr

def Syscall.ofId? (id : UInt8) : Option Syscall :=
  if id = 1 then some init else if id = 2 then some tick else none

def Syscall.name : Syscall → String
  | init => "Init"
  | tick => "Tick"

def opHalt : UInt8 := 0x01

/-- The instruction that calls a service. The number of the service follows. -/
def opSyscall : UInt8 := 0x40

/-- Why a machine stopped for good, and where. -/
inductive Fault where
  | invalidOpcode (pc : Nat) (opcode : UInt8)
  | unknownSyscall (pc : Nat) (id : UInt8)
  | pcOutOfBounds (pc : Nat)
  deriving DecidableEq, Repr

/-- How a run ended. A machine that faulted earlier gives its fault again. -/
inductive RunResult where
  | halted
  | budgetExhausted
  | faulted (fault : Fault)
  deriving DecidableEq, Repr

def RunResult.fault? : RunResult → Option Fault
  | faulted fault => some fault
  | _ => none

/-- Inputs the host writes and the services read. -/
structure Registers where
  cmd : UInt16 := 0
  tick : UInt32 := 0
  modeBits : UInt8 := 0
  deriving DecidableEq, Repr

/-- The cycles a run may use unless a machine is given another ceiling. -/
def defaultMaxBudget : Nat := 100000

/-- The program that plays the game: a prologue that starts it, and a frame body
that lets one tick pass. -/
def snakeProgram : Bytes := [0x40, 0x01, 0x01, 0x40, 0x02, 0x01]

/-- Where the frame body of `snakeProgram` begins. -/
def snakeEntry : UInt32 := 3

end ImageCartridge.Machine

namespace ImageCartridge

open Machine Snake

/-- A machine between two runs. The bytes before the entry point of its header
form a prologue; every frame starts at the entry point. -/
structure Machine where
  header : Header
  program : Bytes
  pc : Nat
  cycles : Nat
  halted : Bool
  fault : Option Fault
  maxBudget : Nat
  registers : Registers
  game : Option Game
  deriving DecidableEq

namespace Machine

def new (header : Header) (program : Bytes) (maxBudget : Nat) : Machine where
  header := header
  program := program
  pc := header.entryPoint.toNat
  cycles := 0
  halted := false
  fault := none
  maxBudget := maxBudget
  registers := {}
  game := none

def entryPoint (m : Machine) : Nat :=
  m.header.entryPoint.toNat

end Machine

end ImageCartridge
