import ImageCartridge.Proofs.Machine.Calls
import ImageCartridge.Proofs.Machine.Reachable
import ImageCartridge.Proofs.Snake.Course

/-! The frames an observer sees of a machine. Each start of a game and each tick that is
applied shows one, and nothing else does. -/
namespace ImageCartridge.Machine

open Snake

/-- A service that was dispatched, with the registers and the game it met. -/
structure Dispatch where
  call : Syscall
  registers : Registers
  game : Option Game

namespace Dispatch

/-- A game is started, be it a new one or the live one again. -/
def IsStart (d : Dispatch) : Prop :=
  d.call = .init

/-- A live game is given a tick with another number than the one before. -/
def IsFreshTick (d : Dispatch) : Prop :=
  d.call = .tick ∧ ∃ g, d.game = some g ∧ d.registers.tick ≠ g.lastTick

instance (d : Dispatch) : Decidable d.IsStart :=
  inferInstanceAs (Decidable (d.call = .init))

instance (d : Dispatch) : Decidable d.IsFreshTick :=
  match hGame : d.game with
  | none => .isFalse (by simp [IsFreshTick, hGame])
  | some g => decidable_of_iff (d.call = .tick ∧ d.registers.tick ≠ g.lastTick)
      (by simp [IsFreshTick, hGame])

variable {call : Syscall} {registers : Registers} {game : Option Game} {g : Game}

@[simp] theorem isStart_mk : IsStart ⟨call, registers, game⟩ ↔ call = .init := Iff.rfl

@[simp] theorem not_isFreshTick_init : ¬ IsFreshTick ⟨.init, registers, game⟩ := by
  simp [IsFreshTick]

@[simp] theorem not_isFreshTick_none : ¬ IsFreshTick ⟨call, registers, none⟩ := by
  simp [IsFreshTick]

@[simp] theorem isFreshTick_tick_some :
    IsFreshTick ⟨.tick, registers, some g⟩ ↔ registers.tick ≠ g.lastTick := by
  simp [IsFreshTick]

def frameCount (log : List Dispatch) : Nat :=
  log.countP (fun d => d.IsStart) + log.countP (fun d => d.IsFreshTick)

/-- Frames are counted dispatch by dispatch, so the counts of two stretches add up. -/
theorem frameCount_append (log later : List Dispatch) :
    frameCount (log ++ later) = frameCount log + frameCount later := by
  simp only [frameCount, List.countP_append]
  omega

end Dispatch

namespace Stage

/-- The stage shows its game: the last frame of its recording observer is of the game. -/
def Shown (stage : Stage) : Prop :=
  ∃ frames, stage.observer = .record frames ∧ frames.back? = stage.game.map Snapshot.of

/-- The dispatches of services that are carried out one after the other. -/
def dispatches (header : Header) (registers : Registers) (stage : Stage) :
    List Syscall → List Dispatch
  | [] => []
  | call :: later => ⟨call, registers, stage.game⟩ ::
      (stage.dispatch header registers call).dispatches header registers later

def replay (header : Header) (stage : Stage) (log : List Dispatch) : Stage :=
  log.foldl (fun stage d => stage.dispatch header d.registers d.call) stage

variable {header : Header} {registers : Registers} {stage : Stage}

/-- To show a game adds its frame as the last one. -/
theorem Shown.present (h : stage.Shown) (g : Game) : (stage.present g).Shown ∧
    (stage.present g).observer.frames.size = stage.observer.frames.size + 1 := by
  obtain ⟨frames, hRecord, -⟩ := h
  simp [Shown, Stage.present, Observer.publish, Observer.frames, hRecord]

/-- A dispatch shows a frame if it starts the game or gives it a fresh tick. -/
theorem Shown.dispatch (h : stage.Shown) (call : Syscall) :
    (stage.dispatch header registers call).Shown ∧
      (stage.dispatch header registers call).observer.frames.size =
        stage.observer.frames.size + Dispatch.frameCount [⟨call, registers, stage.game⟩] := by
  cases call with
  | init =>
      cases hGame : stage.game <;>
        simpa [Stage.dispatch, Dispatch.frameCount, hGame] using h.present _
  | tick =>
      cases hGame : stage.game with
      | none => simpa [Stage.dispatch, Dispatch.frameCount, hGame] using h
      | some g =>
          -- The game skips a tick exactly if its number is that of the one before.
          by_cases hOld : registers.tick = g.lastTick
          · have hSkip : g.tick registers.cmd g.lastTick = none := if_pos rfl
            simpa [Stage.dispatch, Dispatch.frameCount, hGame, hOld, hSkip] using h
          · obtain ⟨g', hTick⟩ := Game.exists_tick hOld registers.cmd
            simpa [Stage.dispatch, Dispatch.frameCount, hGame, hOld, hTick] using h.present g'

/-- Services show as many frames as their dispatches account for, and the last one is of the game
that is there. -/
theorem Shown.serve (h : stage.Shown) (found : List Syscall) :
    (stage.serve header registers found).Shown ∧
      (stage.serve header registers found).observer.frames.size =
        stage.observer.frames.size +
          Dispatch.frameCount (stage.dispatches header registers found) := by
  induction found generalizing stage with
  | nil => exact ⟨h, rfl⟩
  | cons call found ih =>
      have hStep : (stage.dispatch header registers call).Shown ∧ _ := h.dispatch call
      obtain ⟨hNow, hSize⟩ := hStep
      obtain ⟨hEnd, hLater⟩ := ih hNow
      refine ⟨hEnd, hLater.trans ?_⟩
      rw [hSize, Nat.add_assoc, ← Dispatch.frameCount_append, List.singleton_append, dispatches]

theorem replay_append (log later : List Dispatch) :
    stage.replay header (log ++ later) = (stage.replay header log).replay header later :=
  List.foldl_append

/-- The dispatches tell all that happened to the stage. -/
theorem replay_dispatches (found : List Syscall) :
    stage.replay header (stage.dispatches header registers found) =
      stage.serve header registers found := by
  induction found generalizing stage with
  | nil => rfl
  | cons call found ih => exact ih

end Stage

/-- The services that a run dispatches: those the program calls, as far as the budget goes. -/
def served (m : Machine) (start budget : Nat) : List Syscall :=
  (calls (m.program.drop start)).take (min budget m.maxBudget)

/-- A run does to game and observer what the services do that it dispatches. -/
theorem stage_runFrom (m : Machine) (start budget : Nat) (observer : Observer) :
    Stage.mk (m.runFrom start budget observer).machine.game
        (m.runFrom start budget observer).observer =
      Stage.serve m.header m.registers ⟨m.game, observer⟩ (m.served start budget) := by
  rcases Nat.lt_or_ge (calls (m.program.drop start)).length (min budget m.maxBudget)
    with hLess | hMore
  · obtain ⟨result, stop, hStop⟩ := exists_stopsAt m.program start
    rw [runFrom_of_lt hLess hStop, served, List.take_of_length_le hLess.le]
  · rw [runFrom_of_le hMore, served]

/-- What the host of a machine does: write to its registers, or let it run. -/
inductive HostCall where
  | write (registers : Registers)
  | boot (budget : Nat)
  | runFrame (budget : Nat)

namespace HostCall

/-- The services a call has dispatched. Nothing runs after a fault, and nothing is booted
without a prologue. -/
def served (m : Machine) : HostCall → List Syscall
  | write _ => []
  | boot budget => if m.fault = none ∧ 0 < m.entryPoint then m.served 0 budget else []
  | runFrame budget => if m.fault = none then m.served m.entryPoint budget else []

def act (m : Machine) (observer : Observer) : HostCall → Machine × Observer
  | write registers => ({ m with registers }, observer)
  | boot budget => ((m.boot budget observer).machine, (m.boot budget observer).observer)
  | runFrame budget =>
      ((m.runFrame budget observer).machine, (m.runFrame budget observer).observer)

/-- All that a call of the host does to the stage is to have services carried out. -/
theorem stage_act (m : Machine) (observer : Observer) (call : HostCall) :
    Stage.mk (call.act m observer).1.game (call.act m observer).2 =
      Stage.serve m.header m.registers ⟨m.game, observer⟩ (call.served m) := by
  cases call with
  | write registers => rfl
  | boot budget =>
      cases hFault : m.fault with
      | some fault => simp [act, served, Machine.boot, hFault, Stage.serve]
      | none =>
          rcases Nat.eq_zero_or_pos m.entryPoint with hNone | hEntry
          · simp [act, served, Machine.boot, hFault, hNone, Stage.serve]
          · simp [act, served, boot_eq_runFrom hFault hEntry, hFault, hEntry, stage_runFrom]
  | runFrame budget =>
      cases hFault : m.fault with
      | some fault => simp [act, served, Machine.runFrame, hFault, Stage.serve]
      | none => simp [act, served, runFrame_eq_runFrom hFault, hFault, stage_runFrom]

theorem header_act (m : Machine) (observer : Observer) (call : HostCall) :
    (call.act m observer).1.header = m.header := by
  cases call with
  | write registers => rfl
  | boot budget => exact m.header_boot budget observer
  | runFrame budget => exact m.header_runFrame budget observer

end HostCall

/-- A machine with the observer that is given to all its runs, and with all that they
have dispatched. -/
structure Watched where
  machine : Machine
  observer : Observer
  log : List Dispatch

namespace Watched

/-- A machine that has not run yet, before an observer that has seen nothing. -/
def new (header : Header) (program : Bytes) (maxBudget : Nat) : Watched :=
  ⟨.new header program maxBudget, .recording, []⟩

def stage (w : Watched) : Stage :=
  ⟨w.machine.game, w.observer⟩

def drive (w : Watched) (call : HostCall) : Watched where
  machine := (call.act w.machine w.observer).1
  observer := (call.act w.machine w.observer).2
  log := w.log ++ w.stage.dispatches w.machine.header w.machine.registers (call.served w.machine)

/-- The frames are those that the dispatches had to show. -/
structure Accounted (header : Header) (w : Watched) : Prop where
  header_eq : w.machine.header = header
  shown : w.stage.Shown
  size_eq : w.observer.frames.size = Dispatch.frameCount w.log
  replay_eq : Stage.replay header ⟨none, .recording⟩ w.log = w.stage

variable {header : Header} {w : Watched}

theorem accounted_new (header : Header) (program : Bytes) (maxBudget : Nat) :
    Accounted header (.new header program maxBudget) :=
  ⟨rfl, ⟨#[], rfl, rfl⟩, rfl, rfl⟩

/-- Every call of the host keeps the books, whether it ran anything or not. -/
theorem Accounted.drive (h : w.Accounted header) (call : HostCall) :
    (w.drive call).Accounted header := by
  obtain ⟨rfl, hShown, hSize, hReplay⟩ := h
  have hNext : (w.drive call).stage =
      w.stage.serve w.machine.header w.machine.registers (call.served w.machine) :=
    call.stage_act w.machine w.observer
  have hServed : (w.drive call).stage.Shown ∧ (w.drive call).stage.observer.frames.size = _ :=
    hNext ▸ hShown.serve (call.served w.machine)
  refine ⟨call.header_act w.machine w.observer, hServed.1, hServed.2.trans ?_, ?_⟩
  · rw [Watched.drive, Dispatch.frameCount_append, ← hSize]
    rfl
  · rw [hNext, Watched.drive, Stage.replay_append, hReplay, Stage.replay_dispatches]

theorem Accounted.foldl_drive (h : w.Accounted header) (hostCalls : List HostCall) :
    (hostCalls.foldl Watched.drive w).Accounted header := by
  induction hostCalls generalizing w with
  | nil => exact h
  | cons call hostCalls ih => exact ih (h.drive call)

end Watched

/-- The observer misses no frame and is shown none too many. It has seen nothing until there
is a game, and its last frame always shows the game as it is, field by field. Every frame is
that of one dispatch, and the dispatches are all that happened to the game. -/
theorem frames_foldl_drive (header : Header) (program : Bytes) (maxBudget : Nat)
    (hostCalls : List HostCall) :
    let w := hostCalls.foldl Watched.drive (.new header program maxBudget)
    (w.observer.frames = #[] ↔ w.machine.game = none) ∧
      (∀ g, w.machine.game = some g → w.observer.frames.back? = some {
        snake := g.snake
        apple := g.apple
        score := g.score
        highScore := g.highScore
        paused := g.paused
        gameOver := g.gameOver }) ∧
      w.observer.frames.size =
        w.log.countP (fun d => d.IsStart) + w.log.countP (fun d => d.IsFreshTick) ∧
      Stage.replay header ⟨none, .recording⟩ w.log = ⟨w.machine.game, w.observer⟩ := by
  intro w
  obtain ⟨-, ⟨frames, hRecord, hLast⟩, hSize, hReplay⟩ :=
    (Watched.accounted_new header program maxBudget).foldl_drive hostCalls
  change w.observer = _ at hRecord
  change _ = w.machine.game.map Snapshot.of at hLast
  refine ⟨?_, ?_, hSize, hReplay⟩
  · rw [hRecord, Observer.frames, ← Array.back?_eq_none_iff, hLast, Option.map_eq_none_iff]
  · intro g hGame
    rw [hRecord, Observer.frames, hLast, hGame, Option.map_some]
    rfl

/-- A tick with the number of the one before shows nothing. -/
theorem frames_foldl_drive_snakeProgram :
    let w := [HostCall.boot 8, .write { tick := 1 }, .runFrame 8, .runFrame 8].foldl Watched.drive
      (.new { entryPoint := 3 } snakeProgram defaultMaxBudget)
    w.log.length = 3 ∧ w.observer.frames.size = 2 := by
  obtain ⟨-, -, hSize, -⟩ := frames_foldl_drive { entryPoint := 3 } snakeProgram defaultMaxBudget
    [.boot 8, .write { tick := 1 }, .runFrame 8, .runFrame 8]
  exact ⟨rfl, hSize.trans rfl⟩

end ImageCartridge.Machine
