import ImageCartridge.Proofs.Cartridge.File
import ImageCartridge.Proofs.Machine.Calls
import ImageCartridge.Proofs.Player.Calls
import ImageCartridge.Proofs.Snake.Course

/-! Playing the cartridge with the canonical program. The machine between player and
game adds nothing to the game: every step is one tick of it, with the command that
was queued last, and every tick is applied and shown. -/
namespace ImageCartridge

open Snake

namespace Machine

/-- A run over one call with a halt behind it serves the call on any budget at all. -/
theorem runFrom_of_call {m : Machine} {start stop budget : Nat} {call : Syscall}
    (hCalls : calls (m.program.drop start) = [call])
    (hStop : StopsAt m.program (start + 2) .halted stop) (hBudget : 0 < min budget m.maxBudget)
    (observer : Observer) :
    (m.runFrom start budget observer).machine.fault = none ∧
      (m.runFrom start budget observer).machine.game =
        (Stage.dispatch m.header m.registers call ⟨m.game, observer⟩).game ∧
      (m.runFrom start budget observer).observer =
        (Stage.dispatch m.header m.registers call ⟨m.game, observer⟩).observer := by
  rcases Nat.lt_or_ge (calls (m.program.drop start)).length (min budget m.maxBudget)
    with hLess | hMore
  · have hBehind : StopsAt m.program (start + 2 * (calls (m.program.drop start)).length)
        .halted stop := by
      rw [hCalls]
      exact hStop
    rw [runFrom_of_lt hLess hBehind, hCalls]
    exact ⟨rfl, rfl, rfl⟩
  · have hOne : min budget m.maxBudget = 1 := by
      rw [hCalls, List.length_singleton] at hMore
      omega
    rw [runFrom_of_le hMore, hCalls, hOne]
    exact ⟨rfl, rfl, rfl⟩

end Machine

namespace Player

/-- What makes a cartridge the canonical one, on limits under which it runs. -/
structure Canonical (c : Cartridge) (limits : Limits) : Prop where
  bytecode_eq : c.bytecode = Machine.snakeProgram
  entryPoint_eq : c.header.entryPoint = Machine.snakeEntry
  cyclesPerFrame_pos : 0 < limits.cyclesPerFrame
  cyclesPerFrame_le : limits.cyclesPerFrame ≤ limits.maxCycleBudget

/-- The machine of a cartridge while it holds a game. -/
structure Live (c : Cartridge) (limits : Limits) (g : Game) (m : Machine) : Prop where
  header_eq : m.header = c.header
  program_eq : m.program = c.bytecode
  maxBudget_eq : m.maxBudget = limits.maxCycleBudget
  fault_eq : m.fault = none
  game_eq : m.game = some g

/-- A player amid a game: so many steps ago it was opened, and these codes have been
queued since the last of them. -/
structure Playing (c : Cartridge) (limits : Limits) (view : View) (since : List UInt16) (n : Nat)
    (g : Game) (p : Player) : Prop where
  limits_eq : p.limits = limits
  view_eq : p.view = view
  queued_eq : p.queued.map Command.code = since.getLast?
  tick_eq : p.tick = .ofNat n
  lastTick_eq : g.lastTick = p.tick
  machine : ∃ m, p.mode = .interactive c m ∧ Live c limits g m

section Canonical

variable {c : Cartridge} {limits : Limits} (hCanonical : Canonical c limits)
include hCanonical

/-- A frame of a canonical cartridge has at least one cycle to spend. -/
theorem Canonical.budget_pos : 0 < min limits.cyclesPerFrame limits.maxCycleBudget :=
  Nat.lt_min.mpr ⟨hCanonical.cyclesPerFrame_pos,
    Nat.lt_of_lt_of_le hCanonical.cyclesPerFrame_pos hCanonical.cyclesPerFrame_le⟩

theorem Canonical.entryPoint_of_header_eq {m : Machine} (hHeader : m.header = c.header) :
    m.entryPoint = 3 := by
  rw [Machine.entryPoint, hHeader, hCanonical.entryPoint_eq]
  rfl

/-- The prologue starts the game. -/
theorem Canonical.boot_new (observer : Observer) :
    Live c limits (.new c.header) ((Machine.new c.header c.bytecode limits.maxCycleBudget).boot
        limits.cyclesPerFrame observer).machine ∧
      ((Machine.new c.header c.bytecode limits.maxCycleBudget).boot
        limits.cyclesPerFrame observer).observer = observer.publish (.new c.header) := by
  have hEntry : 0 < (Machine.new c.header c.bytecode limits.maxCycleBudget).entryPoint := by
    rw [hCanonical.entryPoint_of_header_eq rfl]
    decide
  have hCalls : Machine.calls (c.bytecode.drop 0) = [.init] := by
    rw [hCanonical.bytecode_eq]
    rfl
  have hStop : Machine.StopsAt c.bytecode (0 + 2) .halted 3 := by
    rw [hCanonical.bytecode_eq]
    exact .halt rfl
  obtain ⟨hFault, hGame, hFrames⟩ := Machine.runFrom_of_call
    (m := .new c.header c.bytecode limits.maxCycleBudget) hCalls hStop hCanonical.budget_pos observer
  rw [Machine.boot_eq_runFrom rfl hEntry]
  exact ⟨⟨rfl, rfl, rfl, hFault, hGame⟩, hFrames⟩

/-- A frame is one tick of the game. -/
theorem Live.runFrame {g g' : Game} {m : Machine} (h : Live c limits g m)
    (hTick : g.tick m.registers.cmd m.registers.tick = some g') (observer : Observer) :
    Live c limits g' (m.runFrame limits.cyclesPerFrame observer).machine ∧
      (m.runFrame limits.cyclesPerFrame observer).observer = observer.publish g' := by
  have hCalls : Machine.calls (m.program.drop 3) = [.tick] := by
    rw [h.program_eq, hCanonical.bytecode_eq]
    rfl
  have hStop : Machine.StopsAt m.program (3 + 2) .halted 6 := by
    rw [h.program_eq, hCanonical.bytecode_eq]
    exact .halt rfl
  have hBudget : 0 < min limits.cyclesPerFrame m.maxBudget := by
    rw [h.maxBudget_eq]
    exact hCanonical.budget_pos
  have hServed : Machine.Stage.dispatch m.header m.registers .tick ⟨m.game, observer⟩ =
      ⟨some g', observer.publish g'⟩ := by
    simp only [Machine.Stage.dispatch, h.game_eq, hTick]
    rfl
  obtain ⟨hFault, hGame, hFrames⟩ := Machine.runFrom_of_call hCalls hStop hBudget observer
  rw [hServed] at hGame hFrames
  rw [Machine.runFrame_eq_runFrom h.fault_eq, hCanonical.entryPoint_of_header_eq h.header_eq]
  exact ⟨⟨h.header_eq, h.program_eq, h.maxBudget_eq, hFault, hGame⟩, hFrames⟩

/-- Opening a canonical file starts the game, and one frame has been shown. -/
theorem Canonical.exists_openFile {jpeg : Bytes}
    (hLoad : Cartridge.readFrom jpeg limits.maxCartridgeBytes = .ok c) (observer : Observer) :
    ∃ p, openFile jpeg limits observer = (p, observer.publish (.new c.header)) ∧
      Playing c limits .identity [] 0 (.new c.header) p := by
  obtain ⟨hLive, hFrames⟩ := hCanonical.boot_new observer
  refine ⟨⟨limits, .interactive c _, .identity, 0, none⟩, ?_, rfl, rfl, rfl, rfl,
    Game.lastTick_new c.header, _, rfl, hLive⟩
  simp only [openFile, hLoad, hFrames]

/-- A step is one tick of the game, which is never a replay: its number is one more
than that of the tick before, also where the count wraps. -/
theorem Playing.act_step {view : View} {since : List UInt16} {n : Nat} {g : Game} {p : Player}
    (h : Playing c limits view since n g p) (observer : Observer) :
    ∃ g' p', g.tick (since.getLast?.getD 0) (.ofNat (n + 1)) = some g' ∧
      act (p, observer) .step = (p', observer.publish g') ∧
      Playing c limits view [] (n + 1) g' p' := by
  obtain ⟨m, hMode, hLive⟩ := h.machine
  have hNumber : p.tick + 1 = .ofNat (n + 1) := by
    rw [h.tick_eq, UInt32.ofNat_add]
    rfl
  have hFresh : UInt32.ofNat (n + 1) ≠ g.lastTick := by
    rw [h.lastTick_eq, ← hNumber]
    simp
  obtain ⟨g', hTick⟩ := Game.exists_tick hFresh (since.getLast?.getD 0)
  have hArmed : Live c limits g { m with registers := { m.registers with
      cmd := since.getLast?.getD 0, tick := .ofNat (n + 1) } } := { hLive with }
  obtain ⟨hNext, hFrames⟩ := hArmed.runFrame hCanonical hTick observer
  refine ⟨g', ⟨limits, .interactive c _, view, .ofNat (n + 1), none⟩, hTick, ?_, rfl, rfl, rfl,
    rfl, Game.lastTick_of_tick hTick, _, rfl, hNext⟩
  simp only [act, step, hMode, h.limits_eq, h.view_eq, h.queued_eq, hNumber, hFrames]

omit hCanonical in
/-- Calls between two steps only queue and turn to another view. -/
theorem Playing.act_of_not_step {view : View} {since : List UInt16} {n : Nat} {g : Game}
    {p : Player} (h : Playing c limits view since n g p) (observer : Observer) {call : Call}
    (hCall : call.isStep = false) :
    ∃ p', act (p, observer) call = (p', observer) ∧
      Playing c limits (call.view view) (since ++ (call.queues? c.truthTable view).toList) n g p' := by
  obtain ⟨m, hMode, hLive⟩ := h.machine
  obtain ⟨queued, hAct, hQueued⟩ := Player.act_of_not_step hMode observer hCall
  rw [h.view_eq] at hAct hQueued
  refine ⟨_, hAct, h.limits_eq, rfl, ?_, h.tick_eq, h.lastTick_eq, m, hMode, hLive⟩
  rw [hQueued, getLast?_append_toList, h.queued_eq]

/-- Whatever is called, the game takes the course of the commands. -/
theorem Playing.foldl_act {view : View} {since : List UInt16} {n : Nat} {g : Game} {p : Player}
    (h : Playing c limits view since n g p) (observer : Observer) (calls : List Call) :
    ∃ games last p' view' since',
      g.course? (n + 1) (commands c.truthTable view since calls) = some games ∧
      (g :: games).getLast? = some last ∧
      calls.foldl act (p, observer) = (p', games.foldl Observer.publish observer) ∧
      Playing c limits view' since' (n + calls.countP Call.isStep) last p' := by
  induction calls generalizing view since n g p observer with
  | nil => exact ⟨[], g, p, view, since, rfl, rfl, rfl, h⟩
  | cons call calls ih =>
      rcases call.eq_step_or with rfl | hCall
      · obtain ⟨g', p', hTick, hAct, hNext⟩ := h.act_step hCanonical observer
        obtain ⟨games, last, p'', view', since', hCourse, hLast, hFold, hEnd⟩ :=
          ih hNext (observer.publish g')
        refine ⟨g' :: games, last, p'', view', since', Game.course?_cons hTick hCourse, ?_, ?_, ?_⟩
        · rw [List.getLast?_cons_cons]
          exact hLast
        · rw [List.foldl_cons, hAct]
          exact hFold
        · rw [List.countP_cons_of_pos rfl, Nat.add_comm _ 1, ← Nat.add_assoc]
          exact hEnd
      · obtain ⟨p', hAct, hNext⟩ := h.act_of_not_step observer hCall
        rw [commands_cons hCall, List.foldl_cons, hAct, List.countP_cons_of_neg (by simp [hCall])]
        exact ih hNext observer

end Canonical

/-- Games that are shown one after the other are recorded in that order. -/
theorem frames_foldl_publish (shown : Array Snapshot) (games : List Game) :
    (games.foldl Observer.publish (.record shown)).frames =
      shown ++ (games.map Snapshot.of).toArray := by
  induction games generalizing shown with
  | nil => simp [Observer.frames]
  | cons g games ih =>
      rw [List.foldl_cons, Observer.publish, ih]
      simp

/-- The player of the canonical cartridge plays the game and nothing else. Behind any
calls, as many ticks have passed as there were steps. The game is the one the
commands lead to, each of its ticks was applied, and so every one is shown. -/
theorem foldl_act_openFile {jpeg : Bytes} {limits : Limits} {c : Cartridge}
    (hLoad : Cartridge.readFrom jpeg limits.maxCartridgeBytes = .ok c)
    (hCanonical : Canonical c limits) (observer : Observer) (calls : List Call) :
    ∃ games p m,
      (Game.new c.header).course? 1 (commands c.truthTable .identity [] calls) = some games ∧
      games.length = calls.countP Call.isStep ∧
      calls.foldl act (openFile jpeg limits observer) =
        (p, (Game.new c.header :: games).foldl Observer.publish observer) ∧
      p.tick = .ofNat (calls.countP Call.isStep) ∧
      p.machine? = some m ∧ m.fault = none ∧ m.game = (Game.new c.header :: games).getLast? ∧
      ∀ shown, observer = .record shown →
        (calls.foldl act (openFile jpeg limits observer)).2.frames.size =
          shown.size + (1 + calls.countP Call.isStep) := by
  obtain ⟨p, hOpen, hStart⟩ := hCanonical.exists_openFile hLoad observer
  obtain ⟨games, last, p', _, _, hCourse, hLast, hFold, hEnd⟩ :=
    hStart.foldl_act hCanonical (observer.publish (.new c.header)) calls
  obtain ⟨m, hMode, hLive⟩ := hEnd.machine
  have hLength : games.length = calls.countP Call.isStep := by
    rw [Game.length_of_course? hCourse, length_commands]
  have hTick : p'.tick = .ofNat (calls.countP Call.isStep) := by
    rw [hEnd.tick_eq, Nat.zero_add]
  have hAll : calls.foldl act (openFile jpeg limits observer) =
      (p', (Game.new c.header :: games).foldl Observer.publish observer) := by
    rw [hOpen, hFold, List.foldl_cons]
  refine ⟨games, p', m, hCourse, hLength, hAll, hTick, ?_, hLive.fault_eq, ?_, ?_⟩
  · rw [machine?, hMode]
  · rw [hLive.game_eq, hLast]
  · rintro shown rfl
    rw [hAll, frames_foldl_publish]
    simp [hLength, Nat.add_comm 1]

theorem foldl_act_openFile_plainFile :
    Cartridge.readFrom (Cartridge.plainFile Machine.snakeProgram) Cartridge.defaultCeiling =
        .ok { header := Cartridge.plainHeader, bytecode := Machine.snakeProgram } ∧
      Canonical { header := Cartridge.plainHeader, bytecode := Machine.snakeProgram } {} ∧
      ([Call.press 3, .step, .step].foldl act
        (openFile (Cartridge.plainFile Machine.snakeProgram) {} .recording)).2.frames.size = 3 := by
  have hLoad := Cartridge.readFrom_plainFile
    (show Machine.snakeProgram.length ≤ 65522 by decide)
    (show 52 + Machine.snakeProgram.length ≤ Cartridge.defaultCeiling by decide)
  have hCanonical : Canonical
      { header := Cartridge.plainHeader, bytecode := Machine.snakeProgram } {} :=
    ⟨rfl, rfl, by decide, by decide⟩
  obtain ⟨_, _, _, _, _, _, _, _, _, _, hFrames⟩ :=
    foldl_act_openFile hLoad hCanonical .recording [.press 3, .step, .step]
  exact ⟨hLoad, hCanonical, hFrames #[] rfl⟩

end Player

end ImageCartridge
