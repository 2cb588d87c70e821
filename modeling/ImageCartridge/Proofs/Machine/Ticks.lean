import ImageCartridge.Proofs.Machine.Frames

/-! How often a tick counts. However many ticks a run asks for, they all bear the number in
one register, so the game takes one step at most, and no later run repeats it under that
number. A program can only get round this by starting the game again. -/
namespace ImageCartridge.Machine

open Snake

namespace Stage

/-- The game of a stage, if there is one, has applied the tick with a number. -/
def Ticked (number : UInt32) (stage : Stage) : Prop :=
  ∀ g, stage.game = some g → g.lastTick = number

variable {header : Header} {registers : Registers} {stage : Stage}

/-- A tick that is served is skipped, or takes the game one step and shows it. -/
theorem dispatch_tick_cases (header : Header) (registers : Registers) (stage : Stage) :
    stage.dispatch header registers .tick = stage ∨
      ∃ g g', stage.game = some g ∧ g.tick registers.cmd registers.tick = some g' ∧
        stage.dispatch header registers .tick = stage.present g' := by
  cases hGame : stage.game with
  | none => exact Or.inl (by simp [dispatch, hGame])
  | some g =>
      cases hTick : g.tick registers.cmd registers.tick with
      | none => exact Or.inl (by simp [dispatch, hGame, hTick])
      | some g' => exact Or.inr ⟨g, g', rfl, hTick, by simp [dispatch, hGame, hTick]⟩

/-- Once a tick is carried out, its number is that of the game. This is what makes a second one
void. -/
theorem ticked_dispatch_tick (header : Header) (registers : Registers) (stage : Stage) :
    (stage.dispatch header registers .tick).Ticked registers.tick := by
  cases hGame : stage.game with
  | none => simp [Ticked, dispatch, hGame]
  | some g =>
      cases hTick : g.tick registers.cmd registers.tick with
      | none =>
          have hOld := (Game.tick_eq_none_iff.mp hTick).symm
          simp [Ticked, dispatch, hGame, hTick, hOld]
      | some g' =>
          have hNew := Game.lastTick_of_tick hTick
          simp [Ticked, dispatch, present, hGame, hTick, hNew]

/-- The command makes no difference to a tick that was applied before. -/
theorem Ticked.dispatch_tick (h : stage.Ticked registers.tick) :
    stage.dispatch header registers .tick = stage := by
  rcases dispatch_tick_cases header registers stage with hSkip | ⟨g, g', hGame, hTick, -⟩
  · exact hSkip
  · rw [Game.tick_eq_none_iff.mpr (h g hGame).symm] at hTick
    cases hTick

/-- Services other than a start leave a stage alone that has applied the tick in the register. -/
theorem Ticked.serve (h : stage.Ticked registers.tick) {found : List Syscall}
    (hInit : .init ∉ found) : stage.serve header registers found = stage := by
  induction found with
  | nil => rfl
  | cons call found ih =>
      rw [List.mem_cons, not_or] at hInit
      obtain ⟨hCall, hRest⟩ := hInit
      cases call with
      | init => exact absurd rfl hCall
      | tick =>
          rw [Stage.serve, List.foldl_cons, h.dispatch_tick]
          exact ih hRest

/-- Ticks in a row do what the first of them does. -/
theorem serve_of_not_mem_init (stage : Stage) {found : List Syscall} (hInit : .init ∉ found) :
    (found = [] ∧ stage.serve header registers found = stage) ∨
      (.tick ∈ found ∧
        stage.serve header registers found = stage.dispatch header registers .tick) := by
  cases found with
  | nil => exact Or.inl ⟨rfl, rfl⟩
  | cons call found =>
      rw [List.mem_cons, not_or] at hInit
      obtain ⟨hCall, hRest⟩ := hInit
      cases call with
      | init => exact absurd rfl hCall
      | tick =>
          refine Or.inr ⟨List.mem_cons_self, ?_⟩
          exact (ticked_dispatch_tick header registers stage).serve hRest

end Stage

/-- What the host leads a machine and its observer to, as long as no game is started and the
tick register stays as it is. Everything else is open: budgets, ceilings and commands. -/
inductive Held (m : Machine) (observer : Observer) : Machine → Observer → Prop where
  | refl : Held m observer m observer
  | limit {m' : Machine} {observer' : Observer} (prior : Held m observer m' observer')
      (maxBudget : Nat) : Held m observer { m' with maxBudget } observer'
  | call {m' : Machine} {observer' : Observer} (prior : Held m observer m' observer')
      (last : HostCall) (hInit : .init ∉ last.served m')
      (hTick : (last.act m' observer').1.registers.tick = m'.registers.tick) :
      Held m observer (last.act m' observer').1 (last.act m' observer').2

variable {m : Machine} {observer : Observer} {call : HostCall}

/-- A call that starts no game does nothing to it, or gives it one tick. -/
theorem HostCall.stage_act_of_not_mem_init (observer : Observer) (hInit : .init ∉ call.served m) :
    (call.served m = [] ∧
        Stage.mk (call.act m observer).1.game (call.act m observer).2 = ⟨m.game, observer⟩) ∨
      (.tick ∈ call.served m ∧
        Stage.mk (call.act m observer).1.game (call.act m observer).2 =
          Stage.dispatch m.header m.registers .tick ⟨m.game, observer⟩) := by
  rw [call.stage_act]
  exact Stage.serve_of_not_mem_init _ hInit

/-- The number of a tick that was applied stands in the way of every later one. -/
theorem Held.stage_eq {m' : Machine} {observer' : Observer} (h : Held m observer m' observer')
    (hTicked : Stage.Ticked m.registers.tick ⟨m.game, observer⟩) :
    Stage.mk m'.game observer' = ⟨m.game, observer⟩ ∧ m'.registers.tick = m.registers.tick := by
  induction h with
  | refl => exact ⟨rfl, rfl⟩
  | limit _ _ ih => exact ih
  | @call m' observer' _ last hInit hTick ih =>
      obtain ⟨hStage, hRegister⟩ := ih
      refine ⟨?_, hTick.trans hRegister⟩
      rw [last.stage_act, hStage]
      -- What the last call reads in the register is still the number that was applied.
      rw [← hRegister] at hTicked
      exact hTicked.serve hInit

/-- A call that serves anything is a run, and leaves the registers alone. -/
theorem HostCall.registers_act {service : Syscall} (h : service ∈ call.served m)
    (observer : Observer) : (call.act m observer).1.registers = m.registers := by
  cases call with
  | write registers => cases h
  | boot budget => exact m.registers_boot budget observer
  | runFrame budget => exact m.registers_runFrame budget observer

theorem size_frames_publish_le (observer : Observer) (g : Game) :
    (observer.publish g).frames.size ≤ observer.frames.size + 1 := by
  cases observer <;> simp [Observer.publish, Observer.frames]

/-- Whatever the program, a run that starts no game takes it no further than one tick does,
and shows one frame at most. Once a tick was served, no more comes of it, as long as the tick
register stays as it is and no game is started. -/
theorem run_ticksOnce (observer : Observer) (hInit : .init ∉ call.served m) :
    let after := call.act m observer
    ((after.1.game = m.game ∧ after.2 = observer) ∨
      ∃ g g', m.game = some g ∧ g.tick m.registers.cmd m.registers.tick = some g' ∧
        after.1.game = some g' ∧ after.2 = observer.publish g') ∧
    after.2.frames.size ≤ observer.frames.size + 1 ∧
    (.tick ∈ call.served m → ∀ m' observer', Held after.1 after.2 m' observer' →
      m'.game = after.1.game ∧ observer' = after.2) := by
  intro after
  have hStep : (after.1.game = m.game ∧ after.2 = observer) ∨
      ∃ g g', m.game = some g ∧ g.tick m.registers.cmd m.registers.tick = some g' ∧
        after.1.game = some g' ∧ after.2 = observer.publish g' := by
    rcases call.stage_act_of_not_mem_init observer hInit with ⟨-, hStage⟩ | ⟨-, hStage⟩
    · exact Or.inl (Stage.mk.inj hStage)
    · rcases Stage.dispatch_tick_cases m.header m.registers ⟨m.game, observer⟩
        with hSkip | ⟨g, g', hGame, hTick, hShown⟩
      · exact Or.inl (Stage.mk.inj (hStage.trans hSkip))
      · exact Or.inr ⟨g, g', hGame, hTick, Stage.mk.inj (hStage.trans hShown)⟩
  refine ⟨hStep, ?_, ?_⟩
  · rcases hStep with ⟨-, hSame⟩ | ⟨_, g', -, -, -, hShown⟩
    · rw [hSame]
      exact Nat.le_succ _
    · rw [hShown]
      exact size_frames_publish_le observer g'
  · intro hServed m' observer' hHeld
    have hTicked : Stage.Ticked after.1.registers.tick ⟨after.1.game, after.2⟩ := by
      rcases call.stage_act_of_not_mem_init observer hInit with ⟨hNone, -⟩ | ⟨-, hStage⟩
      · rw [hNone] at hServed
        cases hServed
      · rw [hStage, HostCall.registers_act hServed]
        exact Stage.ticked_dispatch_tick _ _ _
    exact Stage.mk.inj (hHeld.stage_eq hTicked).1

/-- A machine that asks for three ticks in one frame, with a game that has begun. -/
def threeTicks : Machine :=
  { Machine.new {} [0x40, 2, 0x40, 2, 0x40, 2, 0x01] defaultMaxBudget with
    game := some (.new {})
    registers := { cmd := 1, tick := 5 } }

/-- The three ticks come to one, and the next frame to none, another command or not. -/
theorem run_ticksOnce_threeTicks :
    let after := HostCall.act threeTicks .recording (.runFrame 8)
    let later := HostCall.act { after.1 with registers := { cmd := 3, tick := 5 } } after.2
      (.runFrame 2)
    HostCall.served threeTicks (.runFrame 8) = [.tick, .tick, .tick] ∧
      after.2.frames.size ≤ 1 ∧ later.1.game = after.1.game ∧ later.2 = after.2 := by
  intro after later
  have hServed : HostCall.served threeTicks (.runFrame 8) = [.tick, .tick, .tick] := by decide
  have hInit : .init ∉ HostCall.served threeTicks (.runFrame 8) := by decide
  obtain ⟨-, hSize, hOnce⟩ := run_ticksOnce .recording hInit
  have hWritten : Held after.1 after.2
      { after.1 with registers := { cmd := 3, tick := 5 } } after.2 :=
    .call .refl (.write { cmd := 3, tick := 5 }) List.not_mem_nil rfl
  have hHeld : Held after.1 after.2 later.1 later.2 :=
    .call hWritten (.runFrame 2) (by decide) rfl
  exact ⟨hServed, hSize, hOnce (by decide) later.1 later.2 hHeld⟩

end ImageCartridge.Machine
