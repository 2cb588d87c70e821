import ImageCartridge.Machine.Run
import ImageCartridge.Proofs.Snake.Invariant

/-! The machines that can come of a header and a program. Whatever the program
does, the game it holds is one that commands could have led to. -/
namespace ImageCartridge.Machine

open Snake

/-- A run does to its stage only what the services do. -/
theorem execute_stage {header : Header} {registers : Registers} {P : Stage → Prop}
    (hDispatch : ∀ call stage, P stage → P (stage.dispatch header registers call))
    (budget cycles pc : Nat) (code : Bytes) {stage : Stage} (hStage : P stage) :
    P (execute header registers budget cycles pc code stage).stage := by
  induction budget generalizing cycles pc code stage with
  | zero => exact hStage
  | succ budget ih =>
      unfold execute
      split
      · exact hStage
      · next opcode rest =>
          split
          · exact hStage
          · split
            · split
              · exact hStage
              · next id rest =>
                  split
                  · exact hStage
                  · next call hCall => exact ih _ _ _ (hDispatch call stage hStage)
            · exact hStage

/-- The machines between two runs, for a header and a program. The host sets
registers and ceilings as it likes. -/
inductive Reachable (header : Header) (program : Bytes) : Machine → Prop where
  | new (maxBudget : Nat) : Reachable header program (.new header program maxBudget)
  | limit {m : Machine} (prior : Reachable header program m) (maxBudget : Nat) :
      Reachable header program { m with maxBudget }
  | write {m : Machine} (prior : Reachable header program m) (registers : Registers) :
      Reachable header program { m with registers }
  | boot {m : Machine} (prior : Reachable header program m) (budget : Nat)
      (observer : Observer) : Reachable header program (m.boot budget observer).machine
  | runFrame {m : Machine} (prior : Reachable header program m) (budget : Nat)
      (observer : Observer) : Reachable header program (m.runFrame budget observer).machine

/-- Every game a stage may hold comes of the header. -/
def Stage.Legal (header : Header) (game : Option Game) : Prop :=
  ∀ g, game = some g → Game.Reachable header g

theorem Stage.legal_dispatch {header : Header} (registers : Registers) (call : Syscall)
    {stage : Stage} (h : Legal header stage.game) :
    Legal header (stage.dispatch header registers call).game := by
  intro g' hGame
  unfold dispatch at hGame
  split at hGame
  · cases hGame
    exact .new
  · next g hSome =>
      cases hGame
      exact .reset (h g hSome)
  · exact h g' hGame
  · next g hSome =>
      split at hGame
      · next g'' hTick =>
          cases hGame
          exact .tick (h g hSome) _ _ hTick
      · exact h g' hGame

/-- A run, wherever it starts and whatever its budget, leaves a game that the rules allow. -/
theorem legal_runFrom {m : Machine} (h : Stage.Legal m.header m.game) (start budget : Nat)
    (observer : Observer) : Stage.Legal m.header (m.runFrom start budget observer).machine.game :=
  execute_stage (P := fun stage => Stage.Legal m.header stage.game)
    (fun call _ hStage => Stage.legal_dispatch m.registers call hStage) _ _ _ _ h

/-- Booting runs the prologue or leaves the machine alone. -/
theorem boot_machine (m : Machine) (budget : Nat) (observer : Observer) :
    (m.boot budget observer).machine = m ∨
      (m.boot budget observer).machine = (m.runFrom 0 budget observer).machine := by
  unfold Machine.boot
  split
  · exact Or.inl rfl
  · split
    · exact Or.inl rfl
    · exact Or.inr rfl

theorem runFrame_machine (m : Machine) (budget : Nat) (observer : Observer) :
    (m.runFrame budget observer).machine = m ∨
      (m.runFrame budget observer).machine = (m.runFrom m.entryPoint budget observer).machine := by
  unfold Machine.runFrame
  split
  · exact Or.inl rfl
  · exact Or.inr rfl

theorem header_boot (m : Machine) (budget : Nat) (observer : Observer) :
    (m.boot budget observer).machine.header = m.header := by
  rcases m.boot_machine budget observer with hSame | hRun
  · rw [hSame]
  · rw [hRun, runFrom]

theorem header_runFrame (m : Machine) (budget : Nat) (observer : Observer) :
    (m.runFrame budget observer).machine.header = m.header := by
  rcases m.runFrame_machine budget observer with hSame | hRun
  · rw [hSame]
  · rw [hRun, runFrom]

theorem registers_boot (m : Machine) (budget : Nat) (observer : Observer) :
    (m.boot budget observer).machine.registers = m.registers := by
  rcases m.boot_machine budget observer with hSame | hRun
  · rw [hSame]
  · rw [hRun, runFrom]

theorem registers_runFrame (m : Machine) (budget : Nat) (observer : Observer) :
    (m.runFrame budget observer).machine.registers = m.registers := by
  rcases m.runFrame_machine budget observer with hSame | hRun
  · rw [hSame]
  · rw [hRun, runFrom]

/-- Nothing the host does changes the header. -/
theorem Reachable.header_eq {header : Header} {program : Bytes} {m : Machine}
    (hReach : Reachable header program m) : m.header = header := by
  induction hReach with
  | new => rfl
  | limit _ _ ih => exact ih
  | write _ _ ih => exact ih
  | @boot m prior budget observer ih => rw [m.header_boot, ih]
  | @runFrame m prior budget observer ih => rw [m.header_runFrame, ih]

/-- Whatever the host does to a machine, its game is one that can come of its header. -/
theorem Reachable.legal {header : Header} {program : Bytes} {m : Machine}
    (hReach : Reachable header program m) : Stage.Legal header m.game := by
  induction hReach with
  | new => exact fun _ hGame => nomatch hGame
  | limit _ _ ih => exact ih
  | write _ _ ih => exact ih
  | @boot m prior budget observer ih =>
      rw [← prior.header_eq] at ih ⊢
      rcases m.boot_machine budget observer with hSame | hRun
      · rw [hSame]
        exact ih
      · rw [hRun]
        exact legal_runFrom ih _ _ _
  | @runFrame m prior budget observer ih =>
      rw [← prior.header_eq] at ih ⊢
      rcases m.runFrame_machine budget observer with hSame | hRun
      · rw [hSame]
        exact ih
      · rw [hRun]
        exact legal_runFrom ih _ _ _

/-- Every game follows the rules, played by hand or by any program whatsoever. -/
theorem game_invariant (header : Header) :
    (∀ g, Game.Reachable header g → g.Invariant) ∧
      ∀ program m, Reachable header program m → ∀ g, m.game = some g → g.Invariant :=
  ⟨fun _ hReach => hReach.invariant, fun _ _ hReach g hGame => (hReach.legal g hGame).invariant⟩

/-- A game after one turn and a restart, and the game that the canonical program has started. -/
theorem game_invariant_snakeProgram :
    (∃ g, (Game.new {}).tick Command.left.code 1 = some g ∧ g.reset.Invariant) ∧
      ∃ m g, Reachable { entryPoint := 3 } snakeProgram m ∧ m.game = some g ∧ g.Invariant := by
  constructor
  · have hTick : ∃ g, (Game.new {}).tick Command.left.code 1 = some g := ⟨_, rfl⟩
    obtain ⟨g, hTick⟩ := hTick
    exact ⟨g, hTick, (game_invariant {}).1 _ (.reset (.tick .new _ _ hTick))⟩
  · have hReach : Reachable { entryPoint := 3 } snakeProgram
        ((Machine.new { entryPoint := 3 } snakeProgram defaultMaxBudget).boot 8 .discard).machine :=
      .boot (.new _) _ _
    exact ⟨_, _, hReach, rfl, (game_invariant _).2 _ _ hReach _ rfl⟩

end ImageCartridge.Machine
