import ImageCartridge.Proofs.Snake.Invariant

/-! What has no part in the play: the high score to beat, and the number of the tick
before. A game that differs in these is played alike. -/
namespace ImageCartridge.Snake.Game

/-- The game with its high score and the number of its last tick replaced. -/
def relabel (high : Nat → Nat) (last : UInt32 → UInt32) (g : Game) : Game :=
  { g with highScore := high g.highScore, lastTick := last g.lastTick }

variable (high : Nat → Nat) (last : UInt32 → UInt32) (g : Game)

/-- Where an apple comes has nothing to do with scores or ticks. -/
theorem spawnApple_relabel :
    (g.relabel high last).spawnApple = g.spawnApple.relabel high last := by
  unfold spawnApple relabel
  dsimp only
  split <;> rfl

theorem obey_relabel (command : Option Command) :
    (g.relabel high last).obey command = (g.obey command).relabel high last := by
  rw [obey_eq, obey_eq]
  rfl

/-- The new high score has to follow the play, as the old one does. -/
theorem moveTo_relabel (hHigh : ∀ a b, high (max a b) = max (high a) b) (next : Cell) :
    (g.relabel high last).moveTo next = (g.moveTo next).relabel high last := by
  rw [moveTo, moveTo, apply_ite (relabel high last), ← spawnApple_relabel]
  simp only [relabel, hHigh]
  rfl

/-- A move reads neither of the two, but raises the high score. So the change must respect maxima.
-/
theorem advance_relabel (hHigh : ∀ a b, high (max a b) = max (high a) b) :
    (g.relabel high last).advance = g.advance.relabel high last := by
  have hTarget : (g.relabel high last).target? = g.target? := rfl
  rw [advance_eq, advance_eq, hTarget]
  cases g.target? with
  | none => rfl
  | some next =>
      rw [Option.elim_some, Option.elim_some, apply_ite (relabel high last),
        ← moveTo_relabel high last _ hHigh]
      rfl

end ImageCartridge.Snake.Game
