import ImageCartridge.Proofs.Snake.Course
import ImageCartridge.Proofs.Snake.Relabel

/-! A restart, and what it keeps of the game before. The high score follows the play
and never leads it: two games that differ in nothing else stay so. -/
namespace ImageCartridge.Snake.Game

def raise (floor : Nat) (g : Game) : Game :=
  { g with highScore := max floor g.highScore }

/-- The game behind some calls of tick. A call that is not applied leaves it as it is. -/
def replay (g : Game) (calls : List (UInt16 × UInt32)) : Game :=
  calls.foldl (fun g call => (g.tick call.1 call.2).getD g) g

/-- What the header fixes for as long as the game goes on. -/
def origin (g : Game) : BoardGeometry × UInt32 :=
  (g.geometry, g.osId)

/-- The high score has no part in where an apple comes. -/
theorem spawnApple_raise (floor : Nat) (g : Game) :
    (g.raise floor).spawnApple = g.spawnApple.raise floor :=
  spawnApple_relabel (max floor) id g

theorem reset_raise (floor : Nat) (g : Game) : (g.raise floor).reset = g.reset.raise floor := by
  rw [reset, reset, ← spawnApple_raise]
  rfl

theorem obey_raise (floor : Nat) (g : Game) (command : Option Command) :
    (g.raise floor).obey command = (g.obey command).raise floor :=
  obey_relabel (max floor) id g command

theorem advance_raise (floor : Nat) (g : Game) :
    (g.raise floor).advance = g.advance.raise floor :=
  advance_relabel (max floor) id g fun a b => (Nat.max_assoc floor a b).symm

/-- A tick neither reads the high score nor lowers it, so raising it beforehand or afterwards is
the same. -/
theorem tick_raise (floor : Nat) (g : Game) (code : UInt16) (number : UInt32) :
    (g.raise floor).tick code number = (g.tick code number).map (raise floor) := by
  by_cases hReplayed : number = g.lastTick
  · rw [tick, tick, if_pos hReplayed]
    exact if_pos hReplayed
  have hFresh : number ≠ (g.raise floor).lastTick := hReplayed
  by_cases hRestart : Command.ofCode? code = some .restart
  · rw [tick_restart hFresh hRestart, tick_restart hReplayed hRestart, reset_raise]
    rfl
  · rw [tick_of_ne_restart hFresh hRestart, tick_of_ne_restart hReplayed hRestart]
    have hObey : obey { g.raise floor with lastTick := number } (Command.ofCode? code)
        = (obey { g with lastTick := number } (Command.ofCode? code)).raise floor :=
      obey_raise floor { g with lastTick := number } _
    dsimp only
    rw [hObey, Option.map_some, apply_ite (raise floor), advance_raise]
    rfl

/-- A high score from before can be added at the end. -/
theorem replay_raise (floor : Nat) (g : Game) (calls : List (UInt16 × UInt32)) :
    (g.raise floor).replay calls = (g.replay calls).raise floor := by
  induction calls generalizing g with
  | nil => rfl
  | cons call calls ih =>
      have hCall : ((g.raise floor).tick call.1 call.2).getD (g.raise floor)
          = ((g.tick call.1 call.2).getD g).raise floor := by
        rw [tick_raise, Option.getD_map]
      rw [replay, List.foldl_cons, hCall]
      exact ih _

theorem origin_spawnApple (g : Game) : g.spawnApple.origin = g.origin := by
  rw [spawnApple_eq]
  rfl

theorem origin_reset (g : Game) : g.reset.origin = g.origin :=
  origin_spawnApple _

theorem origin_obey (g : Game) (command : Option Command) : (g.obey command).origin = g.origin := by
  rw [obey_eq]
  rfl

theorem Advances.origin_eq {g g' : Game} (h : Advances g g') : g'.origin = g.origin := by
  cases h with
  | crash => rfl
  | eat => exact origin_spawnApple g.fed
  | slide => rfl

theorem origin_of_tick {g g' : Game} {code : UInt16} {number : UInt32}
    (h : g.tick code number = some g') : g'.origin = g.origin := by
  obtain ⟨-, ⟨-, rfl⟩ | ⟨obeyed, rfl, -, ⟨-, rfl⟩ | ⟨-, -, rfl⟩⟩⟩ := tick_cases h
  · exact origin_reset _
  · exact origin_obey _ _
  · rw [(advances_advance _).origin_eq, origin_obey]
    rfl

/-- The geometry and the tag of a header last for all its games. -/
theorem Reachable.origin_eq {h : Header} {g : Game} (hReach : Reachable h g) :
    g.origin = (Game.new h).origin := by
  induction hReach with
  | new => rfl
  | tick prior code number last ih => rw [origin_of_tick last, ih]
  | reset prior ih => rw [origin_reset, ih]

/-- Playing on from a game that can be reached leads to games that can be reached. -/
theorem Reachable.replay {h : Header} {g : Game} (hReach : Reachable h g)
    (calls : List (UInt16 × UInt32)) : Reachable h (g.replay calls) := by
  induction calls generalizing g with
  | nil => exact hReach
  | cons call calls ih =>
      change Reachable h (((g.tick call.1 call.2).getD g).replay calls)
      apply ih
      cases hTick : g.tick call.1 call.2 with
      | none => exact hReach
      | some next => exact hReach.tick call.1 call.2 hTick

/-- The old apple is not looked at, as long as a cell is free. -/
theorem spawnApple_congr {g g' : Game} (hEq : g' = { g with apple := g'.apple })
    (hFree : ∃ c : Cell, c.onBoard = true ∧ c ∉ g.snake) : g'.spawnApple = g.spawnApple := by
  rw [hEq]
  unfold spawnApple
  dsimp only
  split
  · rfl
  · cases hFirst : firstFree? g.snake with
    | none =>
        obtain ⟨c, hOn, hOff⟩ := hFree
        exact absurd (firstFree?_eq_none hFirst hOn) hOff
    | some place => rfl

/-- A reset reads no more than the header's values and the high score. -/
theorem reset_congr {g g' : Game} (hOrigin : g'.origin = g.origin)
    (hHigh : g'.highScore = g.highScore) : g'.reset = g.reset := by
  have hFree : ∃ c : Cell, c.onBoard = true ∧ c ∉ startSnake := ⟨⟨0, 0⟩, by decide, by decide⟩
  obtain ⟨hGeometry, hTag⟩ := Prod.mk.inj hOrigin
  rw [reset, reset, hGeometry, hTag, hHigh]
  exact spawnApple_congr rfl hFree

theorem highScore_new (h : Header) : (new h).highScore = 0 := by
  rw [new, reset, spawnApple_eq]

/-- Games of one header are reset to the same game, but for the high score. -/
theorem Reachable.reset_eq {h : Header} {g : Game} (hReach : Reachable h g) :
    g.reset = (Game.new h).raise g.highScore := by
  obtain ⟨blank, hNew, hOrigin, hHigh⟩ : ∃ blank : Game, Game.new h = blank.reset ∧
      blank.origin = (Game.new h).origin ∧ blank.highScore = 0 :=
    ⟨_, rfl, (origin_reset _).symm, rfl⟩
  rw [hNew, ← reset_raise]
  refine reset_congr (hReach.origin_eq.trans hOrigin.symm) ?_
  change g.highScore = max g.highScore blank.highScore
  rw [hHigh, Nat.max_zero]

/-- Nothing but the high score survives a restart, and the high score has no part in
what comes after it. -/
theorem restart_forgets {h : Header} {g : Game} (hReach : Reachable h g) {number : UInt32}
    (hFresh : number ≠ g.lastTick) :
    g.tick 6 number = some { new h with highScore := g.highScore, lastTick := number } ∧
    ∀ calls,
      replay { new h with highScore := g.highScore, lastTick := number } calls =
        { replay { new h with lastTick := number } calls with
          highScore :=
            max g.highScore (replay { new h with lastTick := number } calls).highScore } := by
  have hRaise : { new h with highScore := g.highScore, lastTick := number }
      = raise g.highScore { new h with lastTick := number } := by
    rw [raise, highScore_new, Nat.max_zero]
  constructor
  · rw [tick_restart hFresh rfl, hReach.reset_eq, hRaise]
    rfl
  · intro calls
    rw [hRaise, replay_raise]
    rfl

/-- Five moves up and five to the left, which lead to the first apple. -/
def appleCalls : List (UInt16 × UInt32) :=
  [(1, 1), (1, 2), (1, 3), (1, 4), (1, 5), (3, 6), (3, 7), (3, 8), (3, 9), (3, 10)]

/-- A game with one apple is restarted, and its high score is all that is left of it. -/
theorem restart_forgets_appleCalls :
    ∃ g, Reachable {} g ∧ g.highScore = 1 ∧ 11 ≠ g.lastTick ∧
      g.tick 6 11 = some { new {} with highScore := 1, lastTick := 11 } ∧
      ∀ calls, replay { new {} with highScore := 1, lastTick := 11 } calls =
        { replay { new {} with lastTick := 11 } calls with
          highScore := max 1 (replay { new {} with lastTick := 11 } calls).highScore } := by
  have hReach := Reachable.replay (.new (h := {})) appleCalls
  have hHigh : ((new {}).replay appleCalls).highScore = 1 := rfl
  have hFresh : 11 ≠ ((new {}).replay appleCalls).lastTick := by decide
  have hRestart := restart_forgets hReach hFresh
  rw [hHigh] at hRestart
  exact ⟨_, hReach, hHigh, hFresh, hRestart⟩

end ImageCartridge.Snake.Game
