import ImageCartridge.Proofs.Snake.Restart

/-! Tick numbers. A call whose number is that of the call before does nothing, and the
numbers of the others tell no more than that: the commands alone decide the play. -/
namespace ImageCartridge.Snake.Game

def stamp (number : UInt32) (g : Game) : Game :=
  { g with lastTick := number }

/-- What an applied tick does, apart from taking over its number. -/
def play (g : Game) (code : UInt16) : Game :=
  match Command.ofCode? code with
  | some .restart => g.reset
  | command =>
      let g := g.obey command
      if g.paused || g.gameOver then g else g.advance

/-- The calls whose number is not that of the call before. The first is compared with a
number given. -/
def fresh (last : UInt32) : List (UInt16 × UInt32) → List (UInt16 × UInt32)
  | [] => []
  | call :: calls =>
      if call.2 = last then fresh call.2 calls else call :: fresh call.2 calls

theorem obey_stamp (number : UInt32) (g : Game) (command : Option Command) :
    (g.stamp number).obey command = (g.obey command).stamp number :=
  obey_relabel id (fun _ => number) g command

theorem advance_stamp (number : UInt32) (g : Game) :
    (g.stamp number).advance = g.advance.stamp number :=
  advance_relabel id (fun _ => number) g fun _ _ => rfl

theorem play_restart (g : Game) {code : UInt16} (h : Command.ofCode? code = some .restart) :
    g.play code = g.reset := by
  rw [play, h]

/-- What a tick does apart from its number is to take in the command and to move. -/
theorem play_of_ne_restart (g : Game) {code : UInt16}
    (h : Command.ofCode? code ≠ some .restart) :
    g.play code =
      let obeyed := g.obey (Command.ofCode? code)
      if obeyed.paused || obeyed.gameOver then obeyed else obeyed.advance := by
  unfold play
  split
  · next hRestart => exact absurd hRestart h
  · rfl

/-- The number of a tick is taken over, whatever the tick does. -/
theorem tick_eq_play {g : Game} {number : UInt32} (h : number ≠ g.lastTick) (code : UInt16) :
    g.tick code number = some ((g.play code).stamp number) := by
  by_cases hRestart : Command.ofCode? code = some .restart
  · rw [tick_restart h hRestart, play_restart g hRestart]
    rfl
  · have hObey : obey { g with lastTick := number } (Command.ofCode? code)
        = (g.obey (Command.ofCode? code)).stamp number := obey_stamp number g _
    rw [tick_of_ne_restart h hRestart, play_of_ne_restart g hRestart]
    dsimp only
    rw [hObey, apply_ite (stamp number), ← advance_stamp]
    rfl

/-- The number of the tick before has no part in the play. -/
theorem play_stamp (number later : UInt32) (g : Game) (code : UInt16) :
    ((g.stamp number).play code).stamp later = (g.play code).stamp later := by
  by_cases hRestart : Command.ofCode? code = some .restart
  · rw [play_restart _ hRestart, play_restart _ hRestart]
    rfl
  · rw [play_of_ne_restart _ hRestart, play_of_ne_restart _ hRestart]
    dsimp only
    rw [obey_stamp, advance_stamp, apply_ite (stamp later), apply_ite (stamp later)]
    rfl

/-- The number a game starts from has no part in what commands do to it. -/
theorem foldl_play_stamp (number later : UInt32) (g : Game) (codes : List UInt16) :
    (codes.foldl play (g.stamp number)).stamp later = (codes.foldl play g).stamp later := by
  induction codes generalizing g number with
  | nil => rfl
  | cons code codes ih =>
      -- The two games behind the first command differ in their numbers only, so both are
      -- given the last one.
      calc (codes.foldl play ((g.stamp number).play code)).stamp later
          = (codes.foldl play (((g.stamp number).play code).stamp later)).stamp later :=
            (ih later _).symm
        _ = (codes.foldl play ((g.play code).stamp later)).stamp later := by rw [play_stamp]
        _ = (codes.foldl play (g.play code)).stamp later := ih later _

/-- A call leaves its number behind, applied or not. -/
theorem lastTick_getD_tick (g : Game) (code : UInt16) (number : UInt32) :
    ((g.tick code number).getD g).lastTick = number := by
  by_cases hReplayed : number = g.lastTick
  · rw [tick_eq_none_iff.mpr hReplayed, Option.getD_none, hReplayed]
  · rw [tick_eq_play hReplayed, Option.getD_some]
    rfl

theorem replay_cons (g : Game) (call : UInt16 × UInt32) (calls : List (UInt16 × UInt32)) :
    g.replay (call :: calls) = ((g.tick call.1 call.2).getD g).replay calls := rfl

/-- The number of the last call is the one kept, since a call that is not applied has that number
already. -/
theorem lastTick_replay (g : Game) (calls : List (UInt16 × UInt32)) :
    (g.replay calls).lastTick = (calls.map Prod.snd).getLastD g.lastTick := by
  induction calls generalizing g with
  | nil => rfl
  | cons call calls ih =>
      rw [replay_cons, ih, lastTick_getD_tick, List.map_cons, List.getLastD_cons]

/-- The calls that are left out would not have been applied. -/
theorem replay_fresh (g : Game) (calls : List (UInt16 × UInt32)) :
    g.replay (fresh g.lastTick calls) = g.replay calls := by
  induction calls generalizing g with
  | nil => rfl
  | cons call calls ih =>
      have hRest := ih ((g.tick call.1 call.2).getD g)
      rw [lastTick_getD_tick] at hRest
      rw [fresh, replay_cons, ← hRest]
      split
      · next hReplayed => rw [tick_eq_none_iff.mpr hReplayed, Option.getD_none]
      · rfl

/-- Calls that are all applied play their commands one after the other, and leave the last
number behind. -/
theorem replay_eq_stamp_foldl_play {g : Game} {calls : List (UInt16 × UInt32)}
    (h : (g.lastTick :: calls.map Prod.snd).IsChain (· ≠ ·)) :
    g.replay calls = ((calls.map Prod.fst).foldl play g).stamp
      ((calls.map Prod.snd).getLastD g.lastTick) := by
  induction calls generalizing g with
  | nil => rfl
  | cons call calls ih =>
      rw [List.map_cons, List.isChain_cons_cons] at h
      obtain ⟨hFresh, hRest⟩ := h
      have hStamped : ((g.play call.1).stamp call.2).lastTick = call.2 := rfl
      rw [replay_cons, tick_eq_play hFresh.symm, Option.getD_some, ih (hStamped ▸ hRest),
        foldl_play_stamp, hStamped, List.map_cons, List.map_cons, List.getLastD_cons,
        List.foldl_cons]

/-- Calls with the number of the call before never count. They are those that are not
applied, and without them the game comes to be the same. The numbers of the others have no
other meaning: the same commands lead to the same game, but for the number it ends with. -/
theorem replay_ignores_numbers (h : Header) :
    (∀ calls, (new h).replay (fresh 0 calls) = (new h).replay calls) ∧
    (∀ earlier code number, ((new h).replay earlier).tick code number = none ↔
      number = (earlier.map Prod.snd).getLastD 0) ∧
    ∀ calls calls' : List (UInt16 × UInt32), calls.map Prod.fst = calls'.map Prod.fst →
      (0 :: calls.map Prod.snd).IsChain (· ≠ ·) → (0 :: calls'.map Prod.snd).IsChain (· ≠ ·) →
      (new h).replay calls' =
        { (new h).replay calls with lastTick := ((new h).replay calls').lastTick } := by
  have hStart : (new h).lastTick = 0 := lastTick_new h
  refine ⟨fun calls => ?_, fun earlier code number => ?_, ?_⟩
  · rw [← hStart, replay_fresh]
  · rw [tick_eq_none_iff, lastTick_replay, hStart]
  · intro calls calls' hCodes hChain hChain'
    rw [← hStart] at hChain hChain'
    rw [replay_eq_stamp_foldl_play hChain, replay_eq_stamp_foldl_play hChain', hCodes]
    rfl

/-- The same commands, a pause and a restart among them, under numbers that go up and
under numbers that go to and fro. -/
theorem replay_ignores_numbers_restart :
    ∃ calls calls' : List (UInt16 × UInt32),
      calls = [(1, 1), (5, 2), (5, 3), (6, 4), (3, 5)] ∧
      calls' = [(1, 7), (5, 0), (5, 7), (6, 0), (3, 7)] ∧
      calls.map Prod.fst = calls'.map Prod.fst ∧
      (0 :: calls.map Prod.snd).IsChain (· ≠ ·) ∧ (0 :: calls'.map Prod.snd).IsChain (· ≠ ·) ∧
      (new {}).replay calls' =
        { (new {}).replay calls with lastTick := ((new {}).replay calls').lastTick } := by
  refine ⟨_, _, rfl, rfl, rfl, by decide, by decide, ?_⟩
  exact (replay_ignores_numbers {}).2.2 _ _ rfl (by decide) (by decide)

end ImageCartridge.Snake.Game
