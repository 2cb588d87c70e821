import ImageCartridge.Proofs.Snake.Respawn

/-! What holds of a game after any commands. The parts lean on each other: the
apple stays off the snake because it is placed on a free cell and a move that
does not grow never takes it, and a turn back is refused because the second cell
lies where the last move came from. -/
namespace ImageCartridge.Snake

/-- An apple that is placed as well as can be lies on the snake only when there is no other place.
-/
theorem IsBody.mem_iff_length_eq {snake : List Cell} {apple : Cell} (h : IsBody snake)
    (hBoard : apple.onBoard = true)
    (hFree : apple ∉ snake ∨ ∀ c, c.onBoard = true → c ∈ snake) :
    apple ∈ snake ↔ snake.length = boardSize := by
  rcases hFree with hOff | hAll
  · exact ⟨fun hMem => absurd hMem hOff, fun hFull => h.mem_of_length_eq hFull hBoard⟩
  · exact ⟨fun _ => h.length_eq_of_forall_mem hAll, fun _ => hAll apple hBoard⟩

theorem Direction.reverse_reverse (d : Direction) : d.reverse.reverse = d := by
  cases d <;> rfl

theorem Direction.ne_reverse (d : Direction) : d ≠ d.reverse := by
  cases d <;> decide

namespace Game

/-- A game that follows the rules. -/
structure Invariant (g : Game) : Prop where
  three_le_length : 3 ≤ g.snake.length
  length_le : g.snake.length ≤ boardSize
  body : IsBody g.snake
  apple_onBoard : g.apple.onBoard = true
  apple_mem_iff : g.apple ∈ g.snake ↔ g.snake.length = boardSize
  pending_ne_reverse : g.pending ≠ g.direction.reverse
  neck : g.gameOver = false → ∃ head second rest,
    g.snake = head :: second :: rest ∧ head.neighbour? g.direction.reverse = some second
  score_eq : g.score = g.snake.length - 3
  score_le_highScore : g.score ≤ g.highScore
  highScore_le : g.highScore ≤ boardSize - 3
  not_paused_and_over : ¬ (g.paused = true ∧ g.gameOver = true)
  rng_ne_zero : g.rng.state ≠ 0

/-- Placing an apple restores what an eaten apple breaks. -/
theorem spawnApple_apple {g : Game} (hRng : g.rng.state ≠ 0) (hBody : IsBody g.snake)
    (hBoard : g.apple.onBoard = true) :
    ∃ apple rng, g.spawnApple = { g with apple, rng } ∧ rng.state ≠ 0 ∧
      apple.onBoard = true ∧ (apple ∈ g.snake ↔ g.snake.length = boardSize) := by
  have hRespawns := spawnApple_respawns g
  have hPlace := hRespawns.free_or_full
  have hOn : g.spawnApple.apple.onBoard = true := by
    rcases hPlace with ⟨hOn, _⟩ | ⟨hStays, _⟩
    · exact hOn
    · rw [hStays]
      exact hBoard
  exact ⟨_, _, spawnApple_eq g, hRespawns.state_ne_zero hRng, hOn,
    hBody.mem_iff_length_eq hOn (hPlace.imp And.right And.right)⟩

theorem startSnake_isBody : IsBody startSnake where
  onBoard := by decide
  nodup := by decide
  adjacent := by decide

/-- The first snake heads away from its own second cell. -/
theorem startSnake_neck : ∃ head second rest,
    startSnake = head :: second :: rest ∧ head.neighbour? Direction.up.reverse = some second :=
  ⟨⟨10, 12⟩, ⟨10, 13⟩, [⟨10, 14⟩], by decide, by decide⟩

/-- A reset starts from fixed values. Of the old game the high score and the
header's values stay, and an apple that no free cell could replace. -/
theorem reset_invariant {g : Game} (hHigh : g.highScore ≤ boardSize - 3) : g.reset.Invariant := by
  have hRng : (XorShift.ofOsId g.osId).state ≠ 0 := XorShift.ofSeed_state_ne_zero _
  have hFree : ∃ c : Cell, c.onBoard = true ∧ c ∉ startSnake := ⟨⟨0, 0⟩, by decide, by decide⟩
  unfold reset
  have hRespawns := spawnApple_respawns { g with
    snake := startSnake, direction := .up, pending := .up, score := 0, paused := false,
    gameOver := false, lastTick := 0, rng := .ofOsId g.osId }
  have hState := hRespawns.state_ne_zero hRng
  rw [spawnApple_eq]
  rcases hRespawns.free_or_full with ⟨hOn, hOff⟩ | ⟨_, hAll⟩
  · exact {
      three_le_length := by simp [startSnake]
      length_le := startSnake_isBody.length_le
      body := startSnake_isBody
      apple_onBoard := hOn
      apple_mem_iff := startSnake_isBody.mem_iff_length_eq hOn (Or.inl hOff)
      pending_ne_reverse := Direction.noConfusion
      neck := fun _ => startSnake_neck
      score_eq := by simp [startSnake]
      score_le_highScore := Nat.zero_le _
      highScore_le := hHigh
      not_paused_and_over := by simp
      rng_ne_zero := hState }
  · obtain ⟨c, hOn, hOff⟩ := hFree
    exact absurd (hAll c hOn) hOff

theorem new_invariant (h : Header) : (new h).Invariant :=
  reset_invariant (Nat.zero_le _)

/-- The direction of the next move once a command is taken in. A turn straight back is not. -/
def heading (g : Game) (command : Option Command) : Direction :=
  match command.bind Command.direction? with
  | some wanted => if wanted = g.direction.reverse then g.pending else wanted
  | none => g.pending

/-- Whether the game is paused once a command is taken in. -/
def pausedAfter (g : Game) (command : Option Command) : Bool :=
  if command = some .startPause ∧ g.gameOver = false then !g.paused else g.paused

theorem steer_eq (g : Game) (wanted : Direction) :
    g.steer wanted =
      { g with pending := if wanted = g.direction.reverse then g.pending else wanted } := by
  have hTurn : wanted.reverse = g.direction ↔ wanted = g.direction.reverse := by
    constructor
    · intro h
      rw [← h, Direction.reverse_reverse]
    · intro h
      rw [h, Direction.reverse_reverse]
  unfold steer
  by_cases hBack : wanted = g.direction.reverse
  · rw [if_pos (hTurn.mpr hBack), if_pos hBack]
  · rw [if_neg (mt hTurn.mp hBack), if_neg hBack]

/-- A command bears on the pending direction and on the pause, and on nothing else. -/
theorem obey_eq (g : Game) (command : Option Command) :
    g.obey command =
      { g with pending := g.heading command, paused := g.pausedAfter command } := by
  cases command with
  | none => rfl
  | some command =>
      cases command with
      | startPause =>
          have hPaused : g.pausedAfter (some .startPause) =
              if g.gameOver then g.paused else !g.paused := by
            cases hOver : g.gameOver <;> simp [pausedAfter, hOver]
          rw [hPaused, obey]
          split <;> rfl
      | up | down | left | right =>
          simp [obey, heading, pausedAfter, Command.direction?, steer_eq]
      | restart | download | capture | load => rfl

/-- No command makes the snake turn straight back. -/
theorem heading_ne_reverse {g : Game} (h : g.pending ≠ g.direction.reverse)
    (command : Option Command) : g.heading command ≠ g.direction.reverse := by
  unfold heading
  split
  · split
    · exact h
    · next hTurn => exact hTurn
  · exact h

/-- Commands keep the rules even while the game stands still. -/
theorem Invariant.obey {g : Game} (h : g.Invariant) (command : Option Command) :
    (g.obey command).Invariant := by
  have hPaused : ¬ (g.pausedAfter command = true ∧ g.gameOver = true) := by
    rintro ⟨hPaused, hOver⟩
    rw [pausedAfter, if_neg (by simp [hOver])] at hPaused
    exact h.not_paused_and_over ⟨hPaused, hOver⟩
  rw [obey_eq]
  exact { h with
    pending_ne_reverse := heading_ne_reverse h.pending_ne_reverse command
    not_paused_and_over := hPaused }

def target? (g : Game) : Option Cell :=
  g.head?.bind fun c => c.neighbour? g.pending

/-- The game that has taken the apple, before a new one comes. -/
def fed (g : Game) : Game :=
  { g with
    direction := g.pending
    snake := g.apple :: g.snake
    score := g.score + 1
    highScore := max g.highScore (g.score + 1) }

/-- What a move can do: fail, take the apple, or go on. -/
inductive Advances (g : Game) : Game → Prop where
  | crash
      (hBlocked : ∀ next, g.target? = some next → next ∈ g.blocking (next = g.apple)) :
      Advances g { g with direction := g.pending, gameOver := true }
  | eat (hTarget : g.target? = some g.apple) (hFree : g.apple ∉ g.snake) :
      Advances g g.fed.spawnApple
  | slide {next : Cell} (hTarget : g.target? = some next) (hApple : next ≠ g.apple)
      (hFree : next ∉ g.snake.dropLast) :
      Advances g { g with direction := g.pending, snake := next :: g.snake.dropLast }

/-- A move in terms of the cell it would enter. -/
theorem advance_eq (g : Game) :
    g.advance = g.target?.elim { g with direction := g.pending, gameOver := true } fun next =>
      if next ∈ g.blocking (next = g.apple) then { g with direction := g.pending, gameOver := true }
      else moveTo { g with direction := g.pending } next := by
  have hTarget : (head? { g with direction := g.pending }).bind
      (fun c => c.neighbour? g.pending) = g.target? := rfl
  unfold advance
  dsimp only
  rw [hTarget]
  cases g.target? <;> rfl

/-- A move crashes, eats or slides, and there is no fourth way. -/
theorem advances_advance (g : Game) : Advances g g.advance := by
  rw [advance_eq]
  cases hTarget : g.target? with
  | none => exact .crash fun next hNext => by simp [hTarget] at hNext
  | some next =>
      rw [Option.elim_some]
      split
      · next hBlocked =>
          refine .crash fun other hOther => ?_
          obtain rfl : next = other := Option.some.inj (hTarget.symm.trans hOther)
          exact hBlocked
      · next hFree =>
          by_cases hApple : next = g.apple
          · subst hApple
            simp only [blocking, moveTo, decide_true, if_true] at hFree ⊢
            exact .eat hTarget hFree
          · simp only [blocking, moveTo, hApple, decide_false, if_false, Bool.false_eq_true]
              at hFree ⊢
            exact .slide hTarget hApple hFree

/-- The cell a move would enter lies on the board beside the head. -/
theorem Invariant.of_target? {g : Game} (h : g.Invariant) {next : Cell}
    (hTarget : g.target? = some next) :
    ∃ head tail, g.snake = head :: tail ∧ tail ≠ [] ∧ next.onBoard = true ∧
      next.Adjacent head ∧ next.neighbour? g.pending.reverse = some head := by
  obtain ⟨head, hHead, hNext⟩ := Option.bind_eq_some_iff.mp hTarget
  obtain ⟨tail, hSnake⟩ := List.head?_eq_some_iff.mp hHead
  have hBoard := h.body.onBoard head (by rw [hSnake]; exact List.mem_cons_self)
  have hLength := h.three_le_length
  obtain ⟨hOn, hBeside⟩ := Cell.neighbour?_eq_some_iff.mp hNext
  refine ⟨head, tail, hSnake, ?_, hOn, hBeside.adjacent, Cell.neighbour?_reverse hBoard hNext⟩
  rintro rfl
  rw [hSnake, List.length_singleton] at hLength
  omega

/-- A crash leaves the snake where it was, so only the flags are at stake. -/
theorem Advances.invariant_crash {g : Game} (h : g.Invariant) (hPaused : g.paused = false) :
    Invariant { g with direction := g.pending, gameOver := true } :=
  { h with
    pending_ne_reverse := g.pending.ne_reverse
    neck := Bool.noConfusion
    not_paused_and_over := by simp [hPaused] }

/-- The grown snake is one cell longer, and so is the score. -/
theorem Advances.invariant_eat {g : Game} (h : g.Invariant) (hOver : g.gameOver = false)
    (hTarget : g.target? = some g.apple) (hFree : g.apple ∉ g.snake) :
    Invariant g.fed.spawnApple := by
  obtain ⟨head, tail, hSnake, -, hOn, hAdjacent, hBack⟩ := h.of_target? hTarget
  have hBody : IsBody (g.apple :: g.snake) := by
    have hOld := h.body
    rw [hSnake] at hOld hFree ⊢
    exact hOld.cons hOn hAdjacent hFree
  obtain ⟨apple, rng, hEq, hState, hApple, hMem⟩ := spawnApple_apple (g := g.fed)
    h.rng_ne_zero hBody hOn
  have hThree := h.three_le_length
  have hScore : g.score + 1 = (g.apple :: g.snake).length - 3 := by
    rw [h.score_eq, List.length_cons]
    omega
  have hLength := hBody.length_le
  rw [hEq]
  exact {
    three_le_length := Nat.le_succ_of_le hThree
    length_le := hBody.length_le
    body := hBody
    apple_onBoard := hApple
    apple_mem_iff := hMem
    pending_ne_reverse := g.pending.ne_reverse
    neck := fun _ => ⟨g.apple, head, tail, congrArg (g.apple :: ·) hSnake, hBack⟩
    score_eq := hScore
    score_le_highScore := Nat.le_max_right _ _
    highScore_le := Nat.max_le.mpr ⟨h.highScore_le, by omega⟩
    not_paused_and_over := fun hBoth => Bool.noConfusion (hOver.symm.trans hBoth.2)
    rng_ne_zero := hState }

/-- The apple is not on the way of a move that leaves it, so it stays off the
snake. A snake that fills the board goes round without leaving a cell free. -/
theorem Advances.invariant_slide {g : Game} (h : g.Invariant) (hOver : g.gameOver = false)
    {next : Cell} (hTarget : g.target? = some next) (hApple : next ≠ g.apple)
    (hFree : next ∉ g.snake.dropLast) :
    Invariant { g with direction := g.pending, snake := next :: g.snake.dropLast } := by
  obtain ⟨head, tail, hSnake, hTail, hOn, hAdjacent, hBack⟩ := h.of_target? hTarget
  have hDrop : g.snake.dropLast = head :: tail.dropLast := by
    rw [hSnake, List.dropLast_cons_of_ne_nil hTail]
  have hBody : IsBody (next :: g.snake.dropLast) := by
    have hOld := h.body.dropLast
    rw [hDrop] at hOld hFree ⊢
    exact hOld.cons hOn hAdjacent hFree
  have hLength : (next :: g.snake.dropLast).length = g.snake.length := by
    have hThree := h.three_le_length
    rw [List.length_cons, List.length_dropLast]
    omega
  have hMem : g.apple ∈ next :: g.snake.dropLast ↔ g.snake.length = boardSize := by
    constructor
    · intro hOnSnake
      -- The head is not the apple, and the rest was on the snake before.
      rcases List.mem_cons.mp hOnSnake with hHead | hRest
      · exact absurd hHead.symm hApple
      · exact h.apple_mem_iff.mp (g.snake.dropLast_subset hRest)
    · intro hFull
      exact hBody.mem_of_length_eq (hLength.trans hFull) h.apple_onBoard
  exact { h with
    three_le_length := hLength.symm ▸ h.three_le_length
    length_le := hBody.length_le
    body := hBody
    apple_mem_iff := by rw [hLength]; exact hMem
    pending_ne_reverse := g.pending.ne_reverse
    neck := fun _ => ⟨next, head, tail.dropLast, by rw [hDrop], hBack⟩
    score_eq := by rw [hLength]; exact h.score_eq
    not_paused_and_over := by simp [hOver] }

/-- Whichever way a move goes, it keeps the rules. -/
theorem Advances.invariant {g g' : Game} (hStep : Advances g g') (h : g.Invariant)
    (hPaused : g.paused = false) (hOver : g.gameOver = false) : g'.Invariant := by
  cases hStep with
  | crash => exact invariant_crash h hPaused
  | eat hTarget hFree => exact invariant_eat h hOver hTarget hFree
  | slide hTarget hApple hFree => exact invariant_slide h hOver hTarget hApple hFree

/-- A restart takes the place of the move and of all other commands. -/
theorem tick_restart {g : Game} {code : UInt16} {number : UInt32} (hFresh : number ≠ g.lastTick)
    (hRestart : Command.ofCode? code = some .restart) :
    g.tick code number = some { g.reset with lastTick := number } := by
  unfold tick
  rw [if_neg hFresh, hRestart]
  rfl

/-- Without a restart, the command is taken in first and the move follows if the game goes on. -/
theorem tick_of_ne_restart {g : Game} {code : UInt16} {number : UInt32}
    (hFresh : number ≠ g.lastTick) (hOther : Command.ofCode? code ≠ some .restart) :
    g.tick code number =
      let obeyed := obey { g with lastTick := number } (Command.ofCode? code)
      some (if obeyed.paused || obeyed.gameOver then obeyed else obeyed.advance) := by
  unfold tick
  rw [if_neg hFresh]
  dsimp only
  split
  · next hRestart => exact absurd hRestart hOther
  · rfl

/-- What an applied tick can do. The tick number is taken over first. -/
theorem tick_cases {g g' : Game} {code : UInt16} {number : UInt32}
    (h : g.tick code number = some g') :
    number ≠ g.lastTick ∧
      ((Command.ofCode? code = some .restart ∧
          g' = { reset { g with lastTick := number } with lastTick := number }) ∨
        ∃ obeyed, obeyed = obey { g with lastTick := number } (Command.ofCode? code) ∧
          Command.ofCode? code ≠ some .restart ∧
          (((obeyed.paused = true ∨ obeyed.gameOver = true) ∧ g' = obeyed) ∨
            (obeyed.paused = false ∧ obeyed.gameOver = false ∧ g' = obeyed.advance))) := by
  have hFresh : number ≠ g.lastTick := by
    intro hReplayed
    rw [tick, if_pos hReplayed] at h
    cases h
  refine ⟨hFresh, ?_⟩
  by_cases hRestart : Command.ofCode? code = some .restart
  · rw [tick_restart hFresh hRestart] at h
    cases h
    exact Or.inl ⟨hRestart, rfl⟩
  · rw [tick_of_ne_restart hFresh hRestart] at h
    refine Or.inr ⟨_, rfl, hRestart, ?_⟩
    dsimp only at h
    split at h
    · next hStill =>
        cases h
        exact Or.inl ⟨by simpa using hStill, rfl⟩
    · next hMoves =>
        cases h
        rw [Bool.or_eq_true, not_or, Bool.not_eq_true, Bool.not_eq_true] at hMoves
        exact Or.inr ⟨hMoves.1, hMoves.2, rfl⟩

/-- One applied tick keeps the rules. With the start of a game this covers whole runs. -/
theorem Invariant.tick {g g' : Game} (h : g.Invariant) {code : UInt16} {number : UInt32}
    (hTick : g.tick code number = some g') : g'.Invariant := by
  have hTaken : Invariant { g with lastTick := number } := { h with }
  obtain ⟨-, ⟨-, rfl⟩ | ⟨obeyed, rfl, -, ⟨-, rfl⟩ | ⟨hPaused, hOver, rfl⟩⟩⟩ := tick_cases hTick
  · exact { reset_invariant hTaken.highScore_le with }
  · exact hTaken.obey _
  · exact (advances_advance _).invariant (hTaken.obey _) hPaused hOver

/-- The games that can come of a header. A replayed tick changes nothing and has
no constructor. -/
inductive Reachable (h : Header) : Game → Prop where
  | new : Reachable h (new h)
  | tick {g g' : Game} (prior : Reachable h g) (code : UInt16) (number : UInt32)
      (last : g.tick code number = some g') : Reachable h g'
  | reset {g : Game} (prior : Reachable h g) : Reachable h g.reset

/-- Whatever is played, the game follows the rules. -/
theorem Reachable.invariant {h : Header} {g : Game} (hReach : Reachable h g) : g.Invariant := by
  induction hReach with
  | new => exact new_invariant h
  | tick prior code number last ih => exact ih.tick last
  | reset prior ih => exact reset_invariant ih.highScore_le

end Game

end ImageCartridge.Snake
