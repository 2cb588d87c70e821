import ImageCartridge.Proofs.Snake.Restart

/-! When a move is possible. The rules look at the cell in front of the head and at the part
of the snake that will still be there. That comes to what a player would say: the moved snake
must lie on the board and must not take a cell twice. -/
namespace ImageCartridge.Snake.Game

/-- The snake with its head on a cell. It leaves its last cell, unless it eats. -/
def moved (g : Game) (next : Cell) : List Cell :=
  if next = g.apple then next :: g.snake else (next :: g.snake).dropLast

/-- A step in a direction leads to a cell of the board, and the moved snake has no cell
twice. -/
structure CanMove (g : Game) (d : Direction) (next : Cell) : Prop where
  beside : ∃ head, g.head? = some head ∧ head.IsBeside d next
  onBoard : next.onBoard = true
  nodup : (g.moved next).Nodup

section Move

variable {g : Game} {next : Cell}

theorem moved_apple (g : Game) : g.moved g.apple = g.apple :: g.snake :=
  if_pos rfl

theorem moved_of_ne_apple (hSnake : g.snake ≠ []) (hApple : next ≠ g.apple) :
    g.moved next = next :: g.snake.dropLast := by
  rw [moved, if_neg hApple, List.dropLast_cons_of_ne_nil hSnake]

/-- To look at the cells that block a move is as good as to look at the moved snake. -/
theorem nodup_moved_iff (hBody : IsBody g.snake) (hSnake : g.snake ≠ []) :
    (g.moved next).Nodup ↔ next ∉ g.blocking (next = g.apple) := by
  by_cases hApple : next = g.apple
  · subst hApple
    simp [moved_apple, blocking, hBody.nodup]
  · simp [moved_of_ne_apple hSnake hApple, blocking, hApple, hBody.dropLast.nodup]

/-- The two checks of a move, in front of the head and along the body, decide whether it is
possible. -/
theorem canMove_iff (hBody : IsBody g.snake) (hSnake : g.snake ≠ []) {d : Direction} :
    g.CanMove d next ↔
      g.head?.bind (fun c => c.neighbour? d) = some next ∧
        next ∉ g.blocking (next = g.apple) := by
  rw [Option.bind_eq_some_iff, ← nodup_moved_iff hBody hSnake]
  constructor
  · rintro ⟨⟨head, hHead, hBeside⟩, hOn, hNodup⟩
    exact ⟨⟨head, hHead, Cell.neighbour?_eq_some_iff.mpr ⟨hOn, hBeside⟩⟩, hNodup⟩
  · rintro ⟨⟨head, hHead, hNext⟩, hNodup⟩
    obtain ⟨hOn, hBeside⟩ := Cell.neighbour?_eq_some_iff.mp hNext
    exact ⟨⟨head, hHead, hBeside⟩, hOn, hNodup⟩

theorem advance_of_canMove (hBody : IsBody g.snake) (hSnake : g.snake ≠ [])
    (h : g.CanMove g.pending next) :
    g.advance = moveTo { g with direction := g.pending } next := by
  obtain ⟨hNext, hFree⟩ := (canMove_iff hBody hSnake).mp h
  have hTarget : g.target? = some next := hNext
  rw [advance_eq, hTarget, Option.elim_some, if_neg hFree]

/-- A possible move to any place but the apple's changes the snake and nothing else. -/
theorem advance_slide (hBody : IsBody g.snake) (hSnake : g.snake ≠ [])
    (h : g.CanMove g.pending next) (hApple : next ≠ g.apple) :
    g.advance = { g with direction := g.pending, snake := g.moved next } := by
  rw [advance_of_canMove hBody hSnake h, moveTo, if_neg hApple, moved_of_ne_apple hSnake hApple]

/-- A snake that eats grows onto the apple, and the next one comes off the grown snake. -/
theorem advance_eat (hBody : IsBody g.snake) (hSnake : g.snake ≠ [])
    (h : g.CanMove g.pending g.apple) : ∃ apple rng,
      g.advance = { g with
        direction := g.pending
        snake := g.moved g.apple
        score := g.score + 1
        highScore := max g.highScore (g.score + 1)
        apple, rng } ∧
      apple.onBoard = true ∧
      (apple ∉ g.advance.snake ∨
        (apple = g.apple ∧ ∀ c : Cell, c.onBoard = true → c ∈ g.advance.snake)) ∧
      Respawns g.advance.snake g.apple g.rng apple rng := by
  have hFed : g.advance = g.fed.spawnApple := by
    rw [advance_of_canMove hBody hSnake h, moveTo, if_pos rfl, fed]
  have hGrown : g.advance.snake = g.fed.snake := by rw [hFed, spawnApple_eq]
  have hRespawns := spawnApple_respawns g.fed
  have hPlace := hRespawns.free_or_full
  rw [hGrown]
  refine ⟨g.fed.spawnApple.apple, g.fed.spawnApple.rng, ?_, ?_, hPlace.imp And.right id, hRespawns⟩
  · rw [hFed, spawnApple_eq, moved_apple]
    rfl
  · rcases hPlace with ⟨hBoard, -⟩ | ⟨hStays, -⟩
    · exact hBoard
    · rw [hStays]
      exact h.onBoard

/-- A move that is not possible ends the game on the spot. -/
theorem advance_of_not_canMove (hBody : IsBody g.snake) (hSnake : g.snake ≠ [])
    (h : ∀ next, ¬ g.CanMove g.pending next) :
    g.advance = { g with direction := g.pending, gameOver := true } := by
  rw [advance_eq]
  cases hTarget : g.target? with
  | none => rfl
  | some next =>
      by_cases hBlocked : next ∈ g.blocking (next = g.apple)
      · exact if_pos hBlocked
      · exact absurd ((canMove_iff hBody hSnake).mpr ⟨hTarget, hBlocked⟩) (h next)

end Move

/-- A tick that moves the snake turns it first. -/
theorem tick_eq_advance {g : Game} {code : UInt16} {number : UInt32}
    (hFresh : number ≠ g.lastTick) (hOther : Command.ofCode? code ≠ some .restart)
    (hPaused : g.pausedAfter (Command.ofCode? code) = false) (hOver : g.gameOver = false) :
    g.tick code number = some (advance { g with
      lastTick := number, pending := g.heading (Command.ofCode? code), paused := false }) := by
  have hObey : obey { g with lastTick := number } (Command.ofCode? code) = { g with
      lastTick := number, pending := g.heading (Command.ofCode? code), paused := false } := by
    rw [obey_eq, ← hPaused]
    rfl
  rw [tick_of_ne_restart hFresh hOther, hObey]
  simp [hOver]

/-- A step ends the game exactly if the move is impossible. Then nothing else happens but
the turn. Otherwise the snake moves, and where the apple was it scores and a new apple
comes: off the moved snake, at a place drawn from the generator or else found by a search,
and only on a full board at the place of the old one. -/
theorem tick_ends_iff_impossible {h : Header} {g : Game} (hReach : Reachable h g)
    {code : UInt16} {number : UInt32} (hFresh : number ≠ g.lastTick) (hOther : code ≠ 6)
    (hPaused : g.pausedAfter (Command.ofCode? code) = false) (hOver : g.gameOver = false) :
    let d := g.heading (Command.ofCode? code)
    let turned := { g with lastTick := number, direction := d, pending := d, paused := false }
    ∃ g', g.tick code number = some g' ∧ g'.direction = d ∧
      (g'.gameOver = true ↔ ∀ next, ¬ g.CanMove d next) ∧
      (∀ next, g.CanMove d next → next ≠ g.apple → g' = { turned with snake := g.moved next }) ∧
      (g.CanMove d g.apple → ∃ apple rng,
        g' = { turned with
          snake := g.moved g.apple
          score := g.score + 1
          highScore := max g.highScore (g.score + 1)
          apple, rng } ∧
        apple.onBoard = true ∧
        (apple ∉ g'.snake ∨ (apple = g.apple ∧ ∀ c : Cell, c.onBoard = true → c ∈ g'.snake)) ∧
        Respawns g'.snake g.apple g.rng apple rng) ∧
      ((∀ next, ¬ g.CanMove d next) → g' = { turned with gameOver := true }) := by
  intro d turned
  have hBody := hReach.invariant.body
  have hSnake : g.snake ≠ [] := by
    have hLength := hReach.invariant.three_le_length
    intro hNil
    rw [hNil] at hLength
    exact absurd hLength (by decide)
  have hCommand : Command.ofCode? code ≠ some .restart :=
    fun hRestart => hOther (Command.code_of_ofCode? hRestart).symm
  let ready : Game := { g with lastTick := number, pending := d, paused := false }
  -- Neither the turn nor the number has a part in what makes a move possible.
  have hReady : ∀ next, g.CanMove d next ↔ ready.CanMove ready.pending next := fun _ =>
    ⟨fun h => ⟨h.beside, h.onBoard, h.nodup⟩, fun h => ⟨h.beside, h.onBoard, h.nodup⟩⟩
  refine ⟨ready.advance, tick_eq_advance hFresh hCommand hPaused hOver, ?_⟩
  generalize hAfter : ready.advance = g'
  have hSlide : ∀ next, g.CanMove d next → next ≠ g.apple →
      g' = { turned with snake := g.moved next } := by
    intro next hMove hApple
    rw [← hAfter]
    exact advance_slide (g := ready) hBody hSnake ((hReady next).mp hMove) hApple
  have hEat : g.CanMove d g.apple → ∃ apple rng,
      g' = { turned with
        snake := g.moved g.apple
        score := g.score + 1
        highScore := max g.highScore (g.score + 1)
        apple, rng } ∧
      apple.onBoard = true ∧
      (apple ∉ g'.snake ∨ (apple = g.apple ∧ ∀ c : Cell, c.onBoard = true → c ∈ g'.snake)) ∧
      Respawns g'.snake g.apple g.rng apple rng := by
    intro hMove
    rw [← hAfter]
    exact advance_eat (g := ready) hBody hSnake ((hReady g.apple).mp hMove)
  have hEnd : (∀ next, ¬ g.CanMove d next) → g' = { turned with gameOver := true } := by
    intro hNone
    rw [← hAfter]
    exact advance_of_not_canMove (g := ready) hBody hSnake
      fun next hMove => hNone next ((hReady next).mpr hMove)
  by_cases hNone : ∀ next, ¬ g.CanMove d next
  · refine ⟨?_, ?_, hSlide, hEat, hEnd⟩ <;> rw [hEnd hNone]
    exact iff_of_true rfl hNone
  · have hGoesOn : g'.direction = d ∧ g'.gameOver = false := by
      obtain ⟨next, hMove⟩ := not_forall_not.mp hNone
      by_cases hApple : next = g.apple
      · subst hApple
        obtain ⟨apple, rng, hEaten, -⟩ := hEat hMove
        rw [hEaten]
        exact ⟨rfl, hOver⟩
      · rw [hSlide next hMove hApple]
        exact ⟨rfl, hOver⟩
    exact ⟨hGoesOn.1, iff_of_false (by simp [hGoesOn.2]) hNone, hSlide, hEat, hEnd⟩

/-- The move to the first apple, which is possible, and the move over the upper edge that
comes of twelve moves up, which is not. -/
theorem tick_ends_iff_impossible_appleCalls :
    (∃ g g', Reachable {} g ∧ 10 ≠ g.lastTick ∧ g.CanMove .left g.apple ∧
      g.tick 3 10 = some g' ∧ g'.gameOver = false ∧ g'.snake = g.apple :: g.snake ∧
      g'.score = 1 ∧ Respawns g'.snake g.apple g.rng g'.apple g'.rng) ∧
    ∃ g g', Reachable {} g ∧ 13 ≠ g.lastTick ∧ (∀ next, ¬ g.CanMove .up next) ∧
      g.tick 0 13 = some g' ∧ g'.gameOver = true ∧ g'.snake = g.snake := by
  constructor
  · have hPlayed : ∃ g, Reachable {} g ∧ 10 ≠ g.lastTick ∧
        g.pausedAfter (Command.ofCode? 3) = false ∧ g.gameOver = false ∧
        g.heading (Command.ofCode? 3) = .left ∧ g.CanMove .left g.apple ∧ g.score = 0 :=
      ⟨_, .replay .new (appleCalls.take 9), by decide, by decide, by decide, by decide,
        ⟨⟨⟨6, 7⟩, rfl, rfl, rfl⟩, by decide, by decide⟩, by decide⟩
    obtain ⟨g, hReach, hFresh, hPaused, hOver, hLeft, hMove, hScore⟩ := hPlayed
    have hOther : (3 : UInt16) ≠ 6 := by decide
    obtain ⟨g', hTick, -, -, -, hEat, -⟩ :=
      tick_ends_iff_impossible hReach hFresh hOther hPaused hOver
    obtain ⟨apple, rng, rfl, -, -, hRespawns⟩ := hEat (hLeft.symm ▸ hMove)
    exact ⟨g, _, hReach, hFresh, hMove, hTick, hOver, moved_apple g, congrArg (· + 1) hScore,
      hRespawns⟩
  · have hPlayed : ∃ g, Reachable {} g ∧ 13 ≠ g.lastTick ∧
        g.pausedAfter (Command.ofCode? 0) = false ∧ g.gameOver = false ∧
        g.heading (Command.ofCode? 0) = .up ∧ g.head? = some ⟨10, 0⟩ :=
      ⟨_, .replay .new ((List.range 12).map fun i => (0, .ofNat (i + 1))), by decide, by decide,
        by decide, by decide, by decide⟩
    obtain ⟨g, hReach, hFresh, hPaused, hOver, hUp, hTop⟩ := hPlayed
    have hOther : (0 : UInt16) ≠ 6 := by decide
    have hEdge : ∀ next, ¬ g.CanMove .up next := by
      rintro next ⟨⟨head, hHead, -, hAbove⟩, -, -⟩
      obtain rfl := Option.some.inj (hTop.symm.trans hHead)
      exact Nat.succ_ne_zero _ hAbove
    obtain ⟨g', hTick, -, -, -, -, hEnd⟩ :=
      tick_ends_iff_impossible hReach hFresh hOther hPaused hOver
    obtain rfl := hEnd (hUp.symm ▸ hEdge)
    exact ⟨g, _, hReach, hFresh, hEdge, hTick, rfl, rfl⟩

end ImageCartridge.Snake.Game
