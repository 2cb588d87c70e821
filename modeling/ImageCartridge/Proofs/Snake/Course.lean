import ImageCartridge.Proofs.Snake.Invariant

/-! Games under tick after tick. A tick is applied whatever the command, provided
that its number is not that of the tick before. -/
namespace ImageCartridge.Snake.Game

/-- Placing an apple takes no time. -/
theorem lastTick_spawnApple (g : Game) : g.spawnApple.lastTick = g.lastTick := by
  rw [spawnApple_eq]

theorem lastTick_reset (g : Game) : g.reset.lastTick = 0 :=
  lastTick_spawnApple _

theorem lastTick_new (h : Header) : (new h).lastTick = 0 :=
  lastTick_reset _

theorem lastTick_obey (g : Game) (command : Option Command) :
    (g.obey command).lastTick = g.lastTick := by
  rw [obey_eq]

theorem Advances.lastTick_eq {g g' : Game} (h : Advances g g') : g'.lastTick = g.lastTick := by
  cases h with
  | crash => rfl
  | eat => exact lastTick_spawnApple g.fed
  | slide => rfl

/-- A game remembers the number of the tick it applied, a restart included. -/
theorem lastTick_of_tick {g g' : Game} {code : UInt16} {number : UInt32}
    (h : g.tick code number = some g') : g'.lastTick = number := by
  obtain ⟨-, ⟨-, rfl⟩ | ⟨obeyed, rfl, -, ⟨-, rfl⟩ | ⟨-, -, rfl⟩⟩⟩ := tick_cases h
  · rfl
  · exact lastTick_obey _ _
  · rw [(advances_advance _).lastTick_eq, lastTick_obey]

/-- A tick with a fresh number is always applied, even to a game that is over. -/
theorem exists_tick {g : Game} {number : UInt32} (h : number ≠ g.lastTick) (code : UInt16) :
    ∃ g', g.tick code number = some g' := by
  by_cases hRestart : Command.ofCode? code = some .restart
  · exact ⟨_, tick_restart h hRestart⟩
  · exact ⟨_, tick_of_ne_restart h hRestart⟩

/-- The only tick that is not applied is the one before, once more. -/
theorem tick_eq_none_iff {g : Game} {code : UInt16} {number : UInt32} :
    g.tick code number = none ↔ number = g.lastTick := by
  constructor
  · intro h
    by_contra hFresh
    obtain ⟨g', hTick⟩ := exists_tick hFresh code
    cases h.symm.trans hTick
  · exact fun h => if_pos h

/-- The games that commands lead through, one tick for each. The ticks are counted
on from a number, in 32 bits. There is no such course if a tick is not applied. -/
def course? (g : Game) (number : Nat) : List UInt16 → Option (List Game)
  | [] => some []
  | code :: codes => do
      let next ← g.tick code (.ofNat number)
      let later ← next.course? (number + 1) codes
      return next :: later

theorem course?_cons {g next : Game} {number : Nat} {code : UInt16} {codes : List UInt16}
    {later : List Game} (hTick : g.tick code (.ofNat number) = some next)
    (hLater : next.course? (number + 1) codes = some later) :
    g.course? number (code :: codes) = some (next :: later) := by
  rw [course?, hTick, Option.bind_eq_bind, Option.bind_some, hLater]
  rfl

theorem length_of_course? {g : Game} {number : Nat} {codes : List UInt16} {games : List Game}
    (h : g.course? number codes = some games) : games.length = codes.length := by
  induction codes generalizing g number games with
  | nil =>
      cases h
      rfl
  | cons code codes ih =>
      obtain ⟨next, _, h⟩ := Option.bind_eq_some_iff.mp h
      obtain ⟨later, hLater, h⟩ := Option.bind_eq_some_iff.mp h
      cases h
      rw [List.length_cons, List.length_cons, ih hLater]

end ImageCartridge.Snake.Game
