import ImageCartridge.Proofs.Player.Input

/-! A player at its frontend. A run does with player and observer what the entries of the
script ask for, one after the other, until one of them quits. Nothing else of the frontend
counts but its screen, and the view of the player is kept in step with that. -/
namespace ImageCartridge.Player

open Snake

/-- The call an entry of a script asks for. Quitting asks for none. -/
def Call.ofInput? : Option Input → Option Call
  | none => some .step
  | some (.command code) => some (.press code)
  | some (.touch x y) => some (.touch x y)
  | some (.resize width height) => some (.setViewport width.toFloat32 height.toFloat32)
  | some .quit => none

/-- The calls a script asks for until it quits. -/
def Call.ofScript : List (Option Input) → List Call
  | [] => []
  | entry :: rest =>
      match ofInput? entry with
      | some call => call :: ofScript rest
      | none => []

def replies (s : Player × Observer) : List Call → List HostCommand
  | [] => []
  | call :: later => (s.1.reply call).toList ++ replies (act s call) later

/-- A script that plays to its end. -/
def QuitFree (script : List (Option Input)) : Prop :=
  ∀ entry ∈ script, entry ≠ some .quit

def screenAfter (screen : UInt16 × UInt16) : Option Input → UInt16 × UInt16
  | some (.resize width height) => (width, height)
  | _ => screen

/-- Quitting is the only entry that asks for no call. -/
theorem eq_quit_of_ofInput? {entry : Option Input} (h : Call.ofInput? entry = none) :
    entry = some .quit := by
  cases entry with
  | none => cases h
  | some input =>
      cases input with
      | quit => rfl
      | command | touch | resize => cases h

/-- A script that plays to its end begins with a call, and what follows it plays to its end too. -/
theorem QuitFree.exists_call {entry : Option Input} {rest : List (Option Input)}
    (h : QuitFree (entry :: rest)) :
    (∃ call, Call.ofInput? entry = some call) ∧ QuitFree rest := by
  refine ⟨?_, fun other hOther => h other (List.mem_cons_of_mem _ hOther)⟩
  cases hCall : Call.ofInput? entry with
  | some call => exact ⟨call, rfl⟩
  | none => exact absurd (eq_quit_of_ofInput? hCall) (h entry List.mem_cons_self)

section Loop

variable {p : Player} {observer : Observer} {screen : UInt16 × UInt16}
  {hosts : List HostCommand}

theorem loop_nil : loop ⟨p, ⟨observer, [], screen⟩, hosts⟩ = ⟨p, ⟨observer, [], screen⟩, hosts⟩ := by
  rw [loop]

theorem loop_quit (rest : List (Option Input)) :
    loop ⟨p, ⟨observer, some .quit :: rest, screen⟩, hosts⟩ =
      ⟨p, ⟨observer, rest, screen⟩, hosts⟩ := by
  rw [loop]
  rfl

/-- An entry that does not quit is one call, and its reply goes to the host. -/
theorem loop_cons {entry : Option Input} {call : Call} (h : Call.ofInput? entry = some call)
    (rest : List (Option Input)) :
    loop ⟨p, ⟨observer, entry :: rest, screen⟩, hosts⟩ =
      loop ⟨(act (p, observer) call).1,
        ⟨(act (p, observer) call).2, rest, screenAfter screen entry⟩,
        hosts ++ (p.reply call).toList⟩ := by
  rw [loop]
  cases entry with
  | none =>
      cases h
      rw [reply, Option.toList_none, List.append_nil]
      rfl
  | some input =>
      cases input with
      | quit => cases h
      | command | touch | resize =>
          cases h
          rfl

/-- The loop is the fold of the calls its script asks for. -/
theorem loop_eq (script : List (Option Input)) :
    let s := loop ⟨p, ⟨observer, script, screen⟩, hosts⟩
    (s.player, s.frontend.observer) = (Call.ofScript script).foldl act (p, observer) ∧
      s.hosts = hosts ++ replies (p, observer) (Call.ofScript script) := by
  induction script generalizing p observer screen hosts with
  | nil =>
      rw [loop_nil]
      exact ⟨rfl, (List.append_nil _).symm⟩
  | cons entry rest ih =>
      cases hCall : Call.ofInput? entry with
      | none =>
          obtain rfl := eq_quit_of_ofInput? hCall
          rw [loop_quit]
          exact ⟨rfl, (List.append_nil _).symm⟩
      | some call =>
          have hScript : Call.ofScript (entry :: rest) = call :: Call.ofScript rest := by
            simp only [Call.ofScript, hCall]
          rw [loop_cons hCall, hScript, List.foldl_cons, replies, ← List.append_assoc]
          exact ih

/-- What the host has been handed before a loop plays no part in it. -/
theorem loop_hosts (earlier : List HostCommand) (script : List (Option Input)) :
    loop ⟨p, ⟨observer, script, screen⟩, earlier ++ hosts⟩ =
      { loop ⟨p, ⟨observer, script, screen⟩, hosts⟩ with
        hosts := earlier ++ (loop ⟨p, ⟨observer, script, screen⟩, hosts⟩).hosts } := by
  induction script generalizing p observer screen hosts with
  | nil => simp only [loop_nil]
  | cons entry rest ih =>
      cases hCall : Call.ofInput? entry with
      | none =>
          obtain rfl := eq_quit_of_ofInput? hCall
          simp only [loop_quit]
      | some call => rw [loop_cons hCall, loop_cons hCall, List.append_assoc, ih]

/-- A script that does not quit can be cut anywhere. -/
theorem loop_append {first : List (Option Input)} (hFirst : QuitFree first)
    (second : List (Option Input)) :
    loop ⟨p, ⟨observer, first ++ second, screen⟩, hosts⟩ =
      let s := loop ⟨p, ⟨observer, first, screen⟩, hosts⟩
      loop ⟨s.player, ⟨s.frontend.observer, second, s.frontend.screen⟩, s.hosts⟩ := by
  induction first generalizing p observer screen hosts with
  | nil =>
      rw [loop_nil]
      rfl
  | cons entry first ih =>
      obtain ⟨⟨call, hCall⟩, hRest⟩ := hFirst.exists_call
      rw [List.cons_append, loop_cons hCall, loop_cons hCall]
      exact ih hRest

/-- A script without quitting is used up. -/
theorem script_loop {script : List (Option Input)} (h : QuitFree script) :
    (loop ⟨p, ⟨observer, script, screen⟩, hosts⟩).frontend.script = [] := by
  induction script generalizing p observer screen hosts with
  | nil => rw [loop_nil]
  | cons entry rest ih =>
      obtain ⟨⟨call, hCall⟩, hRest⟩ := h.exists_call
      rw [loop_cons hCall]
      exact ih hRest

end Loop

theorem view_act (s : Player × Observer) (call : Call) :
    (act s call).1.view = call.view s.1.view := by
  rcases call.eq_step_or with rfl | hCall
  · obtain ⟨p, observer⟩ := s
    cases hMode : p.mode with
    | inert cause => rw [act_step_of_inert hMode, Call.view]
    | interactive cartridge machine => rw [act_step_of_interactive hMode, Call.view]
  · obtain ⟨queued, hAct⟩ := exists_act_eq s hCall
    rw [hAct]

def InStep (p : Player) (screen : UInt16 × UInt16) : Prop :=
  p.view = .fit screen.1.toFloat32 screen.2.toFloat32

/-- A call keeps player and screen in step, since only the entry that resizes the screen
asks for another view. -/
theorem InStep.act {p : Player} {screen : UInt16 × UInt16} (h : p.InStep screen)
    {entry : Option Input} {call : Call} (hCall : Call.ofInput? entry = some call)
    (observer : Observer) :
    InStep (Player.act (p, observer) call).1 (screenAfter screen entry) := by
  rw [InStep, view_act]
  cases entry with
  | none =>
      cases hCall
      exact h
  | some input =>
      cases input with
      | quit => cases hCall
      | resize =>
          cases hCall
          rfl
      | command | touch =>
          cases hCall
          exact h

/-- The canvas stays fitted to the screen, however often that changes. -/
theorem InStep.loop {s : Session} (h : s.player.InStep s.frontend.screen) :
    (Player.loop s).player.InStep (Player.loop s).frontend.screen := by
  obtain ⟨p, ⟨observer, script, screen⟩, hosts⟩ := s
  induction script generalizing p observer screen hosts with
  | nil =>
      rw [loop_nil]
      exact h
  | cons entry rest ih =>
      cases hCall : Call.ofInput? entry with
      | none =>
          obtain rfl := eq_quit_of_ofInput? hCall
          rw [loop_quit]
          exact h
      | some call =>
          rw [loop_cons hCall]
          exact ih _ _ _ _ (h.act hCall observer)

/-- Fitting the canvas to the screen it is fitted to changes nothing. -/
theorem InStep.setViewport_eq {p : Player} {screen : UInt16 × UInt16} (h : p.InStep screen) :
    p.setViewport screen.1.toFloat32 screen.2.toFloat32 = p := by
  rw [setViewport, ← h]

theorem run_eq_loop (p : Player) (f : Frontend) (script : List (Option Input)) :
    p.run { f with script } =
      loop ⟨p.setViewport f.screen.1.toFloat32 f.screen.2.toFloat32,
        ⟨f.observer, script, f.screen⟩, []⟩ := rfl

/-- A run follows its script. Player and frames are those of fitting the canvas to the
screen and then making the calls of the script one by one, and the host gets their replies.
Where the script quits, the rest of it stays queued and does nothing. A script that does
not quit can be played in two runs as well as in one. -/
theorem run_followsScript (p : Player) (f : Frontend) :
    (let calls := Call.ofScript f.script
      let start := (p.setViewport f.screen.1.toFloat32 f.screen.2.toFloat32, f.observer)
      ((p.run f).player, (p.run f).frontend.observer) = calls.foldl act start ∧
        (p.run f).hosts = replies start calls) ∧
    (∀ entries later, QuitFree entries →
      p.run { f with script := entries ++ some .quit :: later } =
        let s := p.run { f with script := entries }
        { s with frontend := { s.frontend with script := later } }) ∧
    ∀ first second, QuitFree first →
      let one := p.run { f with script := first }
      let two := one.player.run (one.frontend.queue second)
      let whole := p.run { f with script := first ++ second }
      two.player = whole.player ∧ two.frontend = whole.frontend ∧
        one.hosts ++ two.hosts = whole.hosts := by
  refine ⟨loop_eq f.script, ?_, ?_⟩
  · intro entries later hEntries
    simp only [run_eq_loop, loop_append hEntries, loop_quit]
  · intro first second hFirst one two whole
    have hInStep : one.player.InStep one.frontend.screen := InStep.loop rfl
    have hEmpty : one.frontend.script = [] := script_loop hFirst
    -- The view the second run begins with is the one the first has left.
    have hTwo : two =
        loop ⟨one.player, ⟨one.frontend.observer, second, one.frontend.screen⟩, []⟩ := by
      calc two
        _ = one.player.run { one.frontend with script := second } := by
            simp only [two, Frontend.queue, hEmpty, List.nil_append]
        _ = _ := by rw [run_eq_loop, hInStep.setViewport_eq]
    have hWhole : whole = loop ⟨one.player,
        ⟨one.frontend.observer, second, one.frontend.screen⟩, one.hosts ++ []⟩ := by
      rw [List.append_nil]
      exact loop_append hFirst second
    rw [hWhole, loop_hosts, ← hTwo]
    exact ⟨rfl, rfl, rfl⟩

/-- The commands of the host come in order from both runs, and not from behind the end. -/
theorem run_followsScript_plainFile :
    let p := (openFile (Cartridge.plainFile Machine.snakeProgram) {} .discard).1
    let first := [none, some (.command 8), some (.resize 80 24), some (.command 3)]
    let second := [none, some (.command 9)]
    QuitFree first ∧
      (p.run (.ofScript (first ++ some .quit :: second))).frontend.script = second ∧
      let one := p.run (.ofScript first)
      let two := one.player.run (one.frontend.queue second)
      two.frontend = (p.run (.ofScript (first ++ second))).frontend ∧
        one.hosts ++ two.hosts = [.capture, .load] := by
  intro p first second
  have hFirst : QuitFree first := by
    simp [QuitFree, first]
  obtain ⟨⟨-, hHosts⟩, -⟩ := run_followsScript p (.ofScript (first ++ second))
  obtain ⟨-, hQuit, hCut⟩ := run_followsScript p (.ofScript [])
  obtain ⟨-, hFrontend, hBoth⟩ := hCut first second hFirst
  refine ⟨hFirst, congrArg (fun s => s.frontend.script) (hQuit first second hFirst), hFrontend, ?_⟩
  exact hBoth.trans (hHosts.trans rfl)

end ImageCartridge.Player
