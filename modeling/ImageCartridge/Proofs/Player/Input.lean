import ImageCartridge.Proofs.Cartridge.File
import ImageCartridge.Proofs.Machine.Reachable
import ImageCartridge.Proofs.Player.Calls

/-! What becomes of the input of a player. A command is handed back to the host, is
dropped, or waits for the next frame, which is the only one that sees it. -/
namespace ImageCartridge

open Snake

def HostCommand.code : HostCommand → UInt16
  | download => 7
  | capture => 8
  | load => 9

/-- The codes of the host and those of the game have none in common. -/
theorem HostCommand.not_isGameplay_code (host : HostCommand) : ¬ IsGameplay host.code := by
  cases host <;> decide

theorem Command.code_of_host? {command : Command} {host : HostCommand}
    (h : command.host? = some host) : command.code = host.code := by
  cases command <;> cases h <;> rfl

/-- Every command of the host can be asked for by its code. -/
theorem HostCommand.exists_host? (host : HostCommand) :
    ∃ command, Command.ofCode? host.code = some command ∧ command.host? = some host := by
  cases host with
  | download => exact ⟨.download, rfl, rfl⟩
  | capture => exact ⟨.capture, rfl, rfl⟩
  | load => exact ⟨.load, rfl, rfl⟩

namespace Player

theorem exists_mode_of_machine? {p : Player} {machine : Machine}
    (h : p.machine? = some machine) : ∃ cartridge, p.mode = .interactive cartridge machine := by
  cases hMode : p.mode with
  | inert cause => simp [machine?, hMode] at h
  | interactive cartridge other =>
      obtain rfl : other = machine := by simpa [machine?, hMode] using h
      exact ⟨cartridge, rfl⟩

/-- A command of the host is handed back if its code was pressed, and on no other occasion. -/
theorem press_snd_eq_some_iff {p : Player} {code : UInt16} {host : HostCommand} :
    (p.press code).2 = some host ↔ code = host.code := by
  constructor
  · intro h
    unfold press at h
    split at h
    · cases h
    · next command hCommand =>
        rw [← Command.code_of_ofCode? hCommand]
        split at h
        · next hHost =>
            cases h
            exact Command.code_of_host? hHost
        · cases h
  · rintro rfl
    obtain ⟨command, hCommand, hHost⟩ := host.exists_host?
    simp only [press, hCommand, hHost]

/-- Whatever is pressed, only the queue can change. -/
theorem exists_press_eq (p : Player) (code : UInt16) :
    ∃ queued, (p.press code).1 = { p with queued } := by
  by_cases hCode : IsGameplay code
  · cases hOn : p.isInteractive with
    | true =>
        obtain ⟨command, -, hPress⟩ := press_of_isGameplay hOn hCode
        exact ⟨some command, by rw [hPress]⟩
    | false =>
        obtain ⟨command, hCommand, hHost⟩ := isGameplay_iff.mp hCode
        exact ⟨p.queued, by simp [press, hCommand, hHost, hOn]⟩
  · exact ⟨p.queued, p.press_of_not_isGameplay hCode⟩

def named (p : Player) (call : Call) : Option UInt16 :=
  call.code? (p.cartridge?.bind Cartridge.truthTable) p.view

/-- What a call hands back to the host. -/
def reply (p : Player) : Call → Option HostCommand
  | .press code => (p.press code).2
  | .touch x y => (p.touch x y).2
  | .setViewport _ _ | .step => none

theorem named_touch (p : Player) (x y : Scalar) : p.named (.touch x y) = p.codeAt? x y := by
  cases hCartridge : p.cartridge? <;> simp [named, Call.code?, codeAt?, hCartridge]

/-- The host gets the commands that are its own, and only those. -/
theorem reply_eq_some_iff {p : Player} {call : Call} {host : HostCommand} :
    p.reply call = some host ↔ p.named call = some host.code := by
  cases call with
  | press code => simp [reply, named, Call.code?, press_snd_eq_some_iff]
  | touch x y =>
      rw [reply, named_touch, touch]
      cases hCode : p.codeAt? x y with
      | none => simp
      | some code => simp [press_snd_eq_some_iff]
  | setViewport | step => simp [reply, named, Call.code?]

/-- A call that asks something of the host leaves the player as it is. -/
theorem act_of_reply {s : Player × Observer} {call : Call} {host : HostCommand}
    (h : s.1.reply call = some host) : act s call = s := by
  have hPress : (s.1.press host.code).1 = s.1 :=
    s.1.press_of_not_isGameplay host.not_isGameplay_code
  have hCode := reply_eq_some_iff.mp h
  cases call with
  | press code =>
      obtain rfl : code = host.code := by simpa [named, Call.code?] using hCode
      rw [act, hPress]
  | touch x y =>
      rw [named_touch] at hCode
      simp only [act, touch, hCode, hPress]
  | setViewport | step => cases hCode

/-- A call that lets no frame pass changes at most the view and the queue, also if there
is no program to run. -/
theorem exists_act_eq (s : Player × Observer) {call : Call} (hCall : call.isStep = false) :
    ∃ queued, act s call = ({ s.1 with view := call.view s.1.view, queued }, s.2) := by
  have hPress (code : UInt16) : ∃ queued, act s (.press code) = ({ s.1 with queued }, s.2) := by
    obtain ⟨queued, hPress⟩ := s.1.exists_press_eq code
    exact ⟨queued, by rw [act, hPress]⟩
  cases call with
  | step => cases hCall
  | setViewport width height => exact ⟨s.1.queued, rfl⟩
  | press code => exact hPress code
  | touch x y =>
      cases hCode : s.1.codeAt? x y with
      | none => exact ⟨s.1.queued, by simp only [act, touch, hCode, Call.view]⟩
      | some code =>
          have hTouch : act s (.touch x y) = act s (.press code) := by
            simp only [act, touch, hCode]
          rw [hTouch]
          exact hPress code

/-- Between two steps the machine and the observer are not touched. -/
theorem machine?_act (s : Player × Observer) {call : Call} (hCall : call.isStep = false) :
    (act s call).1.machine? = s.1.machine? ∧ (act s call).2 = s.2 := by
  obtain ⟨queued, hAct⟩ := exists_act_eq s hCall
  rw [hAct]
  exact ⟨rfl, rfl⟩

/-- A step runs the machine with the queued command and the next tick, and leaves nothing
queued. -/
theorem act_step_of_interactive {p : Player} {cartridge : Cartridge} {machine : Machine}
    (hMode : p.mode = .interactive cartridge machine) (observer : Observer) :
    act (p, observer) .step =
      let run := { machine with registers := { machine.registers with
        cmd := (p.queued.map Command.code).getD 0, tick := p.tick + 1 } }.runFrame
          p.limits.cyclesPerFrame observer
      ({ p with mode := .interactive cartridge run.machine, tick := p.tick + 1, queued := none },
        run.observer) := by
  simp only [act, step, hMode]

/-- A plain image lets time pass without noticing. -/
theorem act_step_of_inert {p : Player} {cause : CartridgeError} (hMode : p.mode = .inert cause)
    (observer : Observer) : act (p, observer) .step = (p, observer) := by
  simp only [act, step, hMode]

/-- A player between two calls: its buttons are those of a table, and these codes have
been queued since the last step. -/
structure Awaiting (limits : Limits) (table : Option TruthTable) (view : View)
    (since : List UInt16) (p : Player) : Prop where
  limits_eq : p.limits = limits
  table_eq : p.cartridge?.bind Cartridge.truthTable = table
  view_eq : p.view = view
  queued_eq : p.isInteractive = true → p.queued.map Command.code = since.getLast?

section Awaiting

variable {limits : Limits} {table : Option TruthTable} {view : View} {since : List UInt16}
  {s : Player × Observer}

/-- A player that was just opened waits with an empty queue. -/
theorem awaiting_openFile (jpeg : Bytes) (limits : Limits) (observer : Observer) :
    Awaiting limits
      ((Cartridge.readFrom jpeg limits.maxCartridgeBytes).toOption.bind Cartridge.truthTable)
      .identity [] (openFile jpeg limits observer).1 := by
  cases hLoad : Cartridge.readFrom jpeg limits.maxCartridgeBytes with
  | error | ok => constructor <;> simp [openFile, hLoad, cartridge?, Except.toOption]

/-- A call that is no step adds the code it queues to those that wait. -/
theorem Awaiting.act_of_not_step (h : Awaiting limits table view since s.1) {call : Call}
    (hCall : call.isStep = false) :
    Awaiting limits table (call.view view) (since ++ (call.queues? table view).toList)
      (act s call).1 := by
  obtain ⟨p, observer⟩ := s
  obtain ⟨hLimits, hTable, rfl, hQueue⟩ := h
  cases hMode : p.mode with
  -- Codes still count as queued then, but there will be no frame for them.
  | inert cause =>
      obtain ⟨queued, hAct⟩ := exists_act_eq (p, observer) hCall
      rw [hAct]
      exact ⟨hLimits, hTable, rfl, fun hOn => by simp [isInteractive, hMode] at hOn⟩
  | interactive cartridge machine =>
      obtain ⟨queued, hAct, hQueued⟩ := Player.act_of_not_step hMode observer hCall
      have hButtons : cartridge.truthTable = table := by simpa [cartridge?, hMode] using hTable
      rw [hButtons, hQueue (by simp [isInteractive, hMode])] at hQueued
      rw [hAct]
      exact ⟨hLimits, hTable, rfl, fun _ => by rw [hQueued, getLast?_append_toList]⟩

/-- Behind a step the codes are counted anew. -/
theorem Awaiting.act_step (h : Awaiting limits table view since s.1) :
    Awaiting limits table view [] (act s .step).1 := by
  obtain ⟨p, observer⟩ := s
  obtain ⟨hLimits, hTable, hView, -⟩ := h
  cases hMode : p.mode with
  | inert cause =>
      rw [act_step_of_inert hMode]
      exact ⟨hLimits, hTable, hView, fun hOn => by simp [isInteractive, hMode] at hOn⟩
  | interactive cartridge machine =>
      rw [act_step_of_interactive hMode]
      refine ⟨hLimits, ?_, hView, fun _ => rfl⟩
      simpa [cartridge?, hMode] using hTable

/-- The machine is run with the last code since the step before. -/
theorem Awaiting.machine?_act_step (h : Awaiting limits table view since s.1)
    {machine : Machine} (hMachine : s.1.machine? = some machine) :
    let run := { machine with registers := { machine.registers with
      cmd := since.getLast?.getD 0, tick := s.1.tick + 1 } }.runFrame limits.cyclesPerFrame s.2
    (act s .step).1.machine? = some run.machine ∧ (act s .step).1.queued = none := by
  obtain ⟨p, observer⟩ := s
  obtain ⟨cartridge, hMode⟩ := exists_mode_of_machine? hMachine
  have hQueued : p.queued.map Command.code = since.getLast? :=
    h.queued_eq (by rw [isInteractive, hMode])
  rw [act_step_of_interactive hMode, h.limits_eq, hQueued]
  exact ⟨rfl, rfl⟩

/-- Whatever is called, the codes queued since the last step are those that count for
the commands to come. -/
theorem Awaiting.foldl_act (h : Awaiting limits table view since s.1) (calls : List Call) :
    ∃ view' since', Awaiting limits table view' since' (calls.foldl act s).1 ∧
      ∀ later, commands table view since (calls ++ later) =
        commands table view since calls ++ commands table view' since' later := by
  induction calls generalizing view since s with
  | nil => exact ⟨view, since, h, fun _ => rfl⟩
  | cons call calls ih =>
      rcases call.eq_step_or with rfl | hCall
      · obtain ⟨view', since', hEnd, hLater⟩ := ih h.act_step
        refine ⟨view', since', hEnd, fun later => ?_⟩
        rw [List.cons_append, commands, commands, hLater, List.cons_append]
      · obtain ⟨view', since', hEnd, hLater⟩ := ih (h.act_of_not_step hCall)
        refine ⟨view', since', hEnd, fun later => ?_⟩
        rw [List.cons_append, commands_cons hCall, commands_cons hCall, hLater]

end Awaiting

/-- Nothing but codes of the game is ever queued. -/
theorem isGameplay_of_queues? {table : Option TruthTable} {view : View} {call : Call}
    {code : UInt16} (h : call.queues? table view = some code) : IsGameplay code := by
  obtain ⟨named, -, hNamed⟩ := Option.bind_eq_some_iff.mp h
  split at hNamed
  · next hCode =>
      cases hNamed
      exact hCode
  · cases hNamed

/-- Only codes that a game obeys become commands. -/
theorem eq_zero_or_isGameplay_of_mem_commands {table : Option TruthTable} {view : View}
    {since : List UInt16} {calls : List Call} (hSince : ∀ code ∈ since, IsGameplay code)
    {cmd : UInt16} (hMem : cmd ∈ commands table view since calls) :
    cmd = 0 ∨ IsGameplay cmd := by
  induction calls generalizing view since with
  | nil => cases hMem
  | cons call calls ih =>
      rcases call.eq_step_or with rfl | hCall
      · rw [commands, List.mem_cons] at hMem
        rcases hMem with rfl | hLater
        · cases hLast : since.getLast? with
          | none => simp
          | some code => exact Or.inr (hSince code (List.mem_of_getLast? hLast))
        · exact ih (by simp) hLater
      · rw [commands_cons hCall] at hMem
        refine ih (fun code hCode => ?_) hMem
        rcases List.mem_append.mp hCode with hOld | hNew
        · exact hSince code hOld
        · exact isGameplay_of_queues? (Option.mem_toList.mp hNew)

/-- No input is lost or applied twice, and none leaks to the program. Between two steps
the machine stays as it is. The host gets its own commands and nothing else changes then.
A step runs the machine with the last gameplay code since the step before, or zero. -/
theorem input_reaches_one_frame (jpeg : Bytes) (limits : Limits) (observer : Observer)
    (calls : List Call) :
    let table := (Cartridge.readFrom jpeg limits.maxCartridgeBytes).toOption.bind
      Cartridge.truthTable
    let s := calls.foldl act (openFile jpeg limits observer)
    (∀ call : Call, call.isStep = false →
      (act s call).1.machine? = s.1.machine? ∧ (act s call).2 = s.2) ∧
    (∀ call host, (s.1.reply call = some host ↔ call.code? table s.1.view = some host.code) ∧
      (s.1.reply call = some host → act s call = s)) ∧
    ∀ machine, s.1.machine? = some machine → ∃ cmd,
      (commands table .identity [] (calls ++ [.step])).getLast? = some cmd ∧
      (cmd = 0 ∨ IsGameplay cmd) ∧
      let run := { machine with registers := { machine.registers with
        cmd, tick := s.1.tick + 1 } }.runFrame limits.cyclesPerFrame s.2
      (act s .step).1.machine? = some run.machine ∧ run.machine.registers.cmd = cmd ∧
        (act s .step).1.queued = none := by
  intro table s
  obtain ⟨view, since, hEnd, hLater⟩ := (awaiting_openFile jpeg limits observer).foldl_act calls
  refine ⟨fun call => machine?_act s, fun call host => ⟨?_, act_of_reply⟩, ?_⟩
  · rw [reply_eq_some_iff, named, hEnd.table_eq]
  · intro machine hMachine
    have hLast : (commands table .identity [] (calls ++ [.step])).getLast? =
        some (since.getLast?.getD 0) := by
      rw [hLater, commands, commands, List.getLast?_concat]
    obtain ⟨hRun, hEmpty⟩ := hEnd.machine?_act_step hMachine
    refine ⟨since.getLast?.getD 0, hLast, ?_, hRun, ?_, hEmpty⟩
    · exact eq_zero_or_isGameplay_of_mem_commands (by simp) (List.mem_of_getLast? hLast)
    · rw [Machine.registers_runFrame]

/-- A direction, a command of the host and a code without meaning are pressed before one frame. -/
theorem input_reaches_one_frame_plainFile :
    let s := [Call.press 3, .press 9, .press 0].foldl act
      (openFile (Cartridge.plainFile Machine.snakeProgram) {} .discard)
    s.1.reply (.press 8) = some .capture ∧
      (act s .step).1.machine?.map (fun machine => machine.registers.cmd) = some 3 := by
  intro s
  have hLoad : Cartridge.readFrom (Cartridge.plainFile Machine.snakeProgram)
      ({} : Limits).maxCartridgeBytes =
        .ok { header := Cartridge.plainHeader, bytecode := Machine.snakeProgram } :=
    Cartridge.readFrom_plainFile (by decide) (by decide)
  have hMachine : ∃ machine, s.1.machine? = some machine := by
    have hOpen : ∃ machine, (openFile (Cartridge.plainFile Machine.snakeProgram) {}
        .discard).1.machine? = some machine := by
      simp [openFile, hLoad, machine?]
    simpa [s, (machine?_act _ (rfl : (Call.press _).isStep = false)).1] using hOpen
  obtain ⟨machine, hMachine⟩ := hMachine
  obtain ⟨-, hReply, hStep⟩ := input_reaches_one_frame
    (Cartridge.plainFile Machine.snakeProgram) {} .discard [.press 3, .press 9, .press 0]
  obtain ⟨cmd, hLast, -, hRun, hCmd, -⟩ := hStep machine hMachine
  have hThree : some 3 = some cmd := hLast
  rw [hRun, Option.map_some, hCmd, hThree]
  exact ⟨(hReply _ _).1.mpr rfl, rfl⟩

end Player

end ImageCartridge
