import ImageCartridge.Machine.Run

/-! What a run does, read off the program. From its start on the program calls one
service after the other, in two bytes each, up to the first offset where it stops.
A run serves these calls as far as its budget goes. -/
namespace ImageCartridge.Machine

open Snake

def CallAt (program : Bytes) (pc : Nat) (call : Syscall) : Prop :=
  program[pc]? = some opSyscall ∧
    ∃ id, program[pc + 1]? = some id ∧ Syscall.ofId? id = some call

/-- The bytes at an offset stop a run, with a result that tells what they are. The
machine is left pointing behind the bytes it has read. -/
inductive StopsAt (program : Bytes) (pc : Nat) : RunResult → Nat → Prop where
  | halt (hOpcode : program[pc]? = some opHalt) : StopsAt program pc .halted (pc + 1)
  | pastEnd (hNone : program[pc]? = none) :
      StopsAt program pc (.faulted (.pcOutOfBounds pc)) pc
  | cutCall (hOpcode : program[pc]? = some opSyscall) (hNone : program[pc + 1]? = none) :
      StopsAt program pc (.faulted (.pcOutOfBounds (pc + 1))) (pc + 1)
  | unknownSyscall {id : UInt8} (hOpcode : program[pc]? = some opSyscall)
      (hId : program[pc + 1]? = some id) (hUnknown : Syscall.ofId? id = none) :
      StopsAt program pc (.faulted (.unknownSyscall pc id)) (pc + 2)
  | invalidOpcode {opcode : UInt8} (hOpcode : program[pc]? = some opcode)
      (hHalt : opcode ≠ opHalt) (hCall : opcode ≠ opSyscall) :
      StopsAt program pc (.faulted (.invalidOpcode pc opcode)) (pc + 1)

/-- At every offset a run either calls a service or stops. The offsets behind the program are no
exception. -/
theorem callAt_or_stopsAt (program : Bytes) (pc : Nat) :
    (∃ call, CallAt program pc call) ∨ ∃ result stop, StopsAt program pc result stop := by
  cases hOpcode : program[pc]? with
  | none => exact Or.inr ⟨_, _, .pastEnd hOpcode⟩
  | some opcode =>
      by_cases hHalt : opcode = opHalt
      · subst hHalt
        exact Or.inr ⟨_, _, .halt hOpcode⟩
      · by_cases hCall : opcode = opSyscall
        · subst hCall
          cases hId : program[pc + 1]? with
          | none => exact Or.inr ⟨_, _, .cutCall hOpcode hId⟩
          | some id =>
              cases hService : Syscall.ofId? id with
              | none => exact Or.inr ⟨_, _, .unknownSyscall hOpcode hId hService⟩
              | some call => exact Or.inl ⟨call, hOpcode, id, hId, hService⟩
        · exact Or.inr ⟨_, _, .invalidOpcode hOpcode hHalt hCall⟩

/-- What stops a run is never a call, so a program has one way to go on at each offset. -/
theorem StopsAt.not_callAt {program : Bytes} {pc stop : Nat} {result : RunResult}
    (h : StopsAt program pc result stop) (call : Syscall) : ¬ CallAt program pc call := by
  rintro ⟨hOpcode, id, hId, hService⟩
  cases h with
  | halt hHalt => exact absurd (hHalt.symm.trans hOpcode) (by decide)
  | pastEnd hNone => cases hNone.symm.trans hOpcode
  | cutCall _ hNone => cases hNone.symm.trans hId
  | unknownSyscall _ hOther hUnknown =>
      cases hOther.symm.trans hId
      cases hUnknown.symm.trans hService
  | invalidOpcode hOther _ hCall => exact hCall (Option.some.inj (hOther.symm.trans hOpcode))

/-- A result tells what a run stops at, so the bytes at an offset leave one result. -/
theorem StopsAt.unique {program : Bytes} {pc stop stop' : Nat} {result result' : RunResult}
    (h : StopsAt program pc result stop) (h' : StopsAt program pc result' stop') :
    result = result' ∧ stop = stop' := by
  cases h <;> cases h' <;> simp_all [opHalt, opSyscall]

/-- Bytes that stop a run give a result of their own, never that of an empty budget. -/
theorem StopsAt.ne_budgetExhausted {program : Bytes} {pc stop : Nat} {result : RunResult}
    (h : StopsAt program pc result stop) : result ≠ .budgetExhausted := by
  cases h <;> exact RunResult.noConfusion

/-- The services a code calls one after the other before anything else. -/
def calls : Bytes → List Syscall
  | opcode :: id :: rest =>
      if opcode = opSyscall then
        match Syscall.ofId? id with
        | some call => call :: calls rest
        | none => []
      else []
  | _ => []

theorem drop_eq_cons {program : Bytes} {pc : Nat} {b : UInt8} (h : program[pc]? = some b) :
    program.drop pc = b :: program.drop (pc + 1) := by
  obtain ⟨hLess, rfl⟩ := List.getElem?_eq_some_iff.mp h
  exact List.drop_eq_getElem_cons hLess

/-- A call is the first of those that the code makes, and the others begin two bytes later. -/
theorem calls_of_callAt {program : Bytes} {pc : Nat} {call : Syscall}
    (h : CallAt program pc call) :
    calls (program.drop pc) = call :: calls (program.drop (pc + 2)) := by
  obtain ⟨hOpcode, id, hId, hService⟩ := h
  rw [drop_eq_cons hOpcode, drop_eq_cons hId, calls, if_pos rfl, hService]

theorem calls_of_stopsAt {program : Bytes} {pc stop : Nat} {result : RunResult}
    (h : StopsAt program pc result stop) : calls (program.drop pc) = [] := by
  cases h with
  | halt hOpcode =>
      rw [drop_eq_cons hOpcode]
      cases program.drop (pc + 1) <;> rfl
  | pastEnd hNone =>
      rw [List.drop_eq_nil_of_le (List.getElem?_eq_none_iff.mp hNone)]
      rfl
  | cutCall hOpcode hNone =>
      rw [drop_eq_cons hOpcode, List.drop_eq_nil_of_le (List.getElem?_eq_none_iff.mp hNone)]
      rfl
  | unknownSyscall hOpcode hId hUnknown =>
      rw [drop_eq_cons hOpcode, drop_eq_cons hId, calls, if_pos rfl, hUnknown]
  | invalidOpcode hOpcode _ hCall =>
      rw [drop_eq_cons hOpcode]
      cases program.drop (pc + 1) with
      | nil => rfl
      | cons id rest => rw [calls, if_neg hCall]

/-- Code that makes no calls stops at once, as there is nothing else it could do. -/
theorem exists_stopsAt_of_calls_eq_nil {program : Bytes} {pc : Nat}
    (h : calls (program.drop pc) = []) : ∃ result stop, StopsAt program pc result stop := by
  rcases callAt_or_stopsAt program pc with ⟨call, hCall⟩ | hStop
  · rw [calls_of_callAt hCall] at h
    cases h
  · exact hStop

theorem callAt_of_calls_eq_cons {program : Bytes} {pc : Nat} {call : Syscall}
    {later : List Syscall} (h : calls (program.drop pc) = call :: later) :
    CallAt program pc call ∧ later = calls (program.drop (pc + 2)) := by
  rcases callAt_or_stopsAt program pc with ⟨first, hCall⟩ | ⟨_, _, hStop⟩
  · rw [calls_of_callAt hCall] at h
    cases h
    exact ⟨hCall, rfl⟩
  · rw [calls_of_stopsAt hStop] at h
    cases h

/-- The calls stand where they are said to stand. -/
theorem callAt_of_getElem? {program : Bytes} {pc i : Nat} {call : Syscall}
    (h : (calls (program.drop pc))[i]? = some call) : CallAt program (pc + 2 * i) call := by
  generalize hFound : calls (program.drop pc) = found at h
  induction found generalizing pc i with
  | nil => cases h
  | cons first found ih =>
      obtain ⟨hCall, rfl⟩ := callAt_of_calls_eq_cons hFound
      cases i with
      | zero =>
          cases h
          exact hCall
      | succ i =>
          rw [List.getElem?_cons_succ] at h
          have hLater := ih rfl h
          rw [Nat.add_assoc, Nat.add_comm 2] at hLater
          exact hLater

/-- Behind the calls the program stops. -/
theorem exists_stopsAt (program : Bytes) (pc : Nat) :
    ∃ result stop, StopsAt program (pc + 2 * (calls (program.drop pc)).length) result stop := by
  generalize hFound : calls (program.drop pc) = found
  induction found generalizing pc with
  | nil => exact exists_stopsAt_of_calls_eq_nil hFound
  | cons call found ih =>
      obtain ⟨_, rfl⟩ := callAt_of_calls_eq_cons hFound
      have hLater := ih (pc + 2) rfl
      rw [Nat.add_assoc, Nat.add_comm 2] at hLater
      exact hLater

example : calls [0x40, 0x01, 0x40, 0x02, 0x40, 0x03] = [.init, .tick] := rfl

def Stage.serve (header : Header) (registers : Registers) (stage : Stage)
    (found : List Syscall) : Stage :=
  found.foldl (fun stage call => stage.dispatch header registers call) stage

section Execute

variable {header : Header} {registers : Registers} {budget cycles pc : Nat} {program : Bytes}
  {stage : Stage}

/-- A call takes one cycle and two bytes. -/
theorem execute_of_callAt {call : Syscall} (h : CallAt program pc call) :
    execute header registers (budget + 1) cycles pc (program.drop pc) stage =
      execute header registers budget (cycles + 1) (pc + 2) (program.drop (pc + 2))
        (stage.dispatch header registers call) := by
  obtain ⟨hOpcode, id, hId, hService⟩ := h
  rw [drop_eq_cons hOpcode, drop_eq_cons hId, execute, if_neg (by decide), if_pos rfl]
  simp only [hService]

/-- To stop takes a cycle as well. -/
theorem execute_of_stopsAt {result : RunResult} {stop : Nat}
    (h : StopsAt program pc result stop) :
    execute header registers (budget + 1) cycles pc (program.drop pc) stage =
      ⟨stop, cycles + 1, result, stage⟩ := by
  cases h with
  | halt hOpcode =>
      rw [drop_eq_cons hOpcode]
      unfold execute
      exact if_pos rfl
  | pastEnd hNone =>
      rw [List.drop_eq_nil_of_le (List.getElem?_eq_none_iff.mp hNone), execute]
  | cutCall hOpcode hNone =>
      rw [drop_eq_cons hOpcode, List.drop_eq_nil_of_le (List.getElem?_eq_none_iff.mp hNone),
        execute, if_neg (by decide), if_pos rfl]
  | unknownSyscall hOpcode hId hUnknown =>
      rw [drop_eq_cons hOpcode, drop_eq_cons hId, execute, if_neg (by decide), if_pos rfl]
      simp only [hUnknown]
  | invalidOpcode hOpcode hHalt hCall =>
      rw [drop_eq_cons hOpcode]
      unfold execute
      exact (if_neg hHalt).trans (if_neg hCall)

/-- A budget for no more than the calls is used up by them. -/
theorem execute_of_le (h : budget ≤ (calls (program.drop pc)).length) :
    execute header registers budget cycles pc (program.drop pc) stage =
      ⟨pc + 2 * budget, cycles + budget, .budgetExhausted,
        stage.serve header registers ((calls (program.drop pc)).take budget)⟩ := by
  induction budget generalizing cycles pc stage with
  | zero => rfl
  | succ budget ih =>
      rcases callAt_or_stopsAt program pc with ⟨call, hCall⟩ | ⟨_, _, hStop⟩
      · rw [calls_of_callAt hCall] at h ⊢
        rw [execute_of_callAt hCall, ih (Nat.le_of_succ_le_succ h), Nat.add_assoc pc,
          Nat.add_comm 2, Nat.add_assoc cycles, Nat.add_comm 1]
        rfl
      · rw [calls_of_stopsAt hStop] at h
        exact absurd h (Nat.not_succ_le_zero budget)

/-- A budget for more than the calls lets the run come to its stop. -/
theorem execute_of_lt (h : (calls (program.drop pc)).length < budget) {result : RunResult}
    {stop : Nat} (hStop : StopsAt program (pc + 2 * (calls (program.drop pc)).length) result stop) :
    execute header registers budget cycles pc (program.drop pc) stage =
      ⟨stop, cycles + (calls (program.drop pc)).length + 1, result,
        stage.serve header registers (calls (program.drop pc))⟩ := by
  induction budget generalizing cycles pc stage with
  | zero => exact absurd h (Nat.not_lt_zero _)
  | succ budget ih =>
      rcases callAt_or_stopsAt program pc with ⟨call, hCall⟩ | ⟨_, _, hNow⟩
      · rw [calls_of_callAt hCall] at h hStop ⊢
        have hPast : pc + 2 * (call :: calls (program.drop (pc + 2))).length =
            pc + 2 + 2 * (calls (program.drop (pc + 2))).length := by
          rw [List.length_cons]
          omega
        rw [hPast] at hStop
        rw [execute_of_callAt hCall, ih (Nat.lt_of_succ_lt_succ h) hStop, Nat.add_assoc cycles,
          Nat.add_comm 1]
        rfl
      · rw [calls_of_stopsAt hNow] at hStop ⊢
        obtain ⟨rfl, rfl⟩ := hNow.unique hStop
        exact execute_of_stopsAt hNow

end Execute

/-- With a prologue and no fault, booting is a run from the start of the program. -/
theorem boot_eq_runFrom {m : Machine} (hFault : m.fault = none) (hEntry : 0 < m.entryPoint)
    (budget : Nat) (observer : Observer) :
    m.boot budget observer = m.runFrom 0 budget observer := by
  simp only [boot, hFault, if_neg (Nat.ne_of_gt hEntry)]

/-- Without a fault, a frame is a run from the entry point. -/
theorem runFrame_eq_runFrom {m : Machine} (hFault : m.fault = none) (budget : Nat)
    (observer : Observer) :
    m.runFrame budget observer = m.runFrom m.entryPoint budget observer := by
  simp only [runFrame, hFault]

/-- The two ways to run a machine, each with its start. Without a prologue there is
nothing to boot. -/
inductive RunsFrom (m : Machine) : Nat → (Nat → Observer → Run) → Prop where
  | frame : RunsFrom m m.entryPoint m.runFrame
  | prologue (hEntry : 0 < m.entryPoint) : RunsFrom m 0 m.boot

/-- Booting and playing a frame differ in their start alone. -/
theorem RunsFrom.eq_runFrom {m : Machine} {start : Nat} {run : Nat → Observer → Run}
    (h : RunsFrom m start run) (hFault : m.fault = none) : run = m.runFrom start := by
  funext budget observer
  cases h with
  | frame => exact runFrame_eq_runFrom hFault budget observer
  | prologue hEntry => exact boot_eq_runFrom hFault hEntry budget observer

section Run

variable {m : Machine} {start budget : Nat} {observer : Observer}

/-- A budget that ends among the calls: as many of them are carried out as there are cycles, and
nothing stops the run. -/
theorem runFrom_of_le (h : min budget m.maxBudget ≤ (calls (m.program.drop start)).length) :
    m.runFrom start budget observer =
      let served := Stage.serve m.header m.registers ⟨m.game, observer⟩
        ((calls (m.program.drop start)).take (min budget m.maxBudget))
      { machine := { m with
          pc := start + 2 * min budget m.maxBudget
          cycles := min budget m.maxBudget
          halted := false
          fault := none
          game := served.game }
        observer := served.observer
        result := .budgetExhausted } := by
  rw [runFrom, execute_of_le h, Nat.zero_add]
  rfl

/-- A budget that goes beyond the calls: all of them are carried out, and what stands behind the
last one stops the run. -/
theorem runFrom_of_lt (h : (calls (m.program.drop start)).length < min budget m.maxBudget)
    {result : RunResult} {stop : Nat}
    (hStop : StopsAt m.program (start + 2 * (calls (m.program.drop start)).length) result stop) :
    m.runFrom start budget observer =
      let served := Stage.serve m.header m.registers ⟨m.game, observer⟩
        (calls (m.program.drop start))
      { machine := { m with
          pc := stop
          cycles := (calls (m.program.drop start)).length + 1
          halted := true
          fault := result.fault?
          game := served.game }
        observer := served.observer
        result } := by
  rw [runFrom, execute_of_lt h hStop, Nat.zero_add]
  simp only [ne_eq, hStop.ne_budgetExhausted, not_false_eq_true, decide_true]

/-- No run takes more cycles than it was given, or than the machine allows. -/
theorem cycles_runFrom_le :
    (m.runFrom start budget observer).machine.cycles ≤ min budget m.maxBudget := by
  obtain ⟨result, stop, hStop⟩ := exists_stopsAt m.program start
  rcases Nat.lt_or_ge (calls (m.program.drop start)).length (min budget m.maxBudget)
    with hLess | hMore
  · rw [runFrom_of_lt hLess hStop]
    exact hLess
  · have hUsed : (m.runFrom start budget observer).machine.cycles = min budget m.maxBudget := by
      rw [runFrom_of_le hMore]
    exact Nat.le_of_eq hUsed

/-- A run that was not cut short does not depend on how much budget was left. -/
theorem runFrom_eq_of_le (hResult : (m.runFrom start budget observer).result ≠ .budgetExhausted)
    {larger : Nat} (hLarger : budget ≤ larger) :
    m.runFrom start larger observer = m.runFrom start budget observer := by
  obtain ⟨result, stop, hStop⟩ := exists_stopsAt m.program start
  rcases Nat.lt_or_ge (calls (m.program.drop start)).length (min budget m.maxBudget)
    with hLess | hMore
  · have hStill : (calls (m.program.drop start)).length < min larger m.maxBudget := by omega
    rw [runFrom_of_lt hLess hStop, runFrom_of_lt hStill hStop]
  · rw [runFrom_of_le hMore] at hResult
    exact absurd rfl hResult

end Run

/-- What a run does, in closed form. From its start on the program has a number of
calls. A budget for no more serves as many of them and is used up; any other serves
them all and ends with what the program has behind them. -/
theorem run_closedForm {m : Machine} {start : Nat} {run : Nat → Observer → Run}
    (hRun : RunsFrom m start run) (hFault : m.fault = none) :
    ∃ found : List Syscall,
      (∀ i call, found[i]? = some call → CallAt m.program (start + 2 * i) call) ∧
      (∀ call, ¬ CallAt m.program (start + 2 * found.length) call) ∧
      ∀ budget b observer, b = min budget m.maxBudget →
        (b ≤ found.length → run budget observer =
          let served := Stage.serve m.header m.registers ⟨m.game, observer⟩ (found.take b)
          { machine := { m with
              pc := start + 2 * b, cycles := b, halted := false, fault := none
              game := served.game }
            observer := served.observer
            result := .budgetExhausted }) ∧
        (found.length < b → ∃ result stop,
          StopsAt m.program (start + 2 * found.length) result stop ∧ run budget observer =
            let served := Stage.serve m.header m.registers ⟨m.game, observer⟩ found
            { machine := { m with
                pc := stop, cycles := found.length + 1, halted := true, fault := result.fault?
                game := served.game }
              observer := served.observer
              result }) ∧
        (run budget observer).machine.cycles ≤ b ∧
        ((run budget observer).result ≠ .budgetExhausted →
          ∀ larger, budget ≤ larger → run larger observer = run budget observer) := by
  obtain rfl := hRun.eq_runFrom hFault
  obtain ⟨result, stop, hStop⟩ := exists_stopsAt m.program start
  refine ⟨calls (m.program.drop start), fun i call => callAt_of_getElem?, hStop.not_callAt, ?_⟩
  rintro budget _ observer rfl
  refine ⟨runFrom_of_le, fun hLess => ⟨result, stop, hStop, runFrom_of_lt hLess hStop⟩,
    cycles_runFrom_le, fun hResult larger hLarger => runFrom_eq_of_le hResult hLarger⟩

/-- One call and the halt behind it take two cycles, so a larger budget is no use. -/
theorem run_closedForm_snakeProgram :
    RunsFrom (.new { entryPoint := 3 } snakeProgram defaultMaxBudget) 3
        (runFrame (.new { entryPoint := 3 } snakeProgram defaultMaxBudget)) ∧
      (Machine.new { entryPoint := 3 } snakeProgram defaultMaxBudget).fault = none ∧
      runFrame (.new { entryPoint := 3 } snakeProgram defaultMaxBudget) defaultMaxBudget .discard =
        runFrame (.new { entryPoint := 3 } snakeProgram defaultMaxBudget) 2 .discard := by
  have hRun : RunsFrom (.new { entryPoint := 3 } snakeProgram defaultMaxBudget) 3
      (runFrame (.new { entryPoint := 3 } snakeProgram defaultMaxBudget)) := .frame
  obtain ⟨_, _, _, hAll⟩ := run_closedForm hRun rfl
  obtain ⟨_, _, _, hLarger⟩ := hAll 2 2 .discard rfl
  exact ⟨hRun, rfl, hLarger (by decide) defaultMaxBudget (by decide)⟩

end ImageCartridge.Machine
