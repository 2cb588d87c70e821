import ImageCartridge.Proofs.Machine.Calls

/-! Booting runs the program from its beginning, and nothing but the program itself
ends the run at the entry point. A prologue that does not is left for frame code. -/
namespace ImageCartridge.Machine

open Snake

section Execute

variable {header : Header} {registers : Registers} {budget cycles pc size : Nat}
  {program : Bytes} {stage : Stage}

/-- A run only goes forward. -/
theorem le_pc_execute (code : Bytes) :
    pc ≤ (execute header registers budget cycles pc code stage).pc := by
  induction budget generalizing cycles pc code stage with
  | zero => exact Nat.le_refl pc
  | succ budget ih =>
      unfold execute
      split
      · exact Nat.le_refl pc
      · split
        · exact Nat.le_succ pc
        · split
          · split
            · exact Nat.le_succ pc
            · split
              · exact Nat.le_add_right pc 2
              · exact Nat.le_trans (Nat.le_add_right pc 2) (ih _)
          · exact Nat.le_succ pc

/-- With a cycle to spend, a run leaves the byte it begins at behind. -/
theorem lt_pc_execute (hPc : pc < program.length) :
    pc < (execute header registers (budget + 1) cycles pc (program.drop pc) stage).pc := by
  rcases callAt_or_stopsAt program pc with ⟨call, hCall⟩ | ⟨result, stop, hStop⟩
  · rw [execute_of_callAt hCall]
    exact Nat.lt_of_lt_of_le (Nat.lt_add_of_pos_right Nat.two_pos) (le_pc_execute _)
  · rw [execute_of_stopsAt hStop]
    cases hStop with
    | pastEnd hNone => exact absurd hPc (Nat.not_lt.mpr (List.getElem?_eq_none_iff.mp hNone))
    | halt | cutCall | invalidOpcode => exact Nat.lt_succ_self pc
    | unknownSyscall => exact Nat.lt_add_of_pos_right Nat.two_pos

/-- A call is left behind with both of its bytes, even one to a service that does not exist. -/
theorem add_two_le_pc_execute (hOpcode : program[pc]? = some opSyscall)
    (hPc : pc + 1 < program.length) :
    pc + 2 ≤ (execute header registers (budget + 1) cycles pc (program.drop pc) stage).pc := by
  rcases callAt_or_stopsAt program pc with ⟨call, hCall⟩ | ⟨result, stop, hStop⟩
  · rw [execute_of_callAt hCall]
    exact le_pc_execute _
  · rw [execute_of_stopsAt hStop]
    cases hStop with
    | halt hHalt => exact absurd (hHalt.symm.trans hOpcode) (by decide)
    | pastEnd hNone => cases hNone.symm.trans hOpcode
    | cutCall _ hNone => exact absurd hPc (Nat.not_lt.mpr (List.getElem?_eq_none_iff.mp hNone))
    | unknownSyscall => exact Nat.le_refl _
    | invalidOpcode hOther _ hCall =>
        exact absurd (Option.some.inj (hOther.symm.trans hOpcode)) hCall

theorem getElem?_of_take {b : UInt8} (h : (program.take size)[pc]? = some b) :
    program[pc]? = some b ∧ pc < size := by
  rw [List.getElem?_take] at h
  split at h
  · next hLess => exact ⟨h, hLess⟩
  · cases h

/-- A call in the front of a program is a call of the program. -/
theorem CallAt.of_take {call : Syscall} (h : CallAt (program.take size) pc call) :
    CallAt program pc call ∧ pc + 2 ≤ size := by
  obtain ⟨hOpcode, id, hId, hService⟩ := h
  obtain ⟨hId, hLess⟩ := getElem?_of_take hId
  exact ⟨⟨(getElem?_of_take hOpcode).1, id, hId, hService⟩, hLess⟩

/-- The run of a program is that of its front, and it has not left the front. -/
def StaysWithin (size : Nat) (alone whole : Trail) : Prop :=
  whole = alone ∧ whole.pc ≤ size ∧ ∀ q, whole.result ≠ .faulted (.pcOutOfBounds q)

/-- The front of a program was too short for a run. If there is more of the program,
the run of the whole has read some of it. -/
def Overruns (size length : Nat) (alone whole : Trail) : Prop :=
  (∃ q, alone.result = .faulted (.pcOutOfBounds q)) ∧ alone.pc ≤ size ∧
    (size < length → size < whole.pc)

/-- Running a program and running only its front come to the same until the front is left. -/
theorem execute_take (header : Header) (registers : Registers) (budget cycles : Nat)
    (stage : Stage) (hPc : pc ≤ size) (hSize : size ≤ program.length) :
    StaysWithin size
        (execute header registers budget cycles pc ((program.take size).drop pc) stage)
        (execute header registers budget cycles pc (program.drop pc) stage) ∨
      Overruns size program.length
        (execute header registers budget cycles pc ((program.take size).drop pc) stage)
        (execute header registers budget cycles pc (program.drop pc) stage) := by
  induction budget generalizing cycles pc stage with
  | zero => exact Or.inl ⟨rfl, hPc, fun _ => RunResult.noConfusion⟩
  | succ budget ih =>
      rcases callAt_or_stopsAt (program.take size) pc with ⟨call, hCall⟩ | ⟨result, stop, hStop⟩
      · obtain ⟨hWhole, hNext⟩ := hCall.of_take
        rw [execute_of_callAt hCall, execute_of_callAt hWhole]
        exact ih _ _ hNext
      · rw [execute_of_stopsAt hStop]
        have hLength : (program.take size).length = size := List.length_take_of_le hSize
        cases hStop with
        | halt hOpcode =>
            obtain ⟨hOpcode, hLess⟩ := getElem?_of_take hOpcode
            rw [execute_of_stopsAt (.halt hOpcode)]
            exact Or.inl ⟨rfl, hLess, fun _ => RunResult.noConfusion⟩
        | unknownSyscall hOpcode hId hUnknown =>
            obtain ⟨hId, hLess⟩ := getElem?_of_take hId
            rw [execute_of_stopsAt (.unknownSyscall (getElem?_of_take hOpcode).1 hId hUnknown)]
            exact Or.inl ⟨rfl, hLess, by simp⟩
        | invalidOpcode hOpcode hHalt hCall =>
            obtain ⟨hOpcode, hLess⟩ := getElem?_of_take hOpcode
            rw [execute_of_stopsAt (.invalidOpcode hOpcode hHalt hCall)]
            exact Or.inl ⟨rfl, hLess, by simp⟩
        -- In these two cases the front has no byte at `size` to offer, but the whole may have.
        | pastEnd hNone =>
            have hEnd : pc = size := by
              have hMore := List.getElem?_eq_none_iff.mp hNone
              omega
            subst hEnd
            exact Or.inr ⟨⟨_, rfl⟩, hPc, fun hRest => lt_pc_execute hRest⟩
        | cutCall hOpcode hNone =>
            obtain ⟨hWhole, hLess⟩ := getElem?_of_take hOpcode
            have hEnd : pc + 1 = size := by
              have hMore := List.getElem?_eq_none_iff.mp hNone
              omega
            rw [← hEnd]
            exact Or.inr ⟨⟨_, rfl⟩, Nat.le_refl _, fun hRest => add_two_le_pc_execute hWhole hRest⟩

end Execute

/-- The machine with nothing of its program but the prologue. -/
def prologueOnly (m : Machine) : Machine :=
  { m with program := m.program.take m.entryPoint }

/-- A machine whose program goes on behind the prologue, and whose prologue, run by
itself, ends for want of a byte there. -/
def LeavesPrologue (m : Machine) (budget : Nat) (observer : Observer) : Prop :=
  m.entryPoint < m.program.length ∧
    ∃ q, (m.prologueOnly.boot budget observer).result = .faulted (.pcOutOfBounds q)

/-- Booting is running the prologue as if there were nothing else, unless that leaves
the prologue. Then frame code is run, up to a place behind the entry point. -/
theorem boot_prologueOnly {m : Machine} (hFault : m.fault = none) (hEntry : 0 < m.entryPoint)
    (hInside : m.entryPoint ≤ m.program.length) (budget : Nat) (observer : Observer) :
    (¬ m.LeavesPrologue budget observer →
      (m.boot budget observer).machine.pc ≤ m.entryPoint ∧
        m.boot budget observer =
          { m.prologueOnly.boot budget observer with
            machine := { (m.prologueOnly.boot budget observer).machine with
              program := m.program } }) ∧
      (m.LeavesPrologue budget observer →
        m.entryPoint < (m.boot budget observer).machine.pc) := by
  have hAlone : m.prologueOnly.boot budget observer = m.prologueOnly.runFrom 0 budget observer :=
    boot_eq_runFrom (show m.prologueOnly.fault = none from hFault) hEntry budget observer
  rw [LeavesPrologue, boot_eq_runFrom hFault hEntry, hAlone]
  rcases execute_take m.header m.registers (min budget m.maxBudget) 0 ⟨m.game, observer⟩
    (Nat.zero_le m.entryPoint) hInside with ⟨hSame, hPc, hResult⟩ | ⟨hResult, hPc, hPast⟩
  · refine ⟨fun _ => ⟨hPc, ?_⟩, ?_⟩
    · simp only [runFrom, hSame]
      rfl
    · rintro ⟨_, q, hFaulted⟩
      rw [hSame] at hResult
      exact absurd hFaulted (hResult q)
  · refine ⟨fun hStays => ?_, fun hLeaves => hPast hLeaves.1⟩
    have hAll : m.program.take m.entryPoint = m.program :=
      List.take_of_length_le (Nat.le_of_not_lt fun hRest => hStays ⟨hRest, hResult⟩)
    have hSame : m.prologueOnly = m := by rw [prologueOnly, hAll]
    rw [hAll] at hPc
    refine ⟨hPc, ?_⟩
    rw [hSame]
    rfl

/-- The prologue of the game halts within its bytes. -/
theorem boot_prologueOnly_snakeProgram :
    (Machine.new { entryPoint := 3 } snakeProgram defaultMaxBudget).fault = none ∧
      0 < (Machine.new { entryPoint := 3 } snakeProgram defaultMaxBudget).entryPoint ∧
      (Machine.new { entryPoint := 3 } snakeProgram defaultMaxBudget).entryPoint ≤
        snakeProgram.length ∧
      ((Machine.new { entryPoint := 3 } snakeProgram defaultMaxBudget).boot 8
        .discard).machine.pc ≤ 3 := by
  have hFault : (Machine.new { entryPoint := 3 } snakeProgram defaultMaxBudget).fault = none := rfl
  have hBoot := boot_prologueOnly hFault (by decide) (by decide) 8 .discard
  refine ⟨hFault, by decide, by decide, (hBoot.1 ?_).1⟩
  rintro ⟨_, _, hFaulted⟩
  cases hFaulted

/-- A prologue without a halt. Its frame code lets a tick pass. -/
def openMachine : Machine :=
  { Machine.new { entryPoint := 2 } [0x40, 0x01, 0x40, 0x02, 0x01] defaultMaxBudget with
    registers := { tick := 1 } }

/-- Booting plays the first frame. -/
theorem boot_openMachine :
    (openMachine.boot 16 .recording).machine.pc = 5 ∧
      (openMachine.boot 16 .recording).observer.frames.size = 2 := by
  decide +kernel

end ImageCartridge.Machine
