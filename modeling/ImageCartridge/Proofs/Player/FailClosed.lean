import ImageCartridge.Proofs.Machine.Frames
import ImageCartridge.Proofs.Player.Script

/-! What has failed stays failed. A machine that has faulted only lets its registers be
written, and a player without a machine, or with a faulted one, shows no more frames. -/
namespace ImageCartridge

open Snake

namespace Machine

section Fault

variable {m : Machine} {fault : Fault}

theorem boot_of_fault (h : m.fault = some fault) (budget : Nat) (observer : Observer) :
    m.boot budget observer = ⟨m, observer, .faulted fault⟩ := by
  simp only [boot, h]

/-- A machine that has faulted answers a frame with its fault and does nothing. -/
theorem runFrame_of_fault (h : m.fault = some fault) (budget : Nat) (observer : Observer) :
    m.runFrame budget observer = ⟨m, observer, .faulted fault⟩ := by
  simp only [runFrame, h]

theorem HostCall.act_of_fault (h : m.fault = some fault) (observer : Observer)
    (call : HostCall) : ∃ registers, call.act m observer = ({ m with registers }, observer) := by
  cases call with
  | write registers => exact ⟨registers, rfl⟩
  | boot budget => exact ⟨m.registers, by rw [act, boot_of_fault h]⟩
  | runFrame budget => exact ⟨m.registers, by rw [act, runFrame_of_fault h]⟩

/-- Only the registers, which belong to the host, can still change. -/
theorem HostCall.foldl_act_of_fault (h : m.fault = some fault) (observer : Observer)
    (hostCalls : List HostCall) :
    ∃ registers, hostCalls.foldl (fun s call => call.act s.1 s.2) (m, observer) =
      ({ m with registers }, observer) := by
  induction hostCalls generalizing m with
  | nil => exact ⟨m.registers, rfl⟩
  | cons call hostCalls ih =>
      obtain ⟨registers, hAct⟩ := call.act_of_fault h observer
      rw [List.foldl_cons, hAct]
      exact ih (m := { m with registers }) h

end Fault

end Machine

namespace Player

/-- What is asked of a player: a call, with the observer that is to see its frames, or a
run at a frontend, which has its own. -/
inductive Request where
  | single (call : Call) (observer : Observer)
  | run (frontend : Frontend)

namespace Request

def observer : Request → Observer
  | single _ observer => observer
  | run frontend => frontend.observer

def calls : Request → List Call
  | single call _ => [call]
  | run frontend =>
      .setViewport frontend.screen.1.toFloat32 frontend.screen.2.toFloat32
        :: Call.ofScript frontend.script

def serve (p : Player) : Request → Player × Observer
  | single call observer => act (p, observer) call
  | run frontend => ((p.run frontend).player, (p.run frontend).frontend.observer)

theorem serve_eq (p : Player) (r : Request) : r.serve p = r.calls.foldl act (p, r.observer) := by
  cases r with
  | single call observer => rfl
  | run frontend => exact (loop_eq frontend.script).1

end Request

def after (p : Player) (requests : List Request) : Player :=
  requests.foldl (fun p r => (r.serve p).1) p

/-- What is kept by every call, and lets none of them show a frame. -/
def Silent (P : Player → Prop) : Prop :=
  ∀ p, P p → ∀ observer call,
    P (act (p, observer) call).1 ∧ (act (p, observer) call).2 = observer

section Silent

variable {P : Player → Prop} {p : Player}

/-- Where neither view nor queue counts, it is all about the step. -/
theorem silent_of_step (hKept : ∀ p view queued, P p → P { p with view, queued })
    (hStep : ∀ p, P p → ∀ observer,
      P (act (p, observer) .step).1 ∧ (act (p, observer) .step).2 = observer) : Silent P := by
  intro p hp observer call
  rcases call.eq_step_or with rfl | hCall
  · exact hStep p hp observer
  · obtain ⟨queued, hAct⟩ := exists_act_eq (p, observer) hCall
    rw [hAct]
    exact ⟨hKept _ _ _ hp, rfl⟩

/-- Silence holds for any number of calls once it holds for each. -/
theorem Silent.foldl_act (h : Silent P) (hp : P p) (observer : Observer) (calls : List Call) :
    P (calls.foldl act (p, observer)).1 ∧ (calls.foldl act (p, observer)).2 = observer := by
  induction calls generalizing p with
  | nil => exact ⟨hp, rfl⟩
  | cons call calls ih =>
      obtain ⟨hNext, hObserver⟩ := h p hp observer call
      have hAct : act (p, observer) call = ((act (p, observer) call).1, observer) :=
        Prod.ext rfl hObserver
      rw [List.foldl_cons, hAct]
      exact ih hNext

/-- A run is made of calls, so it shows no frame either. -/
theorem Silent.serve (h : Silent P) (hp : P p) (r : Request) :
    P (r.serve p).1 ∧ (r.serve p).2 = r.observer := by
  rw [r.serve_eq]
  exact h.foldl_act hp r.observer r.calls

/-- Silence holds for any number of requests, each with an observer of its own. -/
theorem Silent.after (h : Silent P) (hp : P p) (requests : List Request) :
    P (p.after requests) := by
  induction requests generalizing p with
  | nil => exact hp
  | cons r requests ih => exact ih (h.serve hp r).1

end Silent

/-- A player with a plain image stays as it is, down to its tick counter. -/
theorem silent_inert (cause : CartridgeError) (tick : UInt32) :
    Silent fun p => p.mode = .inert cause ∧ p.tick = tick := by
  refine silent_of_step (fun _ _ _ h => h) ?_
  rintro p ⟨hMode, hTick⟩ observer
  rw [act_step_of_inert hMode]
  exact ⟨⟨hMode, hTick⟩, rfl⟩

/-- The step of a player whose machine has faulted is counted, and reports the fault. -/
theorem step_of_fault {p : Player} {cartridge : Cartridge} {m : Machine}
    {fault : Machine.Fault} (hMode : p.mode = .interactive cartridge m)
    (h : m.fault = some fault) (observer : Observer) :
    ∃ registers, p.step observer =
      ({ p with
          mode := .interactive cartridge { m with registers }
          tick := p.tick + 1
          queued := none },
        observer, some (.faulted fault)) := by
  refine ⟨{ m.registers with
    cmd := (p.queued.map Command.code).getD 0, tick := p.tick + 1 }, ?_⟩
  have hRun := Machine.runFrame_of_fault
    (m := { m with registers := { m.registers with
      cmd := (p.queued.map Command.code).getD 0, tick := p.tick + 1 } })
    h p.limits.cyclesPerFrame observer
  simp only [step, hMode, hRun]

/-- A player whose machine has faulted keeps that machine, with registers as the host writes them.
-/
theorem silent_faulted (cartridge : Cartridge) {m : Machine} {fault : Machine.Fault}
    (h : m.fault = some fault) :
    Silent fun p => ∃ registers, p.mode = .interactive cartridge { m with registers } := by
  refine silent_of_step (fun _ _ _ h => h) ?_
  rintro p ⟨registers, hMode⟩ observer
  obtain ⟨registers', hStep⟩ := step_of_fault hMode h observer
  rw [act, hStep]
  exact ⟨⟨registers', rfl⟩, rfl⟩

/-- Failing is for good. Whatever is asked of an inert player, it keeps its cause and its
tick, and does not step. Whatever is asked of a player whose machine has faulted, all steps
report that fault, and of the machine only the registers change. Neither shows a frame.
The machine by itself does no more than that for its host. -/
theorem failed_forGood (p : Player) (requests : List Request) :
    (∀ cause, p.mode = .inert cause →
      (p.after requests).mode = .inert cause ∧ (p.after requests).tick = p.tick ∧
        (∀ observer, (p.after requests).step observer = (p.after requests, observer, none)) ∧
        ∀ r : Request, (r.serve (p.after requests)).2 = r.observer) ∧
    (∀ cartridge m fault, p.mode = .interactive cartridge m → m.fault = some fault →
      (∃ registers, (p.after requests).mode = .interactive cartridge { m with registers }) ∧
        (∀ observer, ((p.after requests).step observer).2.2 = some (.faulted fault)) ∧
        ∀ r : Request, (r.serve (p.after requests)).2 = r.observer) ∧
    ∀ (m : Machine) fault, m.fault = some fault →
      ∀ (observer : Observer) (hostCalls : List Machine.HostCall), ∃ registers,
        hostCalls.foldl (fun s call => call.act s.1 s.2) (m, observer) =
          ({ m with registers }, observer) ∧
        ∀ budget other,
          Machine.boot { m with registers } budget other =
              ⟨{ m with registers }, other, .faulted fault⟩ ∧
            Machine.runFrame { m with registers } budget other =
              ⟨{ m with registers }, other, .faulted fault⟩ := by
  refine ⟨?_, ?_, ?_⟩
  · intro cause hMode
    have hAfter := (silent_inert cause p.tick).after ⟨hMode, rfl⟩ requests
    refine ⟨hAfter.1, hAfter.2, fun observer => ?_, fun r => ?_⟩
    · simp only [step, hAfter.1]
    · exact ((silent_inert cause p.tick).serve hAfter r).2
  · intro cartridge m fault hMode hFault
    obtain ⟨registers, hAfter⟩ :=
      (silent_faulted cartridge hFault).after ⟨m.registers, hMode⟩ requests
    refine ⟨⟨registers, hAfter⟩, fun observer => ?_, fun r => ?_⟩
    · obtain ⟨_, hStep⟩ := step_of_fault hAfter hFault observer
      rw [hStep]
    · exact ((silent_faulted cartridge hFault).serve ⟨registers, hAfter⟩ r).2
  · intro m fault hFault observer hostCalls
    obtain ⟨registers, hFold⟩ :=
      Machine.HostCall.foldl_act_of_fault hFault observer hostCalls
    have hSame : ({ m with registers } : Machine).fault = some fault := hFault
    exact ⟨registers, hFold, fun budget other =>
      ⟨Machine.boot_of_fault hSame budget other, Machine.runFrame_of_fault hSame budget other⟩⟩

/-- The program of the game with a byte in its frame body that is no instruction. -/
def brokenProgram : Bytes := [0x40, 0x01, 0x01, 0x40, 0x02, 0x77]

/-- Neither a restart nor three frames of a run bring the game back, and no game comes of
an empty file. -/
theorem failed_forGood_brokenProgram :
    let p := (act (openFile (Cartridge.plainFile brokenProgram) {} .recording) .step).1
    let blank := (openFile [] {} .recording).1
    let requests := [.single (.press 6) .discard, .run (.idle 3)]
    (∃ cartridge m, p.mode = .interactive cartridge m ∧
        m.fault = some (.invalidOpcode 5 0x77) ∧
        ∀ observer, ((p.after requests).step observer).2.2 =
          some (.faulted (.invalidOpcode 5 0x77))) ∧
      ∃ cause, blank.mode = .inert cause ∧ (blank.after requests).mode = .inert cause := by
  intro p blank requests
  have hLoad := Cartridge.readFrom_plainFile (show brokenProgram.length ≤ 65522 by decide)
    (show 52 + brokenProgram.length ≤ Cartridge.defaultCeiling by decide)
  have hFaulted : ∃ cartridge m, p.mode = .interactive cartridge m ∧
      m.fault = some (.invalidOpcode 5 0x77) := by
    simp only [p, act, step, openFile, hLoad]
    exact ⟨_, _, rfl, rfl⟩
  have hInert : ∃ cause, blank.mode = .inert cause := ⟨_, rfl⟩
  obtain ⟨cartridge, m, hMode, hFault⟩ := hFaulted
  obtain ⟨cause, hCause⟩ := hInert
  have hStep := ((failed_forGood p requests).2.1 cartridge m _ hMode hFault).2.1
  exact ⟨⟨cartridge, m, hMode, hFault, hStep⟩, cause, hCause,
    ((failed_forGood blank requests).1 cause hCause).1⟩

end Player

end ImageCartridge
