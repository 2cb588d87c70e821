import ImageCartridge.Player.Basic

/-! What a host does with an open player, call by call, and which commands its
calls amount to. -/
namespace ImageCartridge

open Snake

/-- The codes a game obeys. -/
def IsGameplay (code : UInt16) : Prop :=
  1 ≤ code.toNat ∧ code.toNat ≤ 6

instance (code : UInt16) : Decidable (IsGameplay code) :=
  inferInstanceAs (Decidable (1 ≤ code.toNat ∧ code.toNat ≤ 6))

/-- The codes a game obeys are those of the commands that the host leaves alone. -/
theorem isGameplay_iff {code : UInt16} :
    IsGameplay code ↔ ∃ command, Command.ofCode? code = some command ∧ command.host? = none := by
  constructor
  · rintro ⟨hLow, hHigh⟩
    have hCode : code.toNat = 1 ∨ code.toNat = 2 ∨ code.toNat = 3 ∨ code.toNat = 4 ∨
        code.toNat = 5 ∨ code.toNat = 6 := by omega
    unfold Command.ofCode?
    rcases hCode with h | h | h | h | h | h <;> rw [h] <;> exact ⟨_, rfl, rfl⟩
  · rintro ⟨command, hCode, hHost⟩
    rw [← Command.code_of_ofCode? hCode]
    cases command with
    | download | capture | load => cases hHost
    | up | down | left | right | startPause | restart => decide

namespace Player

/-- A code of the game is queued, in place of any other. -/
theorem press_of_isGameplay {p : Player} (hOn : p.isInteractive = true) {code : UInt16}
    (hCode : IsGameplay code) :
    ∃ command, command.code = code ∧ p.press code = ({ p with queued := some command }, none) := by
  obtain ⟨command, hCommand, hHost⟩ := isGameplay_iff.mp hCode
  refine ⟨command, Command.code_of_ofCode? hCommand, ?_⟩
  simp only [press, hCommand, hHost, if_pos hOn]

/-- Any other code leaves the player as it is. -/
theorem press_of_not_isGameplay (p : Player) {code : UInt16} (hCode : ¬ IsGameplay code) :
    (p.press code).1 = p := by
  unfold press
  split
  · rfl
  · next command hCommand =>
      cases hHost : command.host? with
      | none => exact absurd (isGameplay_iff.mpr ⟨command, hCommand, hHost⟩) hCode
      | some host => rfl

/-- What can be asked of an open player. -/
inductive Call where
  | press (code : UInt16)
  | touch (x y : Scalar)
  | setViewport (width height : Scalar)
  | step

def act (s : Player × Observer) : Call → Player × Observer
  | .press code => ((s.1.press code).1, s.2)
  | .touch x y => ((s.1.touch x y).1, s.2)
  | .setViewport width height => (s.1.setViewport width height, s.2)
  | .step =>
      let (player, observer, _) := s.1.step s.2
      (player, observer)

namespace Call

def isStep : Call → Bool
  | step => true
  | press _ | touch _ _ | setViewport _ _ => false

/-- Calls fall into steps, which let a frame pass, and all the others. The inductions over calls
split them in this way. -/
theorem eq_step_or (call : Call) : call = step ∨ call.isStep = false := by
  cases call with
  | step => exact .inl rfl
  | press | touch | setViewport => exact .inr rfl

def view (before : View) : Call → View
  | setViewport width height => .fit width height
  | press _ | touch _ _ | step => before

/-- The code a call names, directly or by a button of the table. -/
def code? (table : Option TruthTable) (view : View) : Call → Option UInt16
  | press code => some code
  | touch x y => table.bind fun table => table.resolve view x y
  | setViewport _ _ | step => none

def queues? (table : Option TruthTable) (view : View) (call : Call) : Option UInt16 :=
  (call.code? table view).bind fun code => if IsGameplay code then some code else none

end Call

/-- The commands that calls amount to, one for each step: the last code queued since
the step before, or zero. -/
def commands (table : Option TruthTable) (view : View) (since : List UInt16) :
    List Call → List UInt16
  | [] => []
  | .step :: calls => since.getLast?.getD 0 :: commands table view [] calls
  | call :: calls =>
      commands table (call.view view) (since ++ (call.queues? table view).toList) calls

/-- Until the next step, a call only adds to the codes that are waiting. -/
theorem commands_cons {table : Option TruthTable} {view : View} {since : List UInt16}
    {call : Call} (hCall : call.isStep = false) (calls : List Call) :
    commands table view since (call :: calls) =
      commands table (call.view view) (since ++ (call.queues? table view).toList) calls := by
  cases call with
  | press | touch | setViewport => rfl
  | step => cases hCall

/-- The last code counts, and a call that queues none leaves the one before. -/
theorem getLast?_append_toList (since : List UInt16) (queued : Option UInt16) :
    (since ++ queued.toList).getLast? = queued.or since.getLast? := by
  cases queued <;> simp

theorem length_commands (table : Option TruthTable) (view : View) (since : List UInt16)
    (calls : List Call) : (commands table view since calls).length = calls.countP Call.isStep := by
  induction calls generalizing view since with
  | nil => rfl
  | cons call calls ih =>
      rcases call.eq_step_or with rfl | hCall
      · rw [commands, List.countP_cons_of_pos rfl, List.length_cons, ih]
      · rw [commands_cons hCall, ih, List.countP_cons_of_neg (by simp [hCall])]

example : commands none .identity [] [.press 1, .press 3, .press 7, .step, .step] = [3, 0] := rfl

/-- Pressing a code queues it, or leaves the queue alone if it is none to queue. -/
theorem act_press {p : Player} (hOn : p.isInteractive = true) (observer : Observer)
    (code : UInt16) : ∃ queued, act (p, observer) (.press code) = ({ p with queued }, observer) ∧
      queued.map Command.code =
        (if IsGameplay code then some code else none).or (p.queued.map Command.code) := by
  by_cases hCode : IsGameplay code
  · obtain ⟨command, rfl, hPress⟩ := press_of_isGameplay hOn hCode
    exact ⟨some command, by rw [act, hPress], by rw [if_pos hCode]; rfl⟩
  · exact ⟨p.queued, by rw [act, p.press_of_not_isGameplay hCode], by rw [if_neg hCode]; rfl⟩

/-- A call that lets no frame pass changes at most the view and the queue. -/
theorem act_of_not_step {p : Player} {cartridge : Cartridge} {machine : Machine}
    (hMode : p.mode = .interactive cartridge machine) (observer : Observer) {call : Call}
    (hCall : call.isStep = false) :
    ∃ queued, act (p, observer) call =
        ({ p with view := call.view p.view, queued }, observer) ∧
      queued.map Command.code =
        (call.queues? cartridge.truthTable p.view).or (p.queued.map Command.code) := by
  have hOn : p.isInteractive = true := by
    rw [isInteractive, hMode]
  cases call with
  | step => cases hCall
  | setViewport width height => exact ⟨p.queued, rfl, rfl⟩
  | press code => exact act_press hOn observer code
  | touch x y =>
      have hCode : p.codeAt? x y = (Call.touch x y).code? cartridge.truthTable p.view := by
        rw [codeAt?, cartridge?, hMode]
        rfl
      cases hFound : (Call.touch x y).code? cartridge.truthTable p.view with
      | none =>
          refine ⟨p.queued, ?_, ?_⟩
          · simp only [act, touch, hCode, hFound]
            rfl
          · rw [Call.queues?, hFound]
            rfl
      | some code =>
          have hTouch : act (p, observer) (.touch x y) = act (p, observer) (.press code) := by
            simp only [act, touch, hCode, hFound]
          rw [hTouch, Call.queues?, hFound]
          exact act_press hOn observer code

end Player

end ImageCartridge
