import Mathlib.Data.List.Forall2

/-! When a chain of fallible steps succeeds: exactly when each step does, and
then the results of the steps are the result of the chain. -/
namespace ImageCartridge.Fallible

variable {ε ε' α β : Type}

@[simp] theorem ok_bind (a : α) (f : α → Except ε β) : (Except.ok a >>= f) = f a := rfl

@[simp] theorem error_bind (cause : ε) (f : α → Except ε β) :
    (Except.error cause >>= f) = .error cause := rfl

@[simp] theorem mapError_ok (a : α) (f : ε → ε') : (Except.ok a).mapError f = .ok a := rfl

@[simp] theorem mapError_error (cause : ε) (f : ε → ε') :
    (Except.error cause : Except ε α).mapError f = .error (f cause) := rfl

/-- A sequence succeeds if both of its parts do. This is how the decoders are taken apart, one
step at a time. -/
theorem bind_eq_ok_iff {x : Except ε α} {f : α → Except ε β} {result : β} :
    (x >>= f) = .ok result ↔ ∃ a, x = .ok a ∧ f a = .ok result := by
  cases x with
  | error cause =>
      constructor
      · intro h
        cases h
      · rintro ⟨a, hStep, _⟩
        cases hStep
  | ok a =>
      constructor
      · intro h
        exact ⟨a, rfl, h⟩
      · rintro ⟨_, hStep, h⟩
        cases hStep
        exact h

/-- A chain fails where its first step does, or else where the rest of it does. -/
theorem bind_eq_error_iff {x : Except ε α} {f : α → Except ε β} {cause : ε} :
    (x >>= f) = .error cause ↔ x = .error cause ∨ ∃ a, x = .ok a ∧ f a = .error cause := by
  cases x <;> simp

theorem map_eq_ok_iff {x : Except ε α} {f : α → β} {b : β} :
    x.map f = .ok b ↔ ∃ a, x = .ok a ∧ f a = b := by
  cases x <;> simp [Except.map]

/-- Naming the cause of a failure anew does not touch a success. -/
theorem mapError_eq_ok_iff {x : Except ε α} {f : ε → ε'} {a : α} :
    x.mapError f = .ok a ↔ x = .ok a := by
  cases x with
  | error cause => constructor <;> intro h <;> cases h
  | ok b => constructor <;> intro h <;> cases h <;> rfl

theorem mapError_eq_error_iff {x : Except ε α} {f : ε → ε'} {cause : ε'} :
    x.mapError f = .error cause ↔ ∃ found, x = .error found ∧ f found = cause := by
  cases x <;> simp

/-- A list is mapped when each of its elements is. -/
theorem mapM_eq_ok_iff {f : α → Except ε β} {xs : List α} {ys : List β} :
    xs.mapM f = .ok ys ↔ List.Forall₂ (fun x y => f x = .ok y) xs ys := by
  induction xs generalizing ys with
  | nil =>
      rw [List.mapM_nil, List.forall₂_nil_left_iff]
      exact ⟨fun h => (Except.ok.inj h).symm, fun h => h ▸ rfl⟩
  | cons x xs ih =>
      rw [List.mapM_cons, bind_eq_ok_iff, List.forall₂_cons_left_iff]
      simp only [bind_eq_ok_iff, ih]
      constructor
      · rintro ⟨y, hHead, rest, hRest, h⟩
        exact ⟨y, rest, hHead, hRest, (Except.ok.inj h).symm⟩
      · rintro ⟨y, rest, hHead, hRest, rfl⟩
        exact ⟨y, hHead, rest, hRest, rfl⟩

/-- Each result of a mapped list comes of one of its elements. -/
theorem exists_mem_of_forall₂ {R : α → β → Prop} {xs : List α} {ys : List β}
    (h : List.Forall₂ R xs ys) {y : β} (hMem : y ∈ ys) : ∃ x ∈ xs, R x y := by
  induction h with
  | nil => cases hMem
  | @cons x z xs ys hHead _ ih =>
      rcases List.mem_cons.mp hMem with rfl | hLater
      · exact ⟨x, List.mem_cons_self, hHead⟩
      · obtain ⟨other, hOther, hRel⟩ := ih hLater
        exact ⟨other, List.mem_cons_of_mem _ hOther, hRel⟩

/-- A list can be mapped when each of its elements can. -/
theorem exists_mapM_eq_ok {f : α → Except ε β} {xs : List α} (h : ∀ x ∈ xs, ∃ y, f x = .ok y) :
    ∃ ys, xs.mapM f = .ok ys := by
  induction xs with
  | nil => exact ⟨[], rfl⟩
  | cons x xs ih =>
      obtain ⟨y, hHead⟩ := h x List.mem_cons_self
      obtain ⟨ys, hRest⟩ := ih fun other hMem => h other (List.mem_cons_of_mem _ hMem)
      exact ⟨y :: ys, mapM_eq_ok_iff.mpr (.cons hHead (mapM_eq_ok_iff.mp hRest))⟩

/-- Work on something that may be absent fails only where it is there. -/
theorem optionMapM_eq_ok_iff {f : α → Except ε β} {x : Option α} {y : Option β} :
    x.mapM f = .ok y ↔ (x = none ∧ y = none) ∨ ∃ a b, x = some a ∧ f a = .ok b ∧ y = some b := by
  cases x with
  | none => simp [pure, Except.pure, eq_comm]
  | some a =>
      rw [Option.mapM_some]
      cases hStep : f a with
      | error cause => simp [hStep, Functor.map, Except.map]
      | ok b => simp [hStep, Functor.map, Except.map, eq_comm]

end ImageCartridge.Fallible
