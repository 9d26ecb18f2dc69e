/-
  Library.Outcome
  **COMPUTATIONS THAT CAN RAISE.**

  An `Except` computation returns or raises; what a sequence of two returns,
  and when it returns at all.
-/
import Mathlib.Tactic.TypeStar

namespace DeterminFlow.Library.Outcome

variable {ε α β : Type} {f : α → Except ε β} {x : Except ε α} {b : β}

theorem bind_eq_ok_iff : (x >>= f) = .ok b ↔ ∃ a, x = .ok a ∧ f a = .ok b := by
  constructor
  · intro h
    cases x with
    | error => cases h
    | ok a => exact ⟨a, rfl, h⟩
  intro h
  obtain ⟨a, rfl, h⟩ := h
  exact h

theorem bind_eq_error_iff {e : ε} :
    (x >>= f) = .error e ↔ x = .error e ∨ ∃ a, x = .ok a ∧ f a = .error e := by
  cases x with
  | error =>
    constructor
    · intro h
      exact .inl (congrArg Except.error (Except.error.inj h))
    intro h
    rcases h with h | ⟨a, ha, -⟩
    · exact congrArg Except.error (Except.error.inj h)
    cases ha
  | ok a =>
    constructor
    · intro h
      exact .inr ⟨a, rfl, h⟩
    intro h
    rcases h with h | ⟨a', ha, h⟩
    · cases h
    obtain rfl := Except.ok.inj ha
    exact h

theorem pure_eq_ok_iff {a b : α} : (pure a : Except ε α) = .ok b ↔ a = b := by
  show (Except.ok a : Except ε α) = .ok b ↔ a = b
  exact Except.ok.injEq a b ▸ Iff.rfl

theorem map_eq_ok_iff {f : α → β} : x.map f = .ok b ↔ ∃ a, x = .ok a ∧ f a = b := by
  cases x with
  | error =>
    constructor
    · intro h
      cases h
    intro h
    obtain ⟨a, ha, -⟩ := h
    cases ha
  | ok a =>
    constructor
    · intro h
      exact ⟨a, rfl, Except.ok.inj h⟩
    intro h
    obtain ⟨_, ha, h⟩ := h
    obtain rfl := Except.ok.inj ha
    exact congrArg Except.ok h

def Returns (x : Except ε α) : Prop := ∃ a, x = .ok a

@[simp] theorem returns_ok (a : α) : Returns (.ok a : Except ε α) := ⟨a, rfl⟩

@[simp] theorem returns_pure (a : α) : Returns (pure a : Except ε α) := ⟨a, rfl⟩

theorem returns_or_error (x : Except ε α) : Returns x ∨ ∃ e, x = .error e := by
  cases x with
  | error e => exact .inr ⟨e, rfl⟩
  | ok a => exact .inl ⟨a, rfl⟩

theorem returns_bind_iff : Returns (x >>= f) ↔ ∃ a, x = .ok a ∧ Returns (f a) := by
  constructor
  · intro h
    obtain ⟨b, h⟩ := h
    obtain ⟨a, hx, hf⟩ := bind_eq_ok_iff.1 h
    exact ⟨a, hx, b, hf⟩
  intro h
  obtain ⟨a, hx, b, hf⟩ := h
  exact ⟨b, bind_eq_ok_iff.2 ⟨a, hx, hf⟩⟩

end DeterminFlow.Library.Outcome
