import Mathlib.Logic.Basic

/-!
# Results of computations that can fail

A computation of several steps succeeds where every step does, and its result is
that of the last one.
-/

namespace ExchangeClient

theorem Except.toOption_eq_some {ε α : Type} {x : Except ε α} {a : α} :
    x.toOption = some a ↔ x = .ok a := by
  cases x with
  | error e => exact ⟨nofun, nofun⟩
  | ok b => exact ⟨fun h => congrArg Except.ok (Option.some.inj h), fun h => by cases h; rfl⟩

theorem Except.ok_bind {ε α β : Type} (a : α) (f : α → Except ε β) : .ok a >>= f = f a := rfl

theorem Except.bind_eq_ok {ε α β : Type} {x : Except ε α} {f : α → Except ε β} {b : β} :
    x >>= f = .ok b ↔ ∃ a, x = .ok a ∧ f a = .ok b := by
  cases x with
  | error e => exact ⟨nofun, nofun⟩
  | ok a => exact ⟨fun h => ⟨a, rfl, h⟩, fun ⟨_, same, h⟩ => by cases same; exact h⟩

/-- What comes after a check succeeds only where the check passed. -/
theorem Except.ite_error_eq_ok {ε α : Type} {p : Prop} [Decidable p] {e : ε} {x : Except ε α}
    {a : α} : (if p then .error e else x) = .ok a ↔ ¬p ∧ x = .ok a := by
  by_cases hp : p
  · rw [if_pos hp]
    exact ⟨nofun, fun h => absurd hp h.1⟩
  · rw [if_neg hp]
    exact ⟨fun h => ⟨hp, h⟩, fun h => h.2⟩

theorem Except.map_eq_ok {ε α β : Type} {x : Except ε α} {f : α → β} {b : β} :
    x.map f = .ok b ↔ ∃ a, x = .ok a ∧ f a = b := by
  cases x with
  | error e => exact ⟨nofun, nofun⟩
  | ok a =>
    constructor
    · intro h
      exact ⟨a, rfl, Except.ok.inj h⟩
    · rintro ⟨_, ⟨⟩, rfl⟩
      rfl

/-- What is made of a result in one step may be made of it in two. -/
theorem Except.map_bind_pure {ε α β γ : Type} {x : Except ε α} {f : α → β} {g : β → γ} {h : α → γ}
    (same : ∀ a, h a = g (f a)) :
    (do pure (h (← x)) : Except ε γ) = (do pure (f (← x)) : Except ε β).map g := by
  cases x with
  | error e => rfl
  | ok a => exact congrArg Except.ok (same a)

theorem Except.map_eq_error {ε α β : Type} {x : Except ε α} {f : α → β} {e : ε} :
    x.map f = .error e ↔ x = .error e := by
  cases x with
  | error e' => exact ⟨fun h => by cases h; rfl, fun h => by cases h; rfl⟩
  | ok a => exact ⟨nofun, nofun⟩

theorem Except.mapError_eq_ok {ε δ α : Type} {x : Except ε α} {f : ε → δ} {a : α} :
    x.mapError f = .ok a ↔ x = .ok a := by
  cases x with
  | error e => exact ⟨nofun, nofun⟩
  | ok b => exact ⟨fun h => by cases h; rfl, fun h => by cases h; rfl⟩

/-- What is computed from a result succeeds where the result does. -/
theorem Except.exists_bind_ok {ε α β : Type} {x : Except ε α} {f : α → Except ε β} :
    (∃ b, x >>= f = .ok b) ↔ ∃ a, x = .ok a ∧ ∃ b, f a = .ok b := by
  constructor
  · rintro ⟨b, success⟩
    obtain ⟨a, hx, hf⟩ := Except.bind_eq_ok.1 success
    exact ⟨a, hx, b, hf⟩
  · rintro ⟨a, hx, b, hf⟩
    exact ⟨b, Except.bind_eq_ok.2 ⟨a, hx, hf⟩⟩

theorem Except.exists_map_ok {ε α β : Type} {x : Except ε α} {f : α → β} :
    (∃ b, (do pure (f (← x))) = Except.ok b) ↔ ∃ a, x = .ok a := by
  rw [Except.exists_bind_ok]
  constructor
  · rintro ⟨a, hx, -⟩
    exact ⟨a, hx⟩
  · rintro ⟨a, hx⟩
    exact ⟨a, hx, f a, rfl⟩

theorem Except.exists_ite_error_ok {ε α : Type} {p : Prop} [Decidable p] {e : ε}
    {x : Except ε α} : (∃ a, (if p then .error e else x) = .ok a) ↔ ¬p ∧ ∃ a, x = .ok a := by
  simp only [Except.ite_error_eq_ok, exists_and_left]

theorem Except.exists_unit_ok {ε : Type} {x : Except ε Unit} :
    (∃ u, x = .ok u) ↔ x = .ok () := ⟨fun ⟨⟨⟩, h⟩ => h, fun h => ⟨(), h⟩⟩

end ExchangeClient
