import Mathlib.Tactic.Common

/-!
# Computations that may fail

A block of an `Except` computation that succeeded is taken apart with
`bind_eq_ok`, one that failed with `bind_eq_error`; two of them that agree under a
projection with `map_ok_eq` and `map_error_eq`; a check that only succeeds or raises, with
`reject_eq_ok`. Two computations side by side agree when both raise the same or both succeed with
related values (`Agree`), and blocks that agree are put together with `Agree.bind`.
-/

namespace IncidentRelay

universe u v

variable {ε : Type u} {α β : Type v}

/-- A block succeeds when both parts do. -/
theorem bind_eq_ok {x : Except ε α} {f : α → Except ε β} {b : β} :
    x >>= f = .ok b ↔ ∃ a, x = .ok a ∧ f a = .ok b := by
  cases x with
  | error e => simp [bind, Except.bind]
  | ok a => simp [bind, Except.bind]

theorem map_eq_error {x : Except ε α} {f : α → β} {e : ε} : x.map f = .error e ↔ x = .error e := by
  cases x <;> simp [Except.map]

theorem bind_eq_error {x : Except ε α} {f : α → Except ε β} {e : ε} :
    x >>= f = .error e ↔ x = .error e ∨ ∃ a, x = .ok a ∧ f a = .error e := by
  cases x <;> simp [bind, Except.bind]

theorem ok_of_isSome {x : Except ε α} (h : x.toOption.isSome = true) : ∃ a, x = .ok a := by
  cases x with
  | error e => cases h
  | ok a => exact ⟨a, rfl⟩

theorem ok_of_any {x : Except ε α} {p : α → Bool} (h : x.toOption.any p = true) :
    ∃ a, x = .ok a ∧ p a = true := by
  cases x with
  | error e => cases h
  | ok a => exact ⟨a, rfl, h⟩

/-- Agreement with a success. -/
theorem map_ok_eq {γ : Type v} {x : Except ε α} {f : α → γ} {g : β → γ} {b : β}
    (h : x.map f = (Except.ok b).map g) : ∃ a, x = .ok a ∧ f a = g b := by
  cases x with
  | error e => cases h
  | ok a => exact ⟨a, rfl, Except.ok.inj h⟩

/-- Agreement with a failure. -/
theorem map_error_eq {γ : Type v} {x : Except ε α} {f : α → γ} {g : β → γ} {e : ε}
    (h : x.map f = (Except.error e : Except ε β).map g) : x = .error e := by
  cases x with
  | error e' =>
    cases h
    rfl
  | ok a => cases h

/-- Both raise the same, or both succeed with related values. -/
inductive Agree {γ : Type v} (R : α → γ → Prop) : Except ε α → Except ε γ → Prop
  | ok {a : α} {c : γ} : R a c → Agree R (.ok a) (.ok c)
  | error (e : ε) : Agree R (.error e) (.error e)

namespace Agree

variable {γ δ : Type v} {R : α → γ → Prop}

theorem refl {P : α → α → Prop} (h : ∀ a, P a a) (x : Except ε α) : Agree P x x := by
  cases x with
  | error e => exact .error e
  | ok a => exact .ok (h a)

/-- Blocks that agree, on results that agree. -/
theorem bind {S : β → δ → Prop} {x : Except ε α} {y : Except ε γ} {f : α → Except ε β}
    {g : γ → Except ε δ} (h : Agree R x y) (hs : ∀ a c, R a c → Agree S (f a) (g c)) :
    Agree S (x >>= f) (y >>= g) := by
  cases h with
  | ok hr => exact hs _ _ hr
  | error e => exact .error e

theorem symm {x : Except ε α} {y : Except ε γ} (h : Agree R x y) :
    Agree (fun c a => R a c) y x := by
  cases h with
  | ok hr => exact .ok hr
  | error e => exact .error e

theorem trans {S : γ → β → Prop} {T : α → β → Prop} {x : Except ε α} {y : Except ε γ}
    {z : Except ε β} (h : Agree R x y) (h' : Agree S y z) (ht : ∀ a c b, R a c → S c b → T a b) :
    Agree T x z := by
  cases h with
  | ok hr =>
    cases h' with
    | ok hs => exact .ok (ht _ _ _ hr hs)
  | error e =>
    cases h' with
    | error => exact .error e

/-- Values that are related by an equality of views are equal under the views. -/
theorem map_eq {ρ : Type v} {f : α → ρ} {g : γ → ρ} {x : Except ε α} {y : Except ε γ}
    (h : Agree (fun a c => f a = g c) x y) : x.map f = y.map g := by
  cases h with
  | ok hr => exact congrArg Except.ok hr
  | error e => rfl

end Agree

/-- `if bad: return error`. -/
def reject (bad : Bool) (error : ε) : Except ε Unit :=
  if bad then .error error else .ok ()

@[simp] theorem reject_eq_ok {bad : Bool} {error : ε} {u : Unit} :
    reject bad error = .ok u ↔ bad = false := by
  cases bad <;> simp [reject]

end IncidentRelay
