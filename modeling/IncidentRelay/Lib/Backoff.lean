import Mathlib.Data.Nat.Init
import Mathlib.Tactic.Common

/-!
# Spaced times

Times that keep a distance: between the `i`-th and the one after it at least `gap i`.
-/

namespace IncidentRelay

variable {gap : ℕ → ℕ} {times : List ℕ} {now : ℕ}

def Spaced (gap : ℕ → ℕ) (times : List ℕ) : Prop :=
  ∀ i (h : i + 1 < times.length), times[i] + gap i ≤ times[i + 1]

theorem Spaced.nil : Spaced gap [] := by
  intro i h
  simp at h

/-- A time that is far enough behind the last one can follow. -/
theorem Spaced.concat (h : Spaced gap times)
    (hnow : ∀ t ∈ times.getLast?, t + gap (times.length - 1) ≤ now) :
    Spaced gap (times ++ [now]) := by
  intro i hi
  rw [List.length_append, List.length_singleton] at hi
  by_cases hlt : i + 1 < times.length
  · rw [List.getElem_append_left (by omega), List.getElem_append_left hlt]
    exact h i hlt
  · obtain rfl : i = times.length - 1 := by omega
    have hlast : times.getLast? = some times[times.length - 1] := by
      rw [List.getLast?_eq_getElem?, List.getElem?_eq_getElem]
    have := hnow _ hlast
    rw [List.getElem_append_left (by omega), List.getElem_append_right (by omega)]
    simpa using this

end IncidentRelay
