import Mathlib.Data.List.Basic
import Mathlib.Order.Lattice

/-!
# Rounds

A loop of bounded length: a round emits one thing at most, and either ends the loop with a
result or goes on with another state.

 * `length_run_le`: a round emits one thing at most.
 * `mem_run_iff`: what is emitted, by the rounds that are reached.
-/

namespace IncidentRelay.Rounds

variable {σ ε ρ : Type*}

/-- What is emitted, and the result or the state of the next round. -/
structure Round (σ ε ρ : Type*) where
  emitted : Option ε
  next : Except ρ σ

/-- The rounds from a number on, as many as there are left. -/
def run (round : ℕ → σ → Round σ ε ρ) (exhausted : ρ) : ℕ → ℕ → σ → List ε × ρ
  | 0, _, _ => ([], exhausted)
  | left + 1, k, s =>
    match (round k s).next with
    | .error result => ((round k s).emitted.toList, result)
    | .ok s' =>
      let rest := run round exhausted left (k + 1) s'
      ((round k s).emitted.toList ++ rest.1, rest.2)

/-- The round of the number is reached in the state. -/
inductive Reached (round : ℕ → σ → Round σ ε ρ) (k : ℕ) (s : σ) : ℕ → σ → Prop
  | start : Reached round k s k s
  | step {j : ℕ} {t t' : σ} : Reached round k s j t → (round j t).next = .ok t' →
      Reached round k s (j + 1) t'

variable {round : ℕ → σ → Round σ ε ρ} {exhausted : ρ} {k j left : ℕ} {s t : σ}

/-- A loop emits no more than it has rounds. -/
theorem length_run_le (left k : ℕ) (s : σ) : (run round exhausted left k s).1.length ≤ left := by
  induction left generalizing k s with
  | zero => exact le_rfl
  | succ left ih =>
    have hemitted : (round k s).emitted.toList.length ≤ 1 := by
      cases (round k s).emitted with
      | none => exact Nat.zero_le 1
      | some e => exact le_rfl
    rw [run]
    split
    · exact hemitted.trans (by omega)
    · rename_i s' hnext
      have hrest := ih (k + 1) s'
      rw [List.length_append]
      omega

theorem Reached.le (h : Reached round k s j t) : k ≤ j := by
  induction h with
  | start => exact le_rfl
  | step _ _ ih => omega

/-- The first round of a longer way. -/
theorem Reached.cons {s' : σ} (hnext : (round k s).next = .ok s') (h : Reached round (k + 1) s' j t) :
    Reached round k s j t := by
  induction h with
  | start => exact .step .start hnext
  | step _ hlast ih => exact .step ih hlast

/-- One round after another. -/
theorem Reached.uncons (h : Reached round k s j t) (hlt : k < j) :
    ∃ s', (round k s).next = .ok s' ∧ Reached round (k + 1) s' j t := by
  induction h with
  | start => exact absurd hlt (lt_irrefl k)
  | @step j t t' h hlast ih =>
    rcases Nat.lt_or_ge k j with hkj | hjk
    · obtain ⟨s', hnext, hrest⟩ := ih hkj
      exact ⟨s', hnext, .step hrest hlast⟩
    · -- the last round is the first one as well
      obtain rfl : k = j := le_antisymm (Reached.le h) hjk
      cases h with
      | start => exact ⟨t', hlast, .start⟩
      | step h' _ => exact absurd (Reached.le h') (by omega)

/-- **What a loop emits** is what the rounds emit that are reached in time. -/
theorem mem_run_iff {e : ε} : e ∈ (run round exhausted left k s).1 ↔
    ∃ j t, Reached round k s j t ∧ j < k + left ∧ (round j t).emitted = some e := by
  induction left generalizing k s with
  | zero =>
    refine iff_of_false List.not_mem_nil ?_
    rintro ⟨j, t, hreached, hlt, -⟩
    exact absurd hreached.le (by omega)
  | succ left ih =>
    -- the first round, and the rounds behind it
    have hfirst : (∃ j t, Reached round k s j t ∧ j < k + (left + 1) ∧ (round j t).emitted = some e) ↔
        (round k s).emitted = some e ∨ ∃ s', (round k s).next = .ok s' ∧
          ∃ j t, Reached round (k + 1) s' j t ∧ j < k + 1 + left ∧ (round j t).emitted = some e := by
      constructor
      · rintro ⟨j, t, hreached, hlt, hemitted⟩
        rcases Nat.lt_or_ge k j with hkj | hjk
        · obtain ⟨s', hnext, hrest⟩ := hreached.uncons hkj
          exact .inr ⟨s', hnext, j, t, hrest, by omega, hemitted⟩
        · cases hreached with
          | start => exact .inl hemitted
          | step h _ => exact absurd h.le (by omega)
      · rintro (hemitted | ⟨s', hnext, j, t, hrest, hlt, hemitted⟩)
        · exact ⟨k, s, .start, by omega, hemitted⟩
        · exact ⟨j, t, .cons hnext hrest, by omega, hemitted⟩
    rw [hfirst, run]
    split
    · rename_i result hnext
      rw [Option.mem_toList]
      refine (or_iff_left ?_).symm
      rintro ⟨s', hnext', -⟩
      rw [hnext] at hnext'
      cases hnext'
    · rename_i s' hnext
      rw [List.mem_append, Option.mem_toList, ih]
      refine or_congr Iff.rfl ?_
      constructor
      · exact fun h => ⟨s', hnext, h⟩
      · rintro ⟨s'', hnext', h⟩
        rw [hnext] at hnext'
        cases hnext'
        exact h

end IncidentRelay.Rounds
