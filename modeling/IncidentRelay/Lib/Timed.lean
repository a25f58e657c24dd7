import Mathlib.Algebra.Order.Ring.Int
import Mathlib.Data.Nat.Find
import Mathlib.Data.Nat.Init
import Mathlib.Tactic.Common

/-!
# Timed walks

A walk stands at a stage of a list until a due time. The first look at or after that time
moves it to the next stage, whose time starts with the look; behind the last stage it is at
its end. The walk never passes over a stage (`Stand.look_stage`), and under a clock that
grows without a bound it comes to its end and stays there (`Stand.eventually_ended`).
-/

namespace IncidentRelay

/-- Where a walk stands, and until when. -/
structure Stand where
  stage : ℕ
  due : Option Int
  deriving DecidableEq

namespace Stand

variable {σ : Type*} (stages : List σ) (delay : σ → Int)

/-- The walk when it is looked at. -/
def look (now : Int) (s : Stand) : Stand :=
  match s.due with
  | none => s
  | some due =>
    if now < due then s
    else match stages[s.stage + 1]? with
      | some next => { stage := s.stage + 1, due := some (now + delay next) }
      | none => { s with due := none }

/-- The walk after a number of looks. -/
def after (clock : ℕ → Int) (s : Stand) : ℕ → Stand
  | 0 => s
  | k + 1 => look stages delay (clock k) (after clock s k)

/-- The clock passes every instant, from any look on. -/
def Unbounded (clock : ℕ → Int) : Prop := ∀ instant k, ∃ j, k ≤ j ∧ instant ≤ clock j

/-- The walk is at its end. -/
structure Ended (s : Stand) : Prop where
  last : s.stage + 1 = stages.length
  due_none : s.due = none

variable {stages delay}

/-- A look keeps the stage, or moves to the next one when its time is over. -/
theorem look_stage (now : Int) (s : Stand) :
    (look stages delay now s).stage = s.stage ∨
      ∃ due next, s.due = some due ∧ due ≤ now ∧ stages[s.stage + 1]? = some next ∧
        look stages delay now s = { stage := s.stage + 1, due := some (now + delay next) } := by
  unfold look
  cases hdue : s.due with
  | none => exact .inl rfl
  | some due =>
    dsimp only
    split
    · exact .inl rfl
    · rename_i hnow
      cases hnext : stages[s.stage + 1]? with
      | none => exact .inl rfl
      | some next => exact .inr ⟨due, next, rfl, not_lt.mp hnow, rfl, rfl⟩

/-- A look stays among the stages. -/
theorem look_in_range {now : Int} {s : Stand} (h : s.stage < stages.length) :
    (look stages delay now s).stage < stages.length := by
  rcases @look_stage _ stages delay now s with hkeep | ⟨_, _, _, _, hnext, hlook⟩
  · rwa [hkeep]
  · rw [hlook]
    exact (List.getElem?_eq_some_iff.mp hnext).1

theorem after_in_range {clock : ℕ → Int} {s : Stand} (h : s.stage < stages.length) (k : ℕ) :
    (after stages delay clock s k).stage < stages.length := by
  induction k with
  | zero => exact h
  | succ k ih => exact look_in_range ih

/-- A walk with a due time waits, moves on, or comes to its end at the last stage. -/
theorem look_due {now due : Int} {s : Stand} (hdue : s.due = some due)
    (hrange : s.stage < stages.length) :
    (now < due ∧ look stages delay now s = s) ∨
    (∃ next, due ≤ now ∧
      look stages delay now s = { stage := s.stage + 1, due := some (now + delay next) }) ∨
    (due ≤ now ∧ Ended stages (look stages delay now s)) := by
  unfold look
  rw [hdue]
  dsimp only
  by_cases hnow : now < due
  · exact .inl ⟨hnow, if_pos hnow⟩
  · rw [if_neg hnow]
    refine .inr ?_
    cases hnext : stages[s.stage + 1]? with
    | some next => exact .inl ⟨next, not_lt.mp hnow, rfl⟩
    | none =>
      have hlast := List.getElem?_eq_none_iff.mp hnext
      exact .inr ⟨not_lt.mp hnow, ⟨by show s.stage + 1 = _; omega, rfl⟩⟩

theorem look_ended {now : Int} {s : Stand} (h : Ended stages s) :
    look stages delay now s = s := by
  unfold look
  rw [h.due_none]

/-- Through all looks that follow. -/
theorem after_ended {clock : ℕ → Int} {s : Stand} {k : ℕ}
    (h : Ended stages (after stages delay clock s k)) (j : ℕ) (hj : k ≤ j) :
    after stages delay clock s j = after stages delay clock s k := by
  induction j, hj using Nat.le_induction with
  | base => rfl
  | succ j _ ih =>
    rw [after, ih]
    exact look_ended h

/-- From a due time on, the walk waits until a look at or after it. -/
theorem after_waits {clock : ℕ → Int} {s : Stand} {k : ℕ} {due : Int}
    (hdue : (after stages delay clock s k).due = some due) (j : ℕ) (hj : k ≤ j)
    (hearly : ∀ i, k ≤ i → i < j → clock i < due) :
    after stages delay clock s j = after stages delay clock s k := by
  induction j, hj using Nat.le_induction with
  | base => rfl
  | succ j hj ih =>
    have hsame := ih fun i hi hij => hearly i hi (by omega)
    rw [after, hsame]
    unfold look
    rw [hdue]
    exact if_pos (hearly j hj (by omega))

/-- **Under a clock without a bound the walk comes to its end and stays there.** -/
theorem eventually_ended {clock : ℕ → Int} (hclock : Unbounded clock) {s : Stand}
    (hrange : s.stage < stages.length) (hstart : s.due.isSome) :
    ∃ k, ∀ j, k ≤ j → Ended stages (after stages delay clock s j) := by
  -- by the number of stages that are left, from any look with a due time
  have hfrom (left : ℕ) : ∀ k, (after stages delay clock s k).due.isSome →
      stages.length - (after stages delay clock s k).stage ≤ left →
      ∃ j, Ended stages (after stages delay clock s j) := by
    induction left with
    | zero =>
      intro k _ hleft
      have hin := @after_in_range _ stages delay clock _ hrange k
      omega
    | succ left ih =>
      intro k hsome hleft
      obtain ⟨due, hdue⟩ := Option.isSome_iff_exists.mp hsome
      have hlate : ∃ j, k ≤ j ∧ due ≤ clock j := hclock due k
      -- the first look that is late enough
      let j := Nat.find hlate
      have hj := Nat.find_spec hlate
      have hsame := after_waits hdue j hj.1 fun i hi hij => by
        have hnot := Nat.find_min hlate hij
        by_contra hle
        exact hnot ⟨hi, not_lt.mp hle⟩
      have hin := @after_in_range _ stages delay clock _ hrange k
      have hlook : after stages delay clock s (j + 1) =
          look stages delay (clock j) (after stages delay clock s k) := by rw [after, hsame]
      rcases @look_due _ stages delay (clock j) _ _ hdue hin with
        ⟨hearly, _⟩ | ⟨next, _, hmoved⟩ | ⟨_, hended⟩
      · exact absurd hj.2 (not_le.mpr hearly)
      · rw [← hlook] at hmoved
        refine ih (j + 1) (by rw [hmoved]; rfl) ?_
        rw [hmoved]
        show stages.length - ((after stages delay clock s k).stage + 1) ≤ left
        omega
      · rw [← hlook] at hended
        exact ⟨j + 1, hended⟩
  obtain ⟨k, hk⟩ := hfrom (stages.length - s.stage) 0 hstart le_rfl
  refine ⟨k, fun j hj => ?_⟩
  rw [after_ended hk j hj]
  exact hk

end Stand

end IncidentRelay
