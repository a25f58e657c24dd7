import Mathlib.Data.List.Induction
import Mathlib.Data.Set.Basic
import Mathlib.Tactic.Common

/-!
# Keys that several agents refresh

Every agent looks at some of the keys of a shared set. A refresh by an agent keeps of the
keys that it looks at those that it wants and drops the others. What is left after several
refreshes does not depend on their order exactly when the agents agree on the keys that
more than one of them looks at (`OrderFree.agree`, `Agree.orderFree`).
-/

namespace IncidentRelay

/-- What each agent looks at, and what it wants of it. -/
structure Refresher (α κ : Type*) where
  touches : α → κ → Prop
  keys : α → Set κ
  sub : ∀ a k, k ∈ keys a → touches a k

namespace Refresher

variable {α κ : Type*} (R : Refresher α κ)

def refresh (a : α) (active : Set κ) : Set κ :=
  {k | k ∈ R.keys a ∨ (k ∈ active ∧ ¬R.touches a k)}

/-- The refreshes of a list of agents, one after the other. -/
def run (agents : List α) (active : Set κ) : Set κ :=
  agents.foldl (fun active a => R.refresh a active) active

theorem run_append (as bs : List α) (active : Set κ) :
    R.run (as ++ bs) active = R.run bs (R.run as active) := List.foldl_append

theorem run_concat (as : List α) (a : α) (active : Set κ) :
    R.run (as ++ [a]) active = R.refresh a (R.run as active) := R.run_append as [a] active

variable {R}

theorem mem_refresh {a : α} {active : Set κ} {k : κ} :
    k ∈ R.refresh a active ↔ k ∈ R.keys a ∨ (k ∈ active ∧ ¬R.touches a k) := Iff.rfl

/-- An agent decides on the keys that it looks at. -/
theorem mem_refresh_of_touches {a : α} {active : Set κ} {k : κ} (h : R.touches a k) :
    k ∈ R.refresh a active ↔ k ∈ R.keys a := by
  rw [mem_refresh]
  constructor
  · rintro (hk | ⟨-, hno⟩)
    · exact hk
    · exact absurd h hno
  · exact .inl

/-- It leaves the others. -/
theorem mem_refresh_of_not_touches {a : α} {active : Set κ} {k : κ} (h : ¬R.touches a k) :
    k ∈ R.refresh a active ↔ k ∈ active := by
  rw [mem_refresh]
  constructor
  · rintro (hk | ⟨hk, -⟩)
    · exact absurd (R.sub a k hk) h
    · exact hk
  · exact fun hk => .inr ⟨hk, h⟩

/-- What no agent looks at stays as it is. -/
theorem mem_run_of_not_touches {as : List α} {active : Set κ} {k : κ}
    (h : ∀ a ∈ as, ¬R.touches a k) : k ∈ R.run as active ↔ k ∈ active := by
  induction as using List.reverseRecOn with
  | nil => exact Iff.rfl
  | append_singleton as a ih =>
    rw [run_concat, mem_refresh_of_not_touches (h a (by simp))]
    exact ih fun b hb => h b (List.mem_append_left _ hb)

variable (R) in
/-- The agents agree on every key that two of them look at. -/
def Agree (agents : Set α) : Prop :=
  ∀ a ∈ agents, ∀ b ∈ agents, ∀ k, R.touches a k → R.touches b k → (k ∈ R.keys a ↔ k ∈ R.keys b)

/-- Whoever looked at the key has decided on it as every other would. -/
theorem mem_run_of_touches {agents : Set α} (hagree : R.Agree agents) {as : List α}
    (has : ∀ a ∈ as, a ∈ agents) {active : Set κ} {a : α} {k : κ} (ha : a ∈ as)
    (hk : R.touches a k) : k ∈ R.run as active ↔ k ∈ R.keys a := by
  induction as using List.reverseRecOn with
  | nil => cases ha
  | append_singleton as b ih =>
    rw [run_concat]
    by_cases hb : R.touches b k
    · rw [mem_refresh_of_touches hb]
      exact hagree b (has b (by simp)) a (has a ha) k hb hk
    · rw [mem_refresh_of_not_touches hb]
      rcases List.mem_append.mp ha with ha' | ha'
      · exact ih (fun c hc => has c (List.mem_append_left _ hc)) ha'
      · obtain rfl := List.mem_singleton.mp ha'
        exact absurd hk hb

variable (R) in
/-- Refreshes by the same agents of the set lead to the same keys. -/
def OrderFree (agents : Set α) (active : Set κ) : Prop :=
  ∀ as bs : List α, (∀ a ∈ as, a ∈ agents) → (∀ a, a ∈ as ↔ a ∈ bs) →
    R.run as active = R.run bs active

/-- Where the order does not matter, two agents that look at a key agree on it. -/
theorem OrderFree.agree {agents : Set α} {active : Set κ} (h : R.OrderFree agents active) :
    R.Agree agents := by
  -- one of two agents decides last
  have hlast : ∀ a ∈ agents, ∀ b ∈ agents, ∀ k, R.touches a k → R.touches b k →
      k ∈ R.keys a → k ∈ R.keys b := by
    intro a ha b hb k hak hbk hk
    have hsame : R.run [a, b] active = R.run [b, a] active := by
      refine h [a, b] [b, a] ?_ fun c => by simp [or_comm]
      intro c hc
      have hpair : c = a ∨ c = b := by simpa using hc
      rcases hpair with rfl | rfl
      · exact ha
      · exact hb
    have hin : k ∈ R.run [b, a] active := (mem_refresh_of_touches hak).mpr hk
    rw [← hsame] at hin
    exact (mem_refresh_of_touches hbk).mp hin
  exact fun a ha b hb k hak hbk => ⟨hlast a ha b hb k hak hbk, hlast b hb a ha k hbk hak⟩

theorem Agree.orderFree {agents : Set α} (h : R.Agree agents) (active : Set κ) :
    R.OrderFree agents active := by
  intro as bs has hsame
  have hbs : ∀ b ∈ bs, b ∈ agents := fun b hb => has b ((hsame b).mpr hb)
  ext k
  by_cases htouched : ∃ a ∈ as, R.touches a k
  · obtain ⟨a, ha, hk⟩ := htouched
    rw [mem_run_of_touches h has ha hk, mem_run_of_touches h hbs ((hsame a).mp ha) hk]
  · push Not at htouched
    rw [mem_run_of_not_touches htouched,
      mem_run_of_not_touches fun b hb => htouched b ((hsame b).mpr hb)]

end Refresher

end IncidentRelay
