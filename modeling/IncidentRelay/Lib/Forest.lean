import Mathlib.Logic.Relation
import Mathlib.Tactic.Common

/-!
# Pointers to a parent

A table in which each row may point at another one is a function `parent`. It is a
forest when no row leads back to itself. Rows that are redirected to one target keep it
a forest exactly when the target leads to none of them (`acyclic_redirect_iff`).
-/

namespace IncidentRelay.Pointers

open Relation

variable {α : Type*} {parent : α → Option α}

def Points (parent : α → Option α) (a b : α) : Prop := parent a = some b

/-- The pointers lead from the one to the other. -/
def LeadsTo (parent : α → Option α) : α → α → Prop := ReflTransGen (Points parent)

def Acyclic (parent : α → Option α) : Prop := ∀ a, ¬TransGen (Points parent) a a

/-- Without parents there is no cycle. -/
theorem acyclic_of_none (h : ∀ a, parent a = none) : Acyclic parent := by
  intro a hcycle
  obtain ⟨b, hb, -⟩ := TransGen.head'_iff.mp hcycle
  rw [Points, h a] at hb
  cases hb

/-- A row without a parent leads to itself only. -/
theorem eq_of_leadsTo {a b : α} (h : parent a = none) (hlead : LeadsTo parent a b) : b = a := by
  rcases hlead.cases_head with rfl | ⟨c, hc, -⟩
  · rfl
  · rw [Points, h] at hc
    cases hc

variable [DecidableEq α]

/-- The pointers when the rows, but for the target, are redirected to the target. -/
def redirect (parent : α → Option α) (rows : List α) (target : α) (a : α) : Option α :=
  if a ∈ rows ∧ a ≠ target then some target else parent a

variable {rows : List α} {target : α}

/-- A step is one of before, or it leads to the target. -/
theorem points_redirect {a b : α} (h : Points (redirect parent rows target) a b) :
    Points parent a b ∨ b = target := by
  unfold Points redirect at h
  split_ifs at h
  · exact .inr (Option.some.inj h).symm
  · exact .inl h

/-- A way from the target that meets none of the rows is one of before. -/
theorem leadsTo_of_redirect (hfree : ∀ m ∈ rows, m ≠ target → ¬LeadsTo parent target m) {b : α}
    (h : LeadsTo (redirect parent rows target) target b) : LeadsTo parent target b := by
  induction h with
  | refl => exact .refl
  | @tail b c _ hstep ih =>
    refine ih.tail ?_
    unfold Points redirect at hstep
    rwa [if_neg fun hb => hfree b hb.1 hb.2 ih] at hstep

/-- A way of before leads there still, or the target is on a cycle. -/
theorem redirect_of_leadsTo {b : α} (h : LeadsTo parent target b) :
    LeadsTo (redirect parent rows target) target b ∨
      TransGen (Points (redirect parent rows target)) target target := by
  induction h with
  | refl => exact .inl .refl
  | @tail b c _ hstep ih =>
    rcases ih with ih | hcycle
    · by_cases hb : b ∈ rows ∧ b ≠ target
      · exact .inr (TransGen.tail' ih (if_pos hb))
      · exact .inl (ih.tail ((if_neg hb).trans hstep))
    · exact .inr hcycle

/-- **Redirecting keeps a forest exactly when the target leads to no redirected row.** -/
theorem acyclic_redirect_iff (h : Acyclic parent) :
    Acyclic (redirect parent rows target) ↔
      ∀ m ∈ rows, m ≠ target → ¬LeadsTo parent target m := by
  constructor
  · intro hacyclic m hm hne hlead
    rcases @redirect_of_leadsTo _ parent _ rows target m hlead with hlead | hcycle
    · exact hacyclic target (TransGen.tail' hlead (if_pos ⟨hm, hne⟩))
    · exact hacyclic target hcycle
  · intro hfree a hcycle
    -- a way that is none of before has come by the target
    have hway : ∀ {b}, TransGen (Points (redirect parent rows target)) a b →
        TransGen (Points parent) a b ∨ LeadsTo (redirect parent rows target) target b := by
      intro b hb
      induction hb with
      | single hstep =>
        rcases points_redirect hstep with hstep | rfl
        · exact .inl (.single hstep)
        · exact .inr .refl
      | tail _ hstep ih =>
        rcases points_redirect hstep with hold | rfl
        · exact ih.imp (fun hb => hb.tail hold) fun hb => hb.tail hstep
        · exact .inr .refl
    -- behind the target every step is one of before
    have hbehind : ∀ {b}, LeadsTo (redirect parent rows target) target a →
        TransGen (Points (redirect parent rows target)) a b → TransGen (Points parent) a b := by
      intro b ha hb
      have hold : ∀ {c d}, LeadsTo (redirect parent rows target) target c →
          Points (redirect parent rows target) c d → Points parent c d := by
        intro c d hc hstep
        unfold Points redirect at hstep
        rwa [if_neg fun hrow => hfree c hrow.1 hrow.2 (leadsTo_of_redirect hfree hc)] at hstep
      induction hb with
      | single hstep => exact .single (hold ha hstep)
      | tail hb hstep ih => exact ih.tail (hold (ha.trans hb.to_reflTransGen) hstep)
    rcases hway hcycle with hold | hreached
    · exact h a hold
    · exact h a (hbehind hreached hcycle)

end IncidentRelay.Pointers
