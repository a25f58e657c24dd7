import Mathlib.Data.List.Forall2
import Mathlib.Tactic.Common

/-!
# Tables row by row

`List.Forall₂ R` relates the rows of a table before a computation to those after it.
Such relations compose, and a row on one side has its row on the other.
-/

namespace IncidentRelay.Rows

variable {α β γ : Type*} {R : α → β → Prop} {as : List α} {bs : List β}

/-- Lists that are related through a third. -/
theorem trans {R' : β → γ → Prop} {R'' : α → γ → Prop} {cs : List γ} (h : List.Forall₂ R as bs)
    (h' : List.Forall₂ R' bs cs) (htrans : ∀ {a b c}, R a b → R' b c → R'' a c) :
    List.Forall₂ R'' as cs := by
  induction h generalizing cs with
  | nil =>
    cases h'
    exact .nil
  | cons hab _ ih =>
    cases h' with
    | cons hbc hrest => exact .cons (htrans hab hbc) (ih hrest)

/-- Each element has its counterpart. -/
theorem exists_right (h : List.Forall₂ R as bs) {a : α} (ha : a ∈ as) : ∃ b ∈ bs, R a b := by
  induction h with
  | nil => cases ha
  | @cons a₀ b _ _ hab _ ih =>
    rcases List.mem_cons.mp ha with rfl | ha
    · exact ⟨b, List.mem_cons_self, hab⟩
    · obtain ⟨b', hb', hab'⟩ := ih ha
      exact ⟨b', List.mem_cons_of_mem _ hb', hab'⟩

/-- On both sides. -/
theorem exists_left (h : List.Forall₂ R as bs) {b : β} (hb : b ∈ bs) : ∃ a ∈ as, R a b := by
  induction h with
  | nil => cases hb
  | @cons a b₀ _ _ hab _ ih =>
    rcases List.mem_cons.mp hb with rfl | hb
    · exact ⟨a, List.mem_cons_self, hab⟩
    · obtain ⟨a', ha', hab'⟩ := ih hb
      exact ⟨a', List.mem_cons_of_mem _ ha', hab'⟩

/-- A column that the rows keep. -/
theorem map_eq {κ : Type*} {f : α → κ} {g : β → κ} (h : List.Forall₂ R as bs)
    (hkeep : ∀ {a b}, R a b → g b = f a) : bs.map g = as.map f := by
  induction h with
  | nil => rfl
  | cons hab _ ih => rw [List.map_cons, List.map_cons, hkeep hab, ih]

end IncidentRelay.Rows
