import Mathlib.Logic.Function.Basic
import Mathlib.Order.Nat
import Mathlib.Tactic.Common

/-!
# Optimistic concurrency

Rows have a version that grows with each change of them. Who has read a row may write
over it when the version that was expected is still there (`ReadOf.current`): the row that
is overwritten is then the one that was read, where the expected version was an old one
when the row was read.
-/

namespace IncidentRelay

namespace Versioned

variable {κ ρ : Type*} (version : ρ → ℕ)

/-- The version was one of the row. -/
def Returned (rows : κ → Option ρ) (key : κ) (v : ℕ) : Prop :=
  ∃ row, rows key = some row ∧ v ≤ version row

/-- The row was read from the table: it is there as long as its version is. -/
def ReadOf (rows : κ → Option ρ) (key : κ) (read : ρ) : Prop :=
  ∃ row, rows key = some row ∧ version read ≤ version row ∧
    (version read = version row → read = row)

/-- The rows of a table become newer ones. -/
def Grows (rows rows' : κ → Option ρ) : Prop :=
  ∀ key row, rows key = some row →
    ∃ row', rows' key = some row' ∧ (row' = row ∨ version row < version row')

variable {version} {rows rows' : κ → Option ρ} {key : κ} {read row : ρ} {v : ℕ}

theorem Grows.refl (rows : κ → Option ρ) : Grows version rows rows :=
  fun _ row h => ⟨row, h, .inl rfl⟩

/-- A new row, or a newer one in the place of another. -/
theorem Grows.update [DecidableEq κ] (h : ∀ old, rows key = some old → version old < version row) :
    Grows version rows (Function.update rows key (some row)) := by
  intro other old hold
  by_cases hkey : other = key
  · subst hkey
    exact ⟨row, Function.update_self .., .inr (h old hold)⟩
  · exact ⟨old, by rw [Function.update_of_ne hkey, hold], .inl rfl⟩

/-- A version that was returned stays one while the rows grow. -/
theorem Returned.grow (hgrow : Grows version rows rows') (h : Returned version rows key v) :
    Returned version rows' key v := by
  obtain ⟨row, hrow, hv⟩ := h
  obtain ⟨row', hrow', rfl | hlt⟩ := hgrow key row hrow
  · exact ⟨row', hrow', hv⟩
  · exact ⟨row', hrow', by omega⟩

theorem ReadOf.grow (hgrow : Grows version rows rows') (h : ReadOf version rows key read) :
    ReadOf version rows' key read := by
  obtain ⟨row, hrow, hle, hsame⟩ := h
  obtain ⟨row', hrow', rfl | hlt⟩ := hgrow key row hrow
  · exact ⟨row', hrow', hle, hsame⟩
  · exact ⟨row', hrow', by omega, by omega⟩

theorem ReadOf.self (h : rows key = some row) : ReadOf version rows key row :=
  ⟨row, h, le_rfl, fun _ => rfl⟩

/-- **Under the expected version stands the row that was read.** -/
theorem ReadOf.current (h : ReadOf version rows key read) (hold : v ≤ version read)
    (hrow : rows key = some row) (hv : version row = v) : read = row := by
  obtain ⟨row', hrow', hle, hsame⟩ := h
  obtain rfl : row = row' := Option.some.inj (hrow.symm.trans hrow')
  exact hsame (by omega)

end Versioned

end IncidentRelay
