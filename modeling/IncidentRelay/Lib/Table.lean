import Mathlib.Data.List.Nodup
import Mathlib.Tactic.Common

/-!
# Tables and guarded updates

A table is the list of its rows in order of insertion. An `UPDATE … WHERE`
statement rewrites the rows its guard selects and reports how many there were;
a `SELECT … LIMIT 1` by a condition on a unique column returns the one row that
meets it. The lemmas say what a guarded update can do to a row, which is the
only thing the proofs about a protocol of such statements need.
-/

namespace IncidentRelay

variable {ρ κ : Type*}

namespace Table

/-- `UPDATE table SET … WHERE guard`. -/
def update (guard : ρ → Bool) (set : ρ → ρ) (rows : List ρ) : List ρ :=
  rows.map fun r => if guard r then set r else r

/-- The number of rows an update with this guard reports. -/
def affected (guard : ρ → Bool) (rows : List ρ) : Nat :=
  rows.countP guard

/-- The rows after an update. -/
theorem mem_update {guard : ρ → Bool} {set : ρ → ρ} {rows : List ρ} {r : ρ} :
    r ∈ update guard set rows ↔
      ∃ r₀ ∈ rows, (guard r₀ = true ∧ r = set r₀) ∨ (guard r₀ = false ∧ r = r₀) := by
  unfold update
  rw [List.mem_map]
  constructor
  · rintro ⟨r₀, hr₀, rfl⟩
    refine ⟨r₀, hr₀, ?_⟩
    cases h : guard r₀ <;> simp
  · rintro ⟨r₀, hr₀, ⟨hg, rfl⟩ | ⟨hg, rfl⟩⟩
    · exact ⟨r₀, hr₀, by simp [hg]⟩
    · exact ⟨r, hr₀, by simp [hg]⟩

/-- An update that keeps a column of the rows it selects keeps the list of its
values. -/
theorem map_update_of_guard {guard : ρ → Bool} {set : ρ → ρ} {rows : List ρ} (f : ρ → κ)
    (hkeep : ∀ r, guard r = true → f (set r) = f r) :
    (update guard set rows).map f = rows.map f := by
  unfold update
  rw [List.map_map]
  apply List.map_congr_left
  intro r _
  by_cases h : guard r = true
  · simp [h, hkeep r h]
  · simp [h]

theorem affected_pos {guard : ρ → Bool} {rows : List ρ} :
    0 < affected guard rows ↔ ∃ r ∈ rows, guard r = true := by
  simp [affected, List.countP_pos_iff]

/-- Rows that agree on a column without repetitions are the same row. -/
theorem eq_of_key_eq {rows : List ρ} {key : ρ → κ} (hnd : (rows.map key).Nodup)
    {r r' : ρ} (hr : r ∈ rows) (hr' : r' ∈ rows) (h : key r = key r') : r = r' :=
  List.inj_on_of_nodup_map hnd hr hr' h

/-- A condition that singles out one row selects at most one. -/
theorem filter_length_le_one {p : ρ → Bool} {rows : List ρ} (hnd : rows.Nodup)
    (hone : ∀ r ∈ rows, ∀ r' ∈ rows, p r = true → p r' = true → r = r') :
    (rows.filter p).length ≤ 1 := by
  rcases hsel : rows.filter p with _ | ⟨r, _ | ⟨r', rest⟩⟩
  · simp
  · simp
  · have hmem : ∀ x ∈ r :: r' :: rest, x ∈ rows ∧ p x = true := by
      intro x hx
      rw [← hsel] at hx
      exact List.mem_filter.mp hx
    obtain ⟨hr, hpr⟩ := hmem r (by simp)
    obtain ⟨hr', hpr'⟩ := hmem r' (by simp)
    have hnd' : (r :: r' :: rest).Nodup := hsel ▸ hnd.filter p
    have heq : r = r' := hone r hr r' hr' hpr hpr'
    simp [heq] at hnd'

end Table

end IncidentRelay
