import Mathlib.Data.List.Nodup
import Mathlib.Tactic.Common

/-!
# Rows inserted once

`get_or_create` by a unique column adds a row where no row has its key. A list of rows
with new keys is added by a first pass over it, and a later pass adds nothing.
-/

namespace IncidentRelay

variable {ρ κ : Type*} [DecidableEq κ]

namespace Table

/-- The table with the row, unless there is one with its key. -/
def insertNew (key : ρ → κ) (rows : List ρ) (row : ρ) : List ρ :=
  if key row ∈ rows.map key then rows else rows ++ [row]

/-- Nothing is inserted where each key is there. -/
theorem foldl_insertNew_present (key : ρ → κ) {rows new : List ρ}
    (h : ∀ row ∈ new, key row ∈ rows.map key) : new.foldl (insertNew key) rows = rows := by
  induction new with
  | nil => rfl
  | cons row new ih =>
    have hstep : insertNew key rows row = rows := if_pos (h row (by simp))
    rw [List.foldl_cons, hstep]
    exact ih fun other hother => h other (List.mem_cons_of_mem _ hother)

/-- Where none is there, all are inserted. -/
theorem foldl_insertNew_fresh (key : ρ → κ) {rows new : List ρ} (hnodup : (new.map key).Nodup)
    (hfresh : ∀ row ∈ new, key row ∉ rows.map key) :
    new.foldl (insertNew key) rows = rows ++ new := by
  induction new generalizing rows with
  | nil => simp
  | cons row new ih =>
    have hstep : insertNew key rows row = rows ++ [row] := if_neg (hfresh row (by simp))
    rw [List.map_cons, List.nodup_cons] at hnodup
    rw [List.foldl_cons, hstep, ih hnodup.2, List.append_assoc, List.singleton_append]
    intro other hother hmem
    rw [List.map_append, List.mem_append] at hmem
    rcases hmem with hmem | hmem
    · exact hfresh other (List.mem_cons_of_mem _ hother) hmem
    · -- the key of the row itself is not among those behind it
      have hsame : key other = key row := by simpa using hmem
      exact hnodup.1 (hsame ▸ List.mem_map_of_mem hother)

end Table

end IncidentRelay
