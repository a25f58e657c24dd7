import IncidentRelay.Lib.Table
import Mathlib.Data.List.MinMax
import Mathlib.Order.Nat

/-!
# Tables with an id sequence

A table carries that its ids are keys and that the sequence is ahead of them. Rows
are inserted under the next id and rewritten in place; no row is removed.

Two relations say what a computation did to a table. `Confined own` allows it to
touch the rows of one owner only. `Shrinks P` forbids it to bring about `P` in any
row. Both are closed under composition, and each statement has them under a
condition on the rows it selects.
-/

namespace IncidentRelay

structure IdTable (ρ : Type*) (id : ρ → ℕ) where
  rows : List ρ
  next : ℕ
  nodup : (rows.map id).Nodup
  lt : ∀ r ∈ rows, id r < next

namespace IdTable

variable {ρ : Type*} {id : ρ → ℕ}

/-! ## Statements -/

def empty : IdTable ρ id where
  rows := []
  next := 1
  nodup := List.nodup_nil
  lt := by simp

/-- `Model.get_or_none(Model.id == n)`. -/
def get (t : IdTable ρ id) (n : ℕ) : Option ρ := t.rows.find? fun r => id r = n

/-- `SELECT … WHERE p ORDER BY id DESC LIMIT 1`. -/
def latest (t : IdTable ρ id) (p : ρ → Bool) : Option ρ := (t.rows.filter p).argmax id

/-- `UPDATE … WHERE guard` that keeps the ids. -/
def update (t : IdTable ρ id) (guard : ρ → Bool) (set : ρ → ρ) (hset : ∀ r, id (set r) = id r) :
    IdTable ρ id where
  rows := Table.update guard set t.rows
  next := t.next
  nodup := by
    rw [Table.map_update_of_guard id fun r _ => hset r]
    exact t.nodup
  lt := by
    intro r hr
    obtain ⟨r₀, hr₀, ⟨-, rfl⟩ | ⟨-, rfl⟩⟩ := Table.mem_update.mp hr
    · rw [hset]
      exact t.lt r₀ hr₀
    · exact t.lt r hr₀

/-- `DELETE … WHERE guard`; the ids are not used again. -/
def delete (t : IdTable ρ id) (guard : ρ → Bool) : IdTable ρ id where
  rows := t.rows.filter fun r => !guard r
  next := t.next
  nodup := t.nodup.sublist (List.filter_sublist.map id)
  lt r hr := t.lt r (List.mem_of_mem_filter hr)

/-- `INSERT` under the next id. -/
def insert (t : IdTable ρ id) (row : ρ) (hrow : id row = t.next) : IdTable ρ id where
  rows := t.rows ++ [row]
  next := t.next + 1
  nodup := by
    rw [List.map_append, List.nodup_append]
    refine ⟨t.nodup, List.nodup_singleton _, ?_⟩
    intro n hn m hm hnm
    obtain ⟨r, hr, rfl⟩ := List.mem_map.mp hn
    obtain rfl : m = id row := by simpa using hm
    exact absurd (t.lt r hr) (by omega)
  lt := by
    intro r hr
    rcases List.mem_append.mp hr with hr | hr
    · exact Nat.lt_succ_of_lt (t.lt r hr)
    · obtain rfl : r = row := by simpa using hr
      omega

/-- `row.save()`. -/
def save (t : IdTable ρ id) (row : ρ) : IdTable ρ id :=
  t.update (fun r => id r = id row) (fun r => if id r = id row then row else r) (by
    intro r
    split_ifs with h
    · exact h.symm
    · rfl)

/-! ## What they do to the rows -/

theorem eq_of_id {t : IdTable ρ id} {r r' : ρ} (hr : r ∈ t.rows) (hr' : r' ∈ t.rows)
    (h : id r = id r') : r = r' := Table.eq_of_key_eq t.nodup hr hr' h

/-- Looking a row up by its id. -/
theorem get_eq_some {t : IdTable ρ id} {n : ℕ} {r : ρ} :
    t.get n = some r ↔ r ∈ t.rows ∧ id r = n := by
  unfold get
  constructor
  · intro h
    exact ⟨List.mem_of_find?_eq_some h, by simpa using List.find?_some h⟩
  · rintro ⟨hr, rfl⟩
    cases hfind : t.rows.find? fun r' => id r' = id r with
    | none =>
      have := List.find?_eq_none.mp hfind r hr
      simp at this
    | some r' =>
      have hid : id r' = id r := by simpa using List.find?_some hfind
      rw [eq_of_id (List.mem_of_find?_eq_some hfind) hr hid]

theorem latest_spec {t : IdTable ρ id} {p : ρ → Bool} {r : ρ} (h : t.latest p = some r) :
    r ∈ t.rows ∧ p r = true := List.mem_filter.mp (List.argmax_mem h)

/-- The latest row has the largest id. -/
theorem le_latest {t : IdTable ρ id} {p : ρ → Bool} {r r' : ρ} (h : t.latest p = some r)
    (hmem : r' ∈ t.rows) (hp : p r' = true) : id r' ≤ id r :=
  List.le_of_mem_argmax (List.mem_filter.mpr ⟨hmem, hp⟩) h

/-- There is none where no row fits. -/
theorem latest_eq_none {t : IdTable ρ id} {p : ρ → Bool} :
    t.latest p = none ↔ ∀ r ∈ t.rows, p r = false := by
  unfold latest
  rw [List.argmax_eq_none, List.filter_eq_nil_iff]
  simp

/-- The rows after an update. -/
theorem mem_update {t : IdTable ρ id} {guard : ρ → Bool} {set : ρ → ρ}
    {hset : ∀ r, id (set r) = id r} {r : ρ} :
    r ∈ (t.update guard set hset).rows ↔
      ∃ r₀ ∈ t.rows, (guard r₀ = true ∧ r = set r₀) ∨ (guard r₀ = false ∧ r = r₀) :=
  Table.mem_update

/-- What a row becomes by an update is a row. -/
theorem updated_mem {t : IdTable ρ id} {guard : ρ → Bool} {set : ρ → ρ}
    (hset : ∀ r, id (set r) = id r) {r : ρ} (hr : r ∈ t.rows) :
    (if guard r = true then set r else r) ∈ (t.update guard set hset).rows := by
  refine mem_update.mpr ⟨r, hr, ?_⟩
  split_ifs with hguard
  · exact .inl ⟨hguard, rfl⟩
  · exact .inr ⟨Bool.eq_false_iff.mpr hguard, rfl⟩

theorem untouched_mem {t : IdTable ρ id} {guard : ρ → Bool} {set : ρ → ρ}
    (hset : ∀ r, id (set r) = id r) {r : ρ} (hr : r ∈ t.rows) (hguard : guard r = false) :
    r ∈ (t.update guard set hset).rows := mem_update.mpr ⟨r, hr, .inr ⟨hguard, rfl⟩⟩

theorem mem_delete {t : IdTable ρ id} {guard : ρ → Bool} {r : ρ} :
    r ∈ (t.delete guard).rows ↔ r ∈ t.rows ∧ guard r = false := by
  show r ∈ t.rows.filter _ ↔ _
  simp

/-- A row is deleted, or it stays. -/
theorem length_delete (t : IdTable ρ id) (guard : ρ → Bool) :
    (t.delete guard).rows.length + t.rows.countP guard = t.rows.length := by
  show (t.rows.filter fun r => !guard r).length + _ = _
  rw [← List.countP_eq_length_filter, Nat.add_comm, List.length_eq_countP_add_countP guard]
  simp

theorem mem_insert {t : IdTable ρ id} {row : ρ} {hrow : id row = t.next} {r : ρ} :
    r ∈ (t.insert row hrow).rows ↔ r ∈ t.rows ∨ r = row := by
  show r ∈ t.rows ++ [row] ↔ _
  simp

/-- The rows after saving one: it replaces the row with its id, if there is one. -/
theorem mem_save {t : IdTable ρ id} {row r : ρ} :
    r ∈ (t.save row).rows ↔ (r ∈ t.rows ∧ id r ≠ id row) ∨ (r = row ∧ ∃ r₀ ∈ t.rows, id r₀ = id row) := by
  unfold save
  rw [mem_update]
  constructor
  · rintro ⟨r₀, hr₀, ⟨hg, rfl⟩ | ⟨hg, rfl⟩⟩
    · have hid : id r₀ = id row := of_decide_eq_true hg
      rw [if_pos hid]
      exact .inr ⟨rfl, r₀, hr₀, hid⟩
    · exact .inl ⟨hr₀, of_decide_eq_false hg⟩
  · rintro (⟨hr, hne⟩ | ⟨rfl, r₀, hr₀, hid⟩)
    · exact ⟨r, hr, .inr ⟨decide_eq_false hne, rfl⟩⟩
    · exact ⟨r₀, hr₀, .inl ⟨decide_eq_true hid, by rw [if_pos hid]⟩⟩

/-! ## What they do to a lookup -/

/-- Looking up after an update. -/
theorem get_update {t : IdTable ρ id} {guard : ρ → Bool} {set : ρ → ρ}
    (hset : ∀ r, id (set r) = id r) (n : ℕ) :
    (t.update guard set hset).get n = (t.get n).map fun r => if guard r = true then set r else r := by
  cases hget : t.get n with
  | some r =>
    obtain ⟨hr, rfl⟩ := get_eq_some.mp hget
    refine get_eq_some.mpr ⟨updated_mem hset hr, ?_⟩
    dsimp only
    split_ifs
    · exact hset r
    · rfl
  | none =>
    rw [Option.map_none, Option.eq_none_iff_forall_ne_some]
    intro r hr
    obtain ⟨hmem, rfl⟩ := get_eq_some.mp hr
    obtain ⟨r₀, hr₀, ⟨-, rfl⟩ | ⟨-, rfl⟩⟩ := mem_update.mp hmem
    · rw [hset, get_eq_some.mpr ⟨hr₀, rfl⟩] at hget
      cases hget
    · rw [get_eq_some.mpr ⟨hr₀, rfl⟩] at hget
      cases hget

/-- Looking up after an insertion. -/
theorem get_insert {t : IdTable ρ id} {row : ρ} {hrow : id row = t.next} (n : ℕ) :
    (t.insert row hrow).get n = if n = t.next then some row else t.get n := by
  split_ifs with h
  · exact get_eq_some.mpr ⟨mem_insert.mpr (.inr rfl), hrow.trans h.symm⟩
  · ext r
    rw [get_eq_some, get_eq_some, mem_insert]
    constructor
    · rintro ⟨hr | rfl, hid⟩
      · exact ⟨hr, hid⟩
      · exact absurd (hid.symm.trans hrow) h
    · rintro ⟨hr, hid⟩
      exact ⟨.inl hr, hid⟩

/-- Looking up after saving a row. -/
theorem get_save {t : IdTable ρ id} {row : ρ} (n : ℕ) :
    (t.save row).get n = (t.get n).map fun r => if id r = id row then row else r := by
  unfold save
  rw [get_update]
  cases hget : t.get n with
  | none => rfl
  | some r =>
    simp only [Option.map_some]
    split_ifs <;> simp_all

/-! ## Touching the rows of one owner -/

/-- Every row is as it was, or it is owned and was owned before. -/
structure Confined (own : ρ → Prop) (s t : IdTable ρ id) : Prop where
  touched : ∀ r ∈ t.rows, r ∈ s.rows ∨ (own r ∧ ∀ r₀ ∈ s.rows, id r₀ = id r → own r₀)
  kept : ∀ r₀ ∈ s.rows, ∃ r ∈ t.rows, id r = id r₀

namespace Confined

variable {own : ρ → Prop} {s t u : IdTable ρ id}

theorem refl (s : IdTable ρ id) : Confined own s s :=
  ⟨fun _ hr => .inl hr, fun r hr => ⟨r, hr, rfl⟩⟩

theorem trans (h : Confined own s t) (h' : Confined own t u) : Confined own s u := by
  constructor
  · intro r hr
    rcases h'.touched r hr with hr | ⟨hown, hbefore⟩
    · exact h.touched r hr
    · refine .inr ⟨hown, ?_⟩
      intro r₀ hr₀ hid
      obtain ⟨r₁, hr₁, hid₁⟩ := h.kept r₀ hr₀
      have hown₁ := hbefore r₁ hr₁ (hid₁.trans hid)
      rcases h.touched r₁ hr₁ with hr₁' | ⟨-, hbefore₁⟩
      · rwa [eq_of_id hr₀ hr₁' hid₁.symm]
      · exact hbefore₁ r₀ hr₀ hid₁.symm
  · intro r₀ hr₀
    obtain ⟨r₁, hr₁, hid₁⟩ := h.kept r₀ hr₀
    obtain ⟨r₂, hr₂, hid₂⟩ := h'.kept r₁ hr₁
    exact ⟨r₂, hr₂, hid₂.trans hid₁⟩

/-- An update within what is owned. -/
theorem update {guard : ρ → Bool} {set : ρ → ρ} (hset : ∀ r, id (set r) = id r)
    (h : ∀ r ∈ s.rows, guard r = true → own r ∧ own (set r)) :
    Confined own s (s.update guard set hset) := by
  constructor
  · intro r hr
    obtain ⟨r₁, hr₁, ⟨hg, rfl⟩ | ⟨-, rfl⟩⟩ := mem_update.mp hr
    · refine .inr ⟨(h r₁ hr₁ hg).2, ?_⟩
      intro r₀ hr₀ hid
      rw [eq_of_id hr₀ hr₁ (hid.trans (hset r₁))]
      exact (h r₁ hr₁ hg).1
    · exact .inl hr₁
  · intro r₀ hr₀
    cases hg : guard r₀ with
    | true => exact ⟨set r₀, mem_update.mpr ⟨r₀, hr₀, .inl ⟨hg, rfl⟩⟩, hset r₀⟩
    | false => exact ⟨r₀, mem_update.mpr ⟨r₀, hr₀, .inr ⟨hg, rfl⟩⟩, rfl⟩

/-- An insertion of what is owned. -/
theorem insert {row : ρ} (hrow : id row = s.next) (h : own row) :
    Confined own s (s.insert row hrow) := by
  constructor
  · intro r hr
    rcases mem_insert.mp hr with hr | rfl
    · exact .inl hr
    · refine .inr ⟨h, ?_⟩
      intro r₀ hr₀ hid
      exact absurd (s.lt r₀ hr₀) (by omega)
  · intro r₀ hr₀
    exact ⟨r₀, mem_insert.mpr (.inl hr₀), rfl⟩

/-- Saving a row of what is owned. -/
theorem save {row : ρ} (hrow : own row) (h : ∀ r ∈ s.rows, id r = id row → own r) :
    Confined own s (s.save row) := by
  refine Confined.update _ ?_
  intro r hr hg
  have hid : id r = id row := of_decide_eq_true hg
  rw [if_pos hid]
  exact ⟨h r hr hid, hrow⟩

end Confined

/-! ## Not bringing about a property -/

/-- A row that has the property had it before. -/
def Shrinks (P : ρ → Prop) (s t : IdTable ρ id) : Prop :=
  ∀ r ∈ t.rows, P r → ∃ r₀ ∈ s.rows, id r₀ = id r ∧ P r₀

namespace Shrinks

variable {P : ρ → Prop} {s t u : IdTable ρ id}

theorem refl (s : IdTable ρ id) : Shrinks P s s := fun r hr hP => ⟨r, hr, rfl, hP⟩

theorem trans (h : Shrinks P s t) (h' : Shrinks P t u) : Shrinks P s u := by
  intro r hr hP
  obtain ⟨r₁, hr₁, hid₁, hP₁⟩ := h' r hr hP
  obtain ⟨r₀, hr₀, hid₀, hP₀⟩ := h r₁ hr₁ hP₁
  exact ⟨r₀, hr₀, hid₀.trans hid₁, hP₀⟩

/-- An update that gives no row the property. -/
theorem update {guard : ρ → Bool} {set : ρ → ρ} (hset : ∀ r, id (set r) = id r)
    (h : ∀ r ∈ s.rows, guard r = true → P (set r) → P r) :
    Shrinks P s (s.update guard set hset) := by
  intro r hr hP
  obtain ⟨r₀, hr₀, ⟨hg, rfl⟩ | ⟨-, rfl⟩⟩ := mem_update.mp hr
  · exact ⟨r₀, hr₀, (hset r₀).symm, h r₀ hr₀ hg hP⟩
  · exact ⟨r, hr₀, rfl, hP⟩

/-- An insertion of a row without it. -/
theorem insert {row : ρ} (hrow : id row = s.next) (h : ¬P row) :
    Shrinks P s (s.insert row hrow) := by
  intro r hr hP
  rcases mem_insert.mp hr with hr | rfl
  · exact ⟨r, hr, rfl, hP⟩
  · exact absurd hP h

/-- Saving a row that has it only if the one before had it. -/
theorem save {row : ρ} (h : P row → ∀ r ∈ s.rows, id r = id row → P r) :
    Shrinks P s (s.save row) := by
  intro r hr hP
  rcases mem_save.mp hr with ⟨hr, -⟩ | ⟨rfl, r₀, hr₀, hid⟩
  · exact ⟨r, hr, rfl, hP⟩
  · exact ⟨r₀, hr₀, hid, h hP r₀ hr₀ hid⟩

end Shrinks

end IdTable

end IncidentRelay
