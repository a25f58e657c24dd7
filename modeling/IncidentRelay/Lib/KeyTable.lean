import IncidentRelay.Lib.IdTable

/-!
# Tables with a unique index

An `IdTable` whose rows also have different keys. `get_or_create` looks for the row of a
key and inserts it where there is none.
-/

namespace IncidentRelay

structure KeyTable {ρ κ : Type*} (id : ρ → ℕ) (key : ρ → κ) where
  table : IdTable ρ id
  key_nodup : (table.rows.map key).Nodup

/-- A change of rows that keeps their ids and keys. -/
structure Rewrite {ρ κ : Type*} (id : ρ → ℕ) (key : ρ → κ) where
  set : ρ → ρ
  id_set : ∀ r, id (set r) = id r
  key_set : ∀ r, key (set r) = key r

namespace KeyTable

variable {ρ κ : Type*} {id : ρ → ℕ} {key : ρ → κ}

def empty : KeyTable id key := ⟨IdTable.empty, List.nodup_nil⟩

def rows (t : KeyTable id key) : List ρ := t.table.rows

/-- The row with the key. -/
def get [DecidableEq κ] (t : KeyTable id key) (k : κ) : Option ρ := t.rows.find? fun r => key r = k

/-- `UPDATE … WHERE guard`. -/
def update (t : KeyTable id key) (guard : ρ → Bool) (change : Rewrite id key) :
    KeyTable id key where
  table := t.table.update guard change.set change.id_set
  key_nodup := by
    show ((Table.update guard change.set t.table.rows).map key).Nodup
    rw [Table.map_update_of_guard key fun r _ => change.key_set r]
    exact t.key_nodup

/-- `create(…)` of a row whose key is not there. -/
def create (t : KeyTable id key) (row : ρ) (hid : id row = t.table.next)
    (hnew : ∀ r ∈ t.rows, key r ≠ key row) : KeyTable id key where
  table := t.table.insert row hid
  key_nodup := by
    show ((t.table.rows ++ [row]).map key).Nodup
    rw [List.map_append, List.nodup_append]
    refine ⟨t.key_nodup, List.nodup_singleton _, ?_⟩
    intro k hk k' hk' heq
    obtain ⟨r, hr, rfl⟩ := List.mem_map.mp hk
    obtain rfl : k' = key row := by simpa using hk'
    exact hnew r hr heq

section Get

variable [DecidableEq κ] {t : KeyTable id key} {k : κ}

theorem get_eq_none : t.get k = none ↔ ∀ r ∈ t.rows, key r ≠ k := by
  unfold get
  simp [List.find?_eq_none]

theorem get_spec {r : ρ} (h : t.get k = some r) : r ∈ t.rows ∧ key r = k :=
  ⟨List.mem_of_find?_eq_some h, by simpa using List.find?_some h⟩

end Get

variable {t : KeyTable id key} {r r' : ρ}

theorem eq_of_key (hr : r ∈ t.rows) (hr' : r' ∈ t.rows) (h : key r = key r') : r = r' :=
  Table.eq_of_key_eq t.key_nodup hr hr' h

theorem eq_of_id (hr : r ∈ t.rows) (hr' : r' ∈ t.rows) (h : id r = id r') : r = r' :=
  IdTable.eq_of_id hr hr' h

/-- The two say the same. -/
theorem id_eq_iff (hr : r ∈ t.rows) (hr' : r' ∈ t.rows) : id r = id r' ↔ key r = key r' := by
  constructor
  · intro h
    rw [eq_of_id hr hr' h]
  · intro h
    rw [eq_of_key hr hr' h]

theorem mem_update {guard : ρ → Bool} {change : Rewrite id key} :
    r ∈ (t.update guard change).rows ↔
      ∃ r₀ ∈ t.rows, (guard r₀ = true ∧ r = change.set r₀) ∨ (guard r₀ = false ∧ r = r₀) :=
  Table.mem_update

/-- A new row is added to the others, none of which has its key. -/
theorem mem_create {row : ρ} (hid : id row = t.table.next)
    (hnew : ∀ r ∈ t.rows, key r ≠ key row) :
    r ∈ (t.create row hid hnew).rows ↔ r = row ∨ (r ∈ t.rows ∧ key r ≠ key row) := by
  refine (@IdTable.mem_insert _ _ _ _ hid r).trans ?_
  constructor
  · rintro (hr | rfl)
    · exact .inr ⟨hr, hnew r hr⟩
    · exact .inl rfl
  · rintro (rfl | ⟨hr, -⟩)
    · exact .inr rfl
    · exact .inl hr

/-- An update of one row puts the new row in its place. -/
theorem mem_update_one {row : ρ} {change : Rewrite id key} (hrow : row ∈ t.rows) :
    r ∈ (t.update (fun r => id r = id row) change).rows ↔
      r = change.set row ∨ (r ∈ t.rows ∧ key r ≠ key row) := by
  rw [mem_update]
  constructor
  · rintro ⟨r₀, hr₀, ⟨hguard, rfl⟩ | ⟨hguard, rfl⟩⟩
    · have hsame : id r₀ = id row := by simpa using hguard
      obtain rfl := eq_of_id hr₀ hrow hsame
      exact .inl rfl
    · have hother : id r ≠ id row := by simpa using hguard
      exact .inr ⟨hr₀, fun heq => hother ((id_eq_iff hr₀ hrow).mpr heq)⟩
  · rintro (rfl | ⟨hr, hne⟩)
    · exact ⟨row, hrow, .inl ⟨by simp, rfl⟩⟩
    · refine ⟨r, hr, .inr ⟨?_, rfl⟩⟩
      have hother : id r ≠ id row := fun heq => hne ((id_eq_iff hr hrow).mp heq)
      simpa using hother

/-! ## What is found under a key -/

section Laws

variable [DecidableEq κ] {k : κ}

/-- Looking a row up by its key. -/
theorem get_eq_some : t.get k = some r ↔ r ∈ t.rows ∧ key r = k := by
  constructor
  · exact get_spec
  · rintro ⟨hr, hk⟩
    cases hget : t.get k with
    | none => exact absurd hk (get_eq_none.mp hget r hr)
    | some other =>
      obtain ⟨hother, hkey⟩ := get_spec hget
      rw [eq_of_key hother hr (hkey.trans hk.symm)]

/-- `DELETE … WHERE guard`. -/
def delete (t : KeyTable id key) (guard : ρ → Bool) : KeyTable id key where
  table := t.table.delete guard
  key_nodup := t.key_nodup.sublist (List.filter_sublist.map key)

/-- `get_or_create`, and the change of the row that was there. -/
def put (t : KeyTable id key) (k : κ) (new : ℕ → ρ) (hid : ∀ n, id (new n) = n)
    (hkey : ∀ n, key (new n) = k) (change : Rewrite id key) : KeyTable id key :=
  match h : t.get k with
  | none => t.create (new t.table.next) (hid _) fun r hr => by
      rw [hkey]
      exact get_eq_none.mp h r hr
  | some row => t.update (fun r => id r = id row) change

/-- Looking up after an update. -/
theorem get_update (guard : ρ → Bool) (change : Rewrite id key) (k : κ) :
    (t.update guard change).get k =
      (t.get k).map fun r => if guard r = true then change.set r else r := by
  cases hget : t.get k with
  | none =>
    rw [Option.map_none, get_eq_none]
    intro r hr
    obtain ⟨r₀, hr₀, ⟨-, rfl⟩ | ⟨-, rfl⟩⟩ := mem_update.mp hr
    · rw [change.key_set]
      exact get_eq_none.mp hget r₀ hr₀
    · exact get_eq_none.mp hget r hr₀
  | some row =>
    obtain ⟨hrow, hk⟩ := get_spec hget
    rw [Option.map_some, get_eq_some, mem_update]
    cases hguard : guard row with
    | true => exact ⟨⟨row, hrow, .inl ⟨hguard, if_pos rfl⟩⟩, by simpa [change.key_set] using hk⟩
    | false => exact ⟨⟨row, hrow, .inr ⟨hguard, if_neg (by simp)⟩⟩, by simpa using hk⟩

/-- Looking up after a deletion. -/
theorem get_delete (guard : ρ → Bool) (k : κ) :
    (t.delete guard).get k = (t.get k).filter fun r => !guard r := by
  have hmem : ∀ r, r ∈ (t.delete guard).rows ↔ r ∈ t.rows ∧ guard r = false := by
    intro r
    refine List.mem_filter.trans ?_
    simp [rows]
  ext r
  rw [get_eq_some, hmem, Option.filter_eq_some_iff, get_eq_some]
  simp [and_right_comm]

/-- Looking up after putting a row, which rewrites the one with the key or inserts a new one. -/
theorem get_put {new : ℕ → ρ} {hid : ∀ n, id (new n) = n} {hkey : ∀ n, key (new n) = k}
    {change : Rewrite id key} (k' : κ) :
    (t.put k new hid hkey change).get k' =
      if k' = k then some (((t.get k).map change.set).getD (new t.table.next)) else t.get k' := by
  unfold put
  split
  · next h =>
    split_ifs with hk
    · subst hk
      rw [get_eq_some, mem_create]
      simp [h, hkey]
    · ext r
      rw [get_eq_some, mem_create, get_eq_some]
      constructor
      · rintro ⟨rfl | ⟨hr, -⟩, rfl⟩
        · exact absurd (hkey _) hk
        · exact ⟨hr, rfl⟩
      · rintro ⟨hr, rfl⟩
        exact ⟨.inr ⟨hr, by rwa [hkey]⟩, rfl⟩
  · next row h =>
    rw [get_update]
    obtain ⟨hrow, hrowk⟩ := get_spec h
    split_ifs with hk
    · subst hk
      simp [h]
    · refine (Option.map_congr fun r hr => ?_).trans Option.map_id'
      obtain ⟨hmem, rfl⟩ := get_spec hr
      have hne : id r ≠ id row := fun heq => hk (((id_eq_iff hmem hrow).mp heq).trans hrowk)
      simp [hne]

end Laws

end KeyTable

end IncidentRelay
