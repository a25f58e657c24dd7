import IncidentRelay.Lib.Json

/-!
# The order of the keys

Two JSON values are the same message when one is the other with the entries of
some objects, at any depth, written in another order (`Reordered`). A value with
at most one entry in every object has no second order (`Reordered.eq_of_rigid`),
and a value whose keys are distinct and that is not rigid has one
(`exists_reordered_ne`).
-/

namespace IncidentRelay.Json

/-- `w` is `v` with the entries of some objects in another order. -/
inductive Reordered : Json → Json → Prop where
  | refl (v : Json) : Reordered v v
  | trans {u v w : Json} : Reordered u v → Reordered v w → Reordered u w
  | perm {xs ys : Dict} : xs.Perm ys → Reordered (.obj xs) (.obj ys)
  | entry (pre post : Dict) (k : String) {v w : Json} :
      Reordered v w → Reordered (.obj (pre ++ (k, v) :: post)) (.obj (pre ++ (k, w) :: post))
  | item (pre post : List Json) {v w : Json} :
      Reordered v w → Reordered (.list (pre ++ v :: post)) (.list (pre ++ w :: post))

theorem Reordered.symm {v w : Json} (h : Reordered v w) : Reordered w v := by
  induction h with
  | refl v => exact .refl v
  | trans _ _ ih₁ ih₂ => exact .trans ih₂ ih₁
  | perm hp => exact .perm hp.symm
  | entry pre post k _ ih => exact .entry pre post k ih
  | item pre post _ ih => exact .item pre post ih

/-! ## Values with one order only -/

mutual
/-- At most one entry in every object. -/
def rigid : Json → Bool
  | .list xs => rigidItems xs
  | .obj kvs => decide (kvs.length ≤ 1) && rigidEntries kvs
  | _ => true

def rigidItems : List Json → Bool
  | [] => true
  | x :: xs => rigid x && rigidItems xs

def rigidEntries : Dict → Bool
  | [] => true
  | (_, x) :: kvs => rigid x && rigidEntries kvs
end

theorem rigidItems_iff (xs : List Json) : rigidItems xs = true ↔ ∀ x ∈ xs, rigid x = true := by
  induction xs with
  | nil => simp [rigidItems]
  | cons x xs ih => simp [rigidItems, ih]

/-- The entries of an object. -/
theorem rigidEntries_iff (kvs : Dict) :
    rigidEntries kvs = true ↔ ∀ kv ∈ kvs, rigid kv.2 = true := by
  induction kvs with
  | nil => simp [rigidEntries]
  | cons kv kvs ih =>
    obtain ⟨k, x⟩ := kv
    simp [rigidEntries, ih]

/-- A rigid value is the only reordering of itself. -/
theorem Reordered.eq_of_rigid {v w : Json} (h : Reordered v w) (hv : rigid v = true) : w = v := by
  -- a rigid value has nothing to be reordered
  induction h with
  | refl v => rfl
  | trans _ _ ih₁ ih₂ =>
    have huv := ih₁ hv
    rw [huv] at ih₂
    exact ih₂ hv
  | @perm xs ys hp =>
    rw [rigid, Bool.and_eq_true, decide_eq_true_eq] at hv
    rcases xs with _ | ⟨x, _ | ⟨x', xs⟩⟩
    · rw [List.nil_perm.mp hp]
    · rw [List.singleton_perm.mp hp]
    · have := hv.1
      simp at this
  | entry pre post k _ ih =>
    rw [rigid, Bool.and_eq_true, rigidEntries_iff] at hv
    rw [ih (hv.2 (k, _) (by simp))]
  | item pre post _ ih =>
    rw [rigid, rigidItems_iff] at hv
    rw [ih (hv _ (by simp))]

/-! ## The entries of a reordered object -/

/-- Entry for entry the reordering of a value of the first object. -/
def Carries (xs ys : Dict) : Prop :=
  ∀ k v, (k, v) ∈ xs → ∃ w, (k, w) ∈ ys ∧ Reordered v w

/-- A reordered object is an object with the same keys. -/
theorem Reordered.obj_inv {xs : Dict} {w : Json} (h : Reordered (.obj xs) w) :
    ∃ ys, w = .obj ys ∧ (xs.map Prod.fst).Perm (ys.map Prod.fst) ∧ Carries xs ys := by
  generalize hv : Json.obj xs = v at h
  -- by induction on how the order comes about; an object stays one
  induction h generalizing xs with
  | refl v => exact ⟨xs, hv.symm, List.Perm.refl _, fun k v hm => ⟨v, hm, .refl v⟩⟩
  | trans _ _ ih₁ ih₂ =>
    obtain ⟨ys, rfl, hkeys, hcarry⟩ := ih₁ hv
    obtain ⟨zs, rfl, hkeys', hcarry'⟩ := ih₂ rfl
    refine ⟨zs, rfl, hkeys.trans hkeys', ?_⟩
    intro k v hm
    obtain ⟨w, hw, hvw⟩ := hcarry k v hm
    obtain ⟨u, hu, hwu⟩ := hcarry' k w hw
    exact ⟨u, hu, hvw.trans hwu⟩
  | @perm xs' ys hp =>
    cases hv
    exact ⟨ys, rfl, hp.map _, fun k v hm => ⟨v, hp.mem_iff.mp hm, .refl v⟩⟩
  | entry pre post key hvw _ =>
    cases hv
    refine ⟨_, rfl, by simp, ?_⟩
    intro k v hm
    rcases List.mem_append.mp hm with hm | hm
    · exact ⟨v, List.mem_append_left _ hm, .refl v⟩
    · rcases List.mem_cons.mp hm with hm | hm
      · obtain ⟨rfl, rfl⟩ := Prod.mk.inj hm
        exact ⟨_, by simp, hvw⟩
      · exact ⟨v, by simp [hm], .refl v⟩
  | item pre post _ _ => cases hv

/-- Each object carries the values of the other. -/
theorem Reordered.carries_symm {xs ys : Dict} (h : Reordered (.obj xs) (.obj ys)) :
    Carries ys xs := by
  obtain ⟨zs, hz, -, hcarry⟩ := h.symm.obj_inv
  cases hz
  exact hcarry

/-! ## A second order -/

mutual
/-- Every object has each key once. -/
def distinct : Json → Bool
  | .list xs => distinctItems xs
  | .obj kvs => decide (kvs.map Prod.fst).Nodup && distinctEntries kvs
  | _ => true

def distinctItems : List Json → Bool
  | [] => true
  | x :: xs => distinct x && distinctItems xs

def distinctEntries : Dict → Bool
  | [] => true
  | (_, x) :: kvs => distinct x && distinctEntries kvs
end

/-- The items of a distinct list. -/
theorem distinctItems_iff (xs : List Json) :
    distinctItems xs = true ↔ ∀ x ∈ xs, distinct x = true := by
  induction xs with
  | nil => simp [distinctItems]
  | cons x xs ih => simp [distinctItems, ih]

/-- The entries of a distinct object. -/
theorem distinctEntries_iff (kvs : Dict) :
    distinctEntries kvs = true ↔ ∀ kv ∈ kvs, distinct kv.2 = true := by
  induction kvs with
  | nil => simp [distinctEntries]
  | cons kv kvs ih =>
    obtain ⟨k, x⟩ := kv
    simp [distinctEntries, ih]

-- Along the value: a swap of the first two entries, or a reordering inside.
mutual
/-- **What is not rigid can be reordered.** By induction on the value. -/
theorem exists_reordered_ne : ∀ v : Json, distinct v = true → rigid v = false →
    ∃ w, Reordered v w ∧ w ≠ v
  | .null, _, h => by simp [rigid] at h
  | .bool _, _, h => by simp [rigid] at h
  | .int _, _, h => by simp [rigid] at h
  | .float _, _, h => by simp [rigid] at h
  | .str _, _, h => by simp [rigid] at h
  | .list xs, hd, h => by
    -- one item can be changed, or one entry
    obtain ⟨pre, post, v, w, rfl, hvw, hne⟩ := exists_item_ne xs hd h
    refine ⟨_, .item pre post hvw, ?_⟩
    intro heq
    have := List.append_cancel_left (Json.list.inj heq)
    exact hne (List.cons.inj this).1
  | .obj kvs, hd, h => by
    rw [distinct, Bool.and_eq_true, decide_eq_true_eq] at hd
    rw [rigid] at h
    cases hr : rigidEntries kvs with
    | false =>
      obtain ⟨pre, post, k, v, w, rfl, hvw, hne⟩ := exists_entry_ne kvs hd.2 hr
      refine ⟨_, .entry pre post k hvw, ?_⟩
      intro heq
      have := List.append_cancel_left (Json.obj.inj heq)
      exact hne (Prod.mk.inj (List.cons.inj this).1).2
    | true =>
      rw [hr, Bool.and_true, decide_eq_false_iff_not] at h
      rcases kvs with _ | ⟨x, _ | ⟨y, rest⟩⟩
      · simp at h
      · simp at h
      · refine ⟨.obj (y :: x :: rest), .perm (List.Perm.swap y x rest), ?_⟩
        intro heq
        have hxy : y = x := (List.cons.inj (Json.obj.inj heq)).1
        have hnd := hd.1
        rw [hxy] at hnd
        simp at hnd

/-- In a list, one item can be. -/
theorem exists_item_ne : ∀ xs : List Json, distinctItems xs = true → rigidItems xs = false →
    ∃ pre post v w, xs = pre ++ v :: post ∧ Reordered v w ∧ w ≠ v
  | [], _, h => by simp [rigidItems] at h
  | x :: xs, hd, h => by
    rw [distinctItems, Bool.and_eq_true] at hd
    rw [rigidItems, Bool.and_eq_false_iff] at h
    rcases h with h | h
    · obtain ⟨w, hxw, hne⟩ := exists_reordered_ne x hd.1 h
      exact ⟨[], xs, x, w, rfl, hxw, hne⟩
    · obtain ⟨pre, post, v, w, rfl, hvw, hne⟩ := exists_item_ne xs hd.2 h
      exact ⟨x :: pre, post, v, w, rfl, hvw, hne⟩

/-- In an object, one value can be. -/
theorem exists_entry_ne : ∀ kvs : Dict, distinctEntries kvs = true → rigidEntries kvs = false →
    ∃ pre post k v w, kvs = pre ++ (k, v) :: post ∧ Reordered v w ∧ w ≠ v
  | [], _, h => by simp [rigidEntries] at h
  | (k, x) :: kvs, hd, h => by
    rw [distinctEntries, Bool.and_eq_true] at hd
    rw [rigidEntries, Bool.and_eq_false_iff] at h
    rcases h with h | h
    · obtain ⟨w, hxw, hne⟩ := exists_reordered_ne x hd.1 h
      exact ⟨[], kvs, k, x, w, rfl, hxw, hne⟩
    · obtain ⟨pre, post, l, v, w, rfl, hvw, hne⟩ := exists_entry_ne kvs hd.2 h
      exact ⟨(k, x) :: pre, post, l, v, w, rfl, hvw, hne⟩
end

end IncidentRelay.Json
