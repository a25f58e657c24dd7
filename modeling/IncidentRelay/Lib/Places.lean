import Mathlib.Algebra.Order.Group.Int
import Mathlib.Data.Finset.Sort
import Mathlib.Data.Int.Interval
import Mathlib.Data.List.InsertIdx
import Mathlib.Tactic.Ring

/-!
# Places in a row

A finite set stands in a row when its places are the numbers from 1 to its size, each
taken once (`Numbered`). The order of the members then gives the places
(`Numbered.rank`), so two rows in the same order are equal
(`Numbered.eq_of_sameOrder`), and a row into which one member more was put is the row
before, moved up from the place on (`numbered_insert_iff`).

A list without repetitions puts its members in a row (`numbered_idxOf`).
-/

namespace IncidentRelay

-- One order on the places, whatever else is known of the integers.
local instance placePreorder : Preorder ℤ := Int.instLinearOrder.toPreorder

variable {ι : Type*} {s : Finset ι} {p q : ι → ℤ} {a x y : ι} {k : ℤ}

/-- The places are 1 to n, without ties or gaps. -/
def Numbered (s : Finset ι) (p : ι → ℤ) : Prop := Set.BijOn p s (Set.Icc 1 (s.card : ℤ))

/-- The members stand in the same order. -/
def SameOrder (s : Finset ι) (p q : ι → ℤ) : Prop := ∀ x ∈ s, ∀ y ∈ s, p x < p y ↔ q x < q y

/-- The place of a member behind which a place was opened at `k`. -/
def movedUp (k p : ℤ) : ℤ := if p < k then p else p + 1

theorem movedUp_lt_movedUp {m n : ℤ} : movedUp k m < movedUp k n ↔ m < n := by
  unfold movedUp
  split_ifs <;> omega

theorem movedUp_inj {m n : ℤ} : movedUp k m = movedUp k n ↔ m = n := by
  unfold movedUp
  split_ifs <;> omega

theorem movedUp_ne {n : ℤ} : movedUp k n ≠ k := by
  unfold movedUp
  split_ifs <;> omega

/-- The place of a member behind which the place `k` was closed. -/
def movedDown (k p : ℤ) : ℤ := if p < k then p else p - 1

theorem movedUp_movedDown {n : ℤ} (hn : n ≠ k) : movedUp k (movedDown k n) = n := by
  unfold movedUp movedDown
  split_ifs <;> omega

theorem movedDown_lt_movedDown {m n : ℤ} (hn : n ≠ k) :
    movedDown k m < movedDown k n ↔ m < n := by
  unfold movedDown
  split_ifs <;> omega

/-- A member that is closed up and makes way stays on its side of the one that goes from `j` to
`k`, if and only if it stands on that side of `k`. -/
theorem moved_lt_iff {j n : ℤ} (hn : n ≠ j) :
    (movedUp k (movedDown j n) < k ↔ n < j) ↔ (n < j → n < k) ∧ (j < n → k < n) := by
  unfold movedUp movedDown
  split_ifs <;> omega

theorem lt_moved_iff {j n : ℤ} (hn : n ≠ j) :
    (k < movedUp k (movedDown j n) ↔ j < n) ↔ (n < j → n < k) ∧ (j < n → k < n) := by
  unfold movedUp movedDown
  split_ifs <;> omega

/-! ## Numbered sets -/

theorem SameOrder.refl (s : Finset ι) (p : ι → ℤ) : SameOrder s p p := fun _ _ _ _ => Iff.rfl

theorem SameOrder.symm (h : SameOrder s p q) : SameOrder s q p :=
  fun x hx y hy => (h x hx y hy).symm

/-- No member stands further back than the last place, and no two share one. -/
theorem numbered_of_injOn (hinj : Set.InjOn p s) (hp : ∀ x ∈ s, 1 ≤ p x ∧ p x ≤ s.card) :
    Numbered s p := by
  refine ⟨fun x hx => hp x hx, hinj, ?_⟩
  have hsub : s.image p ⊆ Finset.Icc 1 (s.card : ℤ) := by
    intro k hk
    obtain ⟨x, hx, rfl⟩ := Finset.mem_image.mp hk
    exact Finset.mem_Icc.mpr (hp x hx)
  have hcard : (s.image p).card = (Finset.Icc 1 (s.card : ℤ)).card := by
    rw [Finset.card_image_of_injOn hinj, Int.card_Icc]
    omega
  have heq := Finset.eq_of_subset_of_card_le hsub hcard.ge
  intro k hk
  have hmem : k ∈ s.image p := by rwa [heq, Finset.mem_Icc]
  simpa using hmem

theorem Numbered.congr (h : Numbered s p) (hpq : ∀ x ∈ s, p x = q x) : Numbered s q :=
  Set.BijOn.congr h hpq

theorem Numbered.injOn (h : Numbered s p) : Set.InjOn p s := Set.BijOn.injOn h

theorem Numbered.bounds (h : Numbered s p) (hx : x ∈ s) : 1 ≤ p x ∧ p x ≤ s.card :=
  Set.BijOn.mapsTo h hx

/-- **The place of a member is the number of those that stand no further back.** -/
theorem Numbered.rank (h : Numbered s p) (hx : x ∈ s) :
    ((s.filter fun y => p y ≤ p x).card : ℤ) = p x := by
  obtain ⟨hpos, hle⟩ := h.bounds hx
  have himage : (s.filter fun y => p y ≤ p x).image p = Finset.Icc 1 (p x) := by
    ext k
    rw [Finset.mem_image, Finset.mem_Icc]
    constructor
    · rintro ⟨y, hy, rfl⟩
      obtain ⟨hy, hyx⟩ := Finset.mem_filter.mp hy
      exact ⟨(h.bounds hy).1, hyx⟩
    · rintro ⟨hk, hkx⟩
      obtain ⟨y, hy, rfl⟩ := Set.BijOn.surjOn h (Set.mem_Icc.mpr ⟨hk, hkx.trans hle⟩)
      exact ⟨y, Finset.mem_filter.mpr ⟨hy, hkx⟩, rfl⟩
  have hinj : Set.InjOn p (s.filter fun y => p y ≤ p x) :=
    h.injOn.mono fun y hy => (Finset.mem_filter.mp hy).1
  rw [← Finset.card_image_of_injOn hinj, himage, Int.card_Icc]
  omega

theorem SameOrder.le_iff (h : SameOrder s p q) (hx : x ∈ s) (hy : y ∈ s) :
    p x ≤ p y ↔ q x ≤ q y := by
  rw [← not_lt, ← not_lt, h y hy x hx]

/-- There is one numbering in a given order. -/
theorem Numbered.eq_of_sameOrder (hp : Numbered s p) (hq : Numbered s q) (h : SameOrder s p q)
    (hx : x ∈ s) : p x = q x := by
  rw [← hp.rank hx, ← hq.rank hx]
  congr 2
  exact Finset.filter_congr fun y hy => h.le_iff hy hx

/-! ## One member more -/

variable [DecidableEq ι]

/-- The members behind the new one have moved up by one place. -/
theorem Numbered.moved_of_sameOrder (ha : a ∉ s) (hp : Numbered s p)
    (hq : Numbered (insert a s) q) (h : SameOrder s p q) (hx : x ∈ s) :
    q x = movedUp (q a) (p x) := by
  -- the place of the new element is taken by nobody else
  have hxa : q x ≠ q a := by
    intro heq
    have := hq.injOn (Finset.mem_insert_of_mem hx) (Finset.mem_insert_self a s) heq
    exact ha (this ▸ hx)
  -- those in front are the same, and perhaps the new one
  have hfilter : (s.filter fun y => q y ≤ q x) = s.filter fun y => p y ≤ p x :=
    Finset.filter_congr fun y hy => (h.le_iff hy hx).symm
  have hrank := hq.rank (Finset.mem_insert_of_mem hx)
  rw [Finset.filter_insert] at hrank
  unfold movedUp
  split_ifs at hrank with hax
  · rw [Finset.card_insert_of_notMem (fun hmem => ha (Finset.mem_filter.mp hmem).1), hfilter] at hrank
    have := hp.rank hx
    rw [if_neg (by omega)]
    omega
  · rw [hfilter, hp.rank hx] at hrank
    rw [if_pos (by omega)]
    exact hrank.symm

/-- A member that is put at a place moves those behind it up. -/
theorem Numbered.of_moved (ha : a ∉ s) (hp : Numbered s p) (hpos : 1 ≤ q a)
    (hle : q a ≤ s.card + 1) (h : ∀ x ∈ s, q x = movedUp (q a) (p x)) :
    Numbered (insert a s) q := by
  refine numbered_of_injOn ?_ ?_
  · have hne : ∀ x ∈ s, q x ≠ q a := fun x hx => h x hx ▸ movedUp_ne
    intro x hx y hy hxy
    -- no two elements have one place
    obtain rfl | hxs := Finset.mem_insert.mp (Finset.mem_coe.mp hx)
    · obtain rfl | hys := Finset.mem_insert.mp (Finset.mem_coe.mp hy)
      · rfl
      · exact absurd hxy.symm (hne y hys)
    · obtain rfl | hys := Finset.mem_insert.mp (Finset.mem_coe.mp hy)
      · exact absurd hxy (hne x hxs)
      · rw [h x hxs, h y hys, movedUp_inj] at hxy
        exact hp.injOn hxs hys hxy
  -- and each place is within bounds
  · intro x hx
    rw [Finset.card_insert_of_notMem ha]
    obtain rfl | hx := Finset.mem_insert.mp hx
    · exact ⟨hpos, by omega⟩
    · have := hp.bounds hx
      rw [h x hx]
      unfold movedUp
      split_ifs <;> omega

/-- **A row with one member more keeps the order, if and only if the members behind it have
moved up.** -/
theorem numbered_insert_iff (ha : a ∉ s) (hp : Numbered s p) :
    Numbered (insert a s) q ∧ SameOrder s p q ↔
      1 ≤ q a ∧ q a ≤ s.card + 1 ∧ ∀ x ∈ s, q x = movedUp (q a) (p x) := by
  constructor
  · rintro ⟨hq, h⟩
    obtain ⟨hpos, hle⟩ := hq.bounds (Finset.mem_insert_self a s)
    rw [Finset.card_insert_of_notMem ha] at hle
    exact ⟨hpos, by omega, fun x hx => hp.moved_of_sameOrder ha hq h hx⟩
  · rintro ⟨hpos, hle, h⟩
    refine ⟨hp.of_moved ha hpos hle h, ?_⟩
    intro x hx y hy
    rw [h x hx, h y hy, movedUp_lt_movedUp]

/-! ## One member less, and a member at another place -/

theorem Numbered.ne_of_mem_erase (hp : Numbered s p) (ha : a ∈ s) (hx : x ∈ s.erase a) :
    p x ≠ p a := by
  obtain ⟨hne, hx⟩ := Finset.mem_erase.mp hx
  exact fun heq => hne (hp.injOn hx ha heq)

/-- A member that goes closes its place. -/
theorem Numbered.erase (hp : Numbered s p) (ha : a ∈ s) :
    Numbered (s.erase a) fun x => movedDown (p a) (p x) := by
  refine numbered_of_injOn ?_ ?_
  · intro x hx y hy hxy
    have hx' := hp.ne_of_mem_erase ha hx
    have hy' := hp.ne_of_mem_erase ha hy
    have heq : p x = p y := by
      dsimp only at hxy
      rw [← movedUp_movedDown hx', ← movedUp_movedDown hy', hxy]
    exact hp.injOn (Finset.mem_of_mem_erase hx) (Finset.mem_of_mem_erase hy) heq
  · intro x hx
    have hne := hp.ne_of_mem_erase ha hx
    have hcard := Finset.card_erase_add_one ha
    have hxs := hp.bounds (Finset.mem_of_mem_erase hx)
    have has := hp.bounds ha
    unfold movedDown
    split_ifs <;> omega

/-- The member has gone to the place `q a`, and the others have closed up. -/
theorem Numbered.move (hp : Numbered s p) (ha : a ∈ s) (hpos : 1 ≤ q a) (hle : q a ≤ s.card)
    (h : ∀ x ∈ s.erase a, q x = movedUp (q a) (movedDown (p a) (p x))) : Numbered s q := by
  have hcard := Finset.card_erase_add_one ha
  have hmoved := (hp.erase ha).of_moved (Finset.notMem_erase a s) hpos (by omega) h
  rwa [Finset.insert_erase ha] at hmoved

/-! ## Lists as rows -/

/-- The place of a member of the list, the first being 1. -/
def placeIn (l : List ι) (x : ι) : ℤ := l.idxOf x + 1

/-- A list numbers its members. -/
theorem numbered_idxOf {l : List ι} (hl : l.Nodup) : Numbered l.toFinset (placeIn l) := by
  refine numbered_of_injOn ?_ ?_
  · intro x hx y hy hxy
    have hidx : l.idxOf x = l.idxOf y := by
      unfold placeIn at hxy
      omega
    exact (List.idxOf_inj (List.mem_toFinset.mp hx)).mp hidx
  · intro x hx
    have := List.idxOf_lt_length_of_mem (List.mem_toFinset.mp hx)
    rw [List.toFinset_card_of_nodup hl]
    unfold placeIn
    omega

/-- In the order that it is sorted in. -/
theorem placeIn_lt_iff_of_pairwise {l : List ι} (hl : l.Pairwise fun x y => p x < p y)
    (hx : x ∈ l) (hy : y ∈ l) : p x < p y ↔ placeIn l x < placeIn l y := by
  have hlt : ∀ {x y}, x ∈ l → y ∈ l → placeIn l x < placeIn l y → p x < p y := by
    intro x y hx hy hxy
    have hx' := List.idxOf_lt_length_of_mem hx
    have hy' := List.idxOf_lt_length_of_mem hy
    have := List.pairwise_iff_getElem.mp hl _ _ hx' hy' (by unfold placeIn at hxy; omega)
    simpa using this
  refine ⟨fun hxy => ?_, hlt hx hy⟩
  obtain h | h | h := lt_trichotomy (placeIn l x) (placeIn l y)
  · exact h
  · have hidx : l.idxOf x = l.idxOf y := by
      unfold placeIn at h
      omega
    obtain rfl := (List.idxOf_inj hx).mp hidx
    exact absurd hxy (lt_irrefl _)
  · exact absurd hxy (hlt hy hx h).not_gt

/-- A list in the order of the places of a row is that row. -/
theorem Numbered.placeIn_eq {l : List ι} (hp : Numbered s p) (hl : l.Pairwise fun x y => p x < p y)
    (hs : l.toFinset = s) (hx : x ∈ s) : placeIn l x = p x := by
  have hnodup : l.Nodup := hl.imp fun h heq => absurd (heq ▸ h) (lt_irrefl _)
  subst hs
  refine Numbered.eq_of_sameOrder (numbered_idxOf hnodup) hp ?_ hx
  intro x hx y hy
  exact (placeIn_lt_iff_of_pairwise hl (List.mem_toFinset.mp hx) (List.mem_toFinset.mp hy)).symm

/-- A list in the order of the places, with one member left out. -/
theorem Numbered.placeIn_erase {l : List ι} (hp : Numbered s p) (ha : a ∈ s)
    (hl : l.Pairwise fun x y => p x < p y) (hs : l.toFinset = s.erase a) (hx : x ∈ s.erase a) :
    placeIn l x = movedDown (p a) (p x) := by
  refine (hp.erase ha).placeIn_eq (hl.imp_of_mem ?_) hs hx
  intro x y hx hy hxy
  have hy := hp.ne_of_mem_erase ha (hs ▸ List.mem_toFinset.mpr hy)
  exact (movedDown_lt_movedDown hy).mpr hxy

/-- One member is put into the list. -/
theorem placeIn_insertIdx {l : List ι} {n : ℕ} (ha : a ∉ l) (hn : n ≤ l.length) (hx : x ∈ l) :
    placeIn (l.insertIdx n a) x = movedUp (n + 1) (placeIn l x) := by
  have hxa : a ≠ x := fun h => ha (h ▸ hx)
  unfold placeIn movedUp
  -- by induction on the list, up to the place of the insertion
  induction l generalizing n with
  | nil => cases hx
  | cons b l ih =>
    cases n with
    | zero =>
      rw [List.insertIdx_zero, List.idxOf_cons_ne _ hxa]
      split_ifs <;> omega
    | succ n =>
      rw [List.insertIdx_succ_cons]
      by_cases hbx : b = x
      · subst hbx
        rw [List.idxOf_cons_self, List.idxOf_cons_self]
        split_ifs <;> omega
      · have hxl : x ∈ l := List.mem_of_ne_of_mem (Ne.symm hbx) hx
        have ih := ih (fun h => ha (List.mem_cons_of_mem _ h)) (Nat.le_of_succ_le_succ hn) hxl
        rw [List.idxOf_cons_ne _ hbx, List.idxOf_cons_ne _ hbx]
        split_ifs at ih ⊢ <;> omega

/-- A member that is inserted has the place that was asked for. -/
theorem placeIn_insertIdx_self {l : List ι} {n : ℕ} (ha : a ∉ l) (hn : n ≤ l.length) :
    placeIn (l.insertIdx n a) a = n + 1 := by
  unfold placeIn
  induction l generalizing n with
  | nil =>
    obtain rfl : n = 0 := Nat.le_zero.mp hn
    simp
  | cons b l ih =>
    cases n with
    | zero => simp
    | succ n =>
      have hba : b ≠ a := fun h => ha (h ▸ List.mem_cons_self)
      have ih := ih (fun h => ha (List.mem_cons_of_mem _ h)) (Nat.le_of_succ_le_succ hn)
      rw [List.insertIdx_succ_cons, List.idxOf_cons_ne _ hba]
      omega

end IncidentRelay
