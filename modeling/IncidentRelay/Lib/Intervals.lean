import Mathlib.Data.List.Sort
import Mathlib.Data.Int.Interval
import Mathlib.Data.Nat.Factorization.Basic
import Mathlib.Order.Interval.Finset.Basic

/-!
# Unions of intervals

Intervals are pairs of a start and an end, and the end does not belong to them. A list of
them is merged by a sweep over its starts, and other intervals are cut out of it.

 * `covers_merge`, `covers_subtract`: which points the results cover.
 * `apart_merge`: the intervals of a result lie apart.
 * `sum_lengths`: over the integers, the lengths of intervals that lie apart add up to the
   number of points that they cover.
 * `sum_wholeUnits`: the same for lengths that are rounded down to whole units, by the runs of
   the points.
-/

namespace IncidentRelay.Intervals

section Order

variable {T : Type*} [LinearOrder T]

def Holds (i : T × T) (t : T) : Prop := i.1 ≤ t ∧ t < i.2

def Covers (is : List (T × T)) (t : T) : Prop := ∃ i ∈ is, Holds i t

@[simp] theorem covers_nil (t : T) : ¬Covers ([] : List (T × T)) t := by
  rintro ⟨i, hi, -⟩
  cases hi

@[simp] theorem covers_cons (i : T × T) (is : List (T × T)) (t : T) :
    Covers (i :: is) t ↔ Holds i t ∨ Covers is t := List.exists_mem_cons_iff _ _ _

@[simp] theorem covers_append (is js : List (T × T)) (t : T) :
    Covers (is ++ js) t ↔ Covers is t ∨ Covers js t := by
  simp [Covers, or_and_right, exists_or]

/-- What is covered by the pieces of all. -/
theorem covers_flatMap {α : Type*} (f : α → List (T × T)) (as : List α) (t : T) :
    Covers (as.flatMap f) t ↔ ∃ a ∈ as, Covers (f a) t := by
  simp only [Covers, List.mem_flatMap]
  constructor
  · rintro ⟨i, ⟨a, ha, hi⟩, ht⟩
    exact ⟨a, ha, i, hi, ht⟩
  · rintro ⟨a, ha, i, hi, ht⟩
    exact ⟨i, ⟨a, ha, hi⟩, ht⟩

/-! ## Merging -/

/-- The sweep: an interval that starts in the last one or at its end extends it. -/
def mergeFrom (last : T × T) : List (T × T) → List (T × T)
  | [] => [last]
  | i :: is =>
    if i.1 ≤ last.2 then mergeFrom (last.1, max last.2 i.2) is else last :: mergeFrom i is

def byStart (i j : T × T) : Prop := i.1 ≤ j.1

instance : DecidableRel (byStart (T := T)) := fun i j => inferInstanceAs (Decidable (i.1 ≤ j.1))

instance : Std.Total (byStart (T := T)) := ⟨fun i j => le_total i.1 j.1⟩

instance : IsTrans (T × T) byStart := ⟨fun _ _ _ h h' => le_trans h h'⟩

def merge (is : List (T × T)) : List (T × T) :=
  match is.insertionSort byStart with
  | [] => []
  | first :: rest => mergeFrom first rest

/-- Two intervals that touch are one. -/
theorem holds_extend {last i : T × T} (hstart : last.1 ≤ i.1) (htouch : i.1 ≤ last.2) (t : T) :
    Holds (last.1, max last.2 i.2) t ↔ Holds last t ∨ Holds i t := by
  unfold Holds
  rw [lt_max_iff]
  constructor
  · rintro ⟨hlast, hend | hend⟩
    · exact .inl ⟨hlast, hend⟩
    · -- the two intervals leave no gap
      rcases lt_or_ge t last.2 with hbefore | hbehind
      · exact .inl ⟨hlast, hbefore⟩
      · exact .inr ⟨htouch.trans hbehind, hend⟩
  · rintro (⟨hlast, hend⟩ | ⟨hi, hend⟩)
    · exact ⟨hlast, .inl hend⟩
    · exact ⟨hstart.trans hi, .inr hend⟩

/-- An interval that grows to the right keeps its place in the order. -/
theorem pairwise_extend {last i : T × T} {is : List (T × T)} (stop : T)
    (h : (last :: i :: is).Pairwise byStart) : ((last.1, stop) :: is).Pairwise byStart := by
  obtain ⟨hlast, hrest⟩ := List.pairwise_cons.mp h
  exact List.pairwise_cons.mpr ⟨fun j hj => hlast j (List.mem_cons_of_mem _ hj),
    (List.pairwise_cons.mp hrest).2⟩

/-- Merging covers the same. By induction on the intervals that follow. -/
theorem covers_mergeFrom {last : T × T} {is : List (T × T)} (h : (last :: is).Pairwise byStart) (t : T) :
    Covers (mergeFrom last is) t ↔ Holds last t ∨ Covers is t := by
  induction is generalizing last with
  | nil => simp [mergeFrom]
  | cons i is ih =>
    rw [mergeFrom]
    split_ifs with htouch
    · have hstart : last.1 ≤ i.1 := (List.pairwise_cons.mp h).1 i List.mem_cons_self
      rw [ih (pairwise_extend _ h), holds_extend hstart htouch, covers_cons, or_assoc]
    · rw [covers_cons, ih (List.pairwise_cons.mp h).2, covers_cons]

/-- An interval of the sweep starts at one of the intervals. -/
theorem exists_start {last : T × T} {is : List (T × T)} {j : T × T} (hj : j ∈ mergeFrom last is) :
    ∃ i ∈ last :: is, j.1 = i.1 := by
  induction is generalizing last with
  | nil => exact ⟨last, List.mem_cons_self, by rw [List.mem_singleton.mp hj]⟩
  | cons i is ih =>
    rw [mergeFrom] at hj
    split_ifs at hj with htouch
    · obtain ⟨i', hi', hstart⟩ := ih hj
      rcases List.mem_cons.mp hi' with rfl | hi'
      · exact ⟨last, List.mem_cons_self, hstart⟩
      · exact ⟨i', List.mem_cons_of_mem _ (List.mem_cons_of_mem _ hi'), hstart⟩
    · rcases List.mem_cons.mp hj with rfl | hj
      · exact ⟨j, List.mem_cons_self, rfl⟩
      · obtain ⟨i', hi', hstart⟩ := ih hj
        exact ⟨i', List.mem_cons_of_mem _ hi', hstart⟩

/-- Each interval ends before the next ones start. -/
def Apart (is : List (T × T)) : Prop := is.Pairwise fun i j => i.2 < j.1

theorem apart_mergeFrom {last : T × T} {is : List (T × T)} (h : (last :: is).Pairwise byStart) :
    Apart (mergeFrom last is) := by
  induction is generalizing last with
  | nil => exact List.pairwise_singleton _ _
  | cons i is ih =>
    rw [mergeFrom]
    split_ifs with htouch
    · exact ih (pairwise_extend _ h)
    · obtain ⟨-, hrest⟩ := List.pairwise_cons.mp h
      refine List.pairwise_cons.mpr ⟨fun j hj => ?_, ih hrest⟩
      -- the starts behind a gap are behind it as well
      obtain ⟨i', hi', hstart⟩ := exists_start hj
      rw [hstart]
      refine lt_of_lt_of_le (lt_of_not_ge htouch) ?_
      rcases List.mem_cons.mp hi' with rfl | hi'
      · exact le_rfl
      · exact (List.pairwise_cons.mp hrest).1 i' hi'

/-- In their order. -/
theorem sorted_mergeFrom {last : T × T} {is : List (T × T)} (h : (last :: is).Pairwise byStart) :
    (mergeFrom last is).Pairwise byStart := by
  induction is generalizing last with
  | nil => exact List.pairwise_singleton _ _
  | cons i is ih =>
    rw [mergeFrom]
    split_ifs with htouch
    · exact ih (pairwise_extend _ h)
    · obtain ⟨hlast, hrest⟩ := List.pairwise_cons.mp h
      refine List.pairwise_cons.mpr ⟨fun j hj => ?_, ih hrest⟩
      obtain ⟨i', hi', hstart⟩ := exists_start hj
      unfold byStart
      rw [hstart]
      exact hlast i' hi'

/-- Intervals that lie apart have no point in common. -/
theorem Apart.disjoint {is : List (T × T)} (h : Apart is) :
    is.Pairwise fun i j => ∀ t, Holds i t → ¬Holds j t :=
  h.imp fun hgap _ hi hj => absurd (hi.2.trans hgap) (not_lt_of_ge hj.1)

theorem covers_insertionSort (is : List (T × T)) (t : T) :
    Covers (is.insertionSort byStart) t ↔ Covers is t := by
  simp [Covers, List.mem_insertionSort]

/-- **Merging keeps the points.** -/
theorem covers_merge (is : List (T × T)) (t : T) : Covers (merge is) t ↔ Covers is t := by
  have hsorted := List.pairwise_insertionSort byStart is
  rw [← covers_insertionSort is t, merge]
  split
  · rename_i hnil
    rw [hnil]
  · rename_i first rest hcons
    rw [hcons] at hsorted ⊢
    rw [covers_mergeFrom hsorted, covers_cons]

/-- **Merged intervals lie apart.** -/
theorem apart_merge (is : List (T × T)) : Apart (merge is) := by
  have hsorted := List.pairwise_insertionSort byStart is
  rw [merge]
  split
  · exact List.Pairwise.nil
  · rename_i first rest hcons
    rw [hcons] at hsorted
    exact apart_mergeFrom hsorted

/-- Merged intervals are in order. -/
theorem sorted_merge (is : List (T × T)) : (merge is).Pairwise byStart := by
  have hsorted := List.pairwise_insertionSort byStart is
  rw [merge]
  split
  · exact List.Pairwise.nil
  · rename_i first rest hcons
    rw [hcons] at hsorted
    exact sorted_mergeFrom hsorted

/-! ## Cutting out -/

/-- What is left of a part beside an excluded interval. -/
def cut (ex part : T × T) : List (T × T) :=
  if ex.2 ≤ part.1 ∨ part.2 ≤ ex.1 then [part]
  else (if part.1 < ex.1 then [(part.1, ex.1)] else []) ++
    if ex.2 < part.2 then [(ex.2, part.2)] else []

def subtract (is exclusions : List (T × T)) : List (T × T) :=
  merge (is.flatMap fun i => exclusions.foldl (fun parts ex => parts.flatMap (cut ex)) [i])

/-- A piece that is not empty. -/
theorem covers_piece (start stop t : T) :
    Covers (if start < stop then [(start, stop)] else []) t ↔ Holds (start, stop) t := by
  split_ifs with h
  · rw [covers_cons, or_iff_left (covers_nil t)]
  · exact iff_of_false (covers_nil t) fun ht => h (ht.1.trans_lt ht.2)

/-- An exclusion leaves the parts before it and behind it. -/
theorem covers_cut (ex part : T × T) (t : T) : Covers (cut ex part) t ↔ Holds part t ∧ ¬Holds ex t := by
  unfold cut
  by_cases hbeside : ex.2 ≤ part.1 ∨ part.2 ≤ ex.1
  · -- the excluded interval lies beside the part
    rw [if_pos hbeside, covers_cons, or_iff_left (covers_nil t)]
    refine (and_iff_left_of_imp fun hpart hex => ?_).symm
    rcases hbeside with hleft | hright
    · exact absurd (hex.2.trans_le hleft) (not_lt_of_ge hpart.1)
    · exact absurd (hpart.2.trans_le hright) (not_lt_of_ge hex.1)
  · obtain ⟨hleft, hright⟩ := not_or.mp hbeside
    rw [if_neg hbeside, covers_append, covers_piece, covers_piece]
    constructor
    · rintro (⟨hstart, hstop⟩ | ⟨hstart, hstop⟩)
      · exact ⟨⟨hstart, hstop.trans (lt_of_not_ge hright)⟩, fun hex => not_le_of_gt hstop hex.1⟩
      · exact ⟨⟨(le_of_not_ge hleft).trans hstart, hstop⟩, fun hex => not_lt_of_ge hstart hex.2⟩
    · rintro ⟨⟨hstart, hstop⟩, hfree⟩
      rcases lt_or_ge t ex.1 with hbefore | hbehind
      · exact .inl ⟨hstart, hbefore⟩
      · exact .inr ⟨le_of_not_gt fun hinside => hfree ⟨hbehind, hinside⟩, hstop⟩

/-- By induction on the exclusions. -/
theorem covers_cuts (exclusions parts : List (T × T)) (t : T) :
    Covers (exclusions.foldl (fun parts ex => parts.flatMap (cut ex)) parts) t ↔
      Covers parts t ∧ ¬Covers exclusions t := by
  induction exclusions generalizing parts with
  | nil => simp
  | cons ex exclusions ih =>
    have hcut : Covers (parts.flatMap (cut ex)) t ↔ Covers parts t ∧ ¬Holds ex t := by
      rw [covers_flatMap]
      constructor
      · rintro ⟨part, hpart, ht⟩
        obtain ⟨hpartT, hfree⟩ := (covers_cut ex part t).mp ht
        exact ⟨⟨part, hpart, hpartT⟩, hfree⟩
      · rintro ⟨⟨part, hpart, ht⟩, hfree⟩
        exact ⟨part, hpart, (covers_cut ex part t).mpr ⟨ht, hfree⟩⟩
    rw [List.foldl_cons, ih, hcut, covers_cons, not_or, and_assoc]

/-- **Cutting out removes the points of the exclusions.** -/
theorem covers_subtract (is exclusions : List (T × T)) (t : T) :
    Covers (subtract is exclusions) t ↔ Covers is t ∧ ¬Covers exclusions t := by
  rw [subtract, covers_merge, covers_flatMap]
  constructor
  · rintro ⟨i, hi, ht⟩
    obtain ⟨hcovers, hfree⟩ := (covers_cuts exclusions [i] t).mp ht
    refine ⟨⟨i, hi, ?_⟩, hfree⟩
    rwa [covers_cons, or_iff_left (covers_nil t)] at hcovers
  · rintro ⟨⟨i, hi, ht⟩, hfree⟩
    exact ⟨i, hi, (covers_cuts exclusions [i] t).mpr ⟨⟨i, List.mem_cons_self, ht⟩, hfree⟩⟩

theorem apart_subtract (is exclusions : List (T × T)) : Apart (subtract is exclusions) := apart_merge _

theorem sorted_subtract (is exclusions : List (T × T)) : (subtract is exclusions).Pairwise byStart :=
  sorted_merge _

instance (i : T × T) (t : T) : Decidable (Holds i t) := inferInstanceAs (Decidable (_ ∧ _))

instance (is : List (T × T)) (t : T) : Decidable (Covers is t) :=
  inferInstanceAs (Decidable (∃ i ∈ is, Holds i t))

end Order

/-! ## Lengths -/

section Lengths

variable {is : List (ℤ × ℤ)} {lower upper : ℤ}

-- Keeps the measures computable where all of Mathlib is imported.
local instance measurePreorder : Preorder ℤ := Int.instLinearOrder.toPreorder

def length (i : ℤ × ℤ) : ℕ := (i.2 - i.1).toNat

/-- The points from a lower to an upper bound that satisfy the property. -/
def measure (lower upper : ℤ) (p : ℤ → Prop) [DecidablePred p] : ℕ :=
  ((Finset.Ico lower upper).filter p).card

/-- The measure depends on what is in the range. -/
theorem measure_congr {p q : ℤ → Prop} [DecidablePred p] [DecidablePred q]
    (h : ∀ t, lower ≤ t → t < upper → (p t ↔ q t)) : measure lower upper p = measure lower upper q := by
  unfold measure
  refine congrArg Finset.card (Finset.filter_congr fun t ht => ?_)
  obtain ⟨hlower, hupper⟩ := Finset.mem_Ico.mp ht
  exact h t hlower hupper

theorem measure_le (p : ℤ → Prop) [DecidablePred p] :
    measure lower upper p ≤ (upper - lower).toNat := by
  rw [← Int.card_Ico]
  exact Finset.card_le_card (Finset.filter_subset _ _)

theorem measure_eq_zero {p : ℤ → Prop} [DecidablePred p] :
    measure lower upper p = 0 ↔ ∀ t, lower ≤ t → t < upper → ¬p t := by
  unfold measure
  rw [Finset.card_eq_zero, Finset.filter_eq_empty_iff]
  simp only [Finset.mem_Ico, and_imp]

theorem measure_split (p q : ℤ → Prop) [DecidablePred p] [DecidablePred q] :
    measure lower upper p =
      measure lower upper (fun t => p t ∧ q t) + measure lower upper fun t => p t ∧ ¬q t := by
  unfold measure
  rw [← Finset.filter_filter, ← Finset.filter_filter, Finset.card_filter_add_card_filter_not]

/-- Two properties differ by what each has beyond the other one. -/
theorem measure_add_diff (p q : ℤ → Prop) [DecidablePred p] [DecidablePred q] :
    measure lower upper p + measure lower upper (fun t => q t ∧ ¬p t) =
      measure lower upper q + measure lower upper fun t => p t ∧ ¬q t := by
  have hboth : measure lower upper (fun t => p t ∧ q t) = measure lower upper fun t => q t ∧ p t :=
    measure_congr fun t _ _ => and_comm
  rw [measure_split p q, measure_split q p, hboth]
  omega

/-- In intervals that lie apart, the points of a kind add up. -/
theorem sum_counts (q : ℤ × ℤ → ℤ → Prop) [∀ i, DecidablePred (q i)] (hapart : Apart is)
    (hwithin : ∀ i ∈ is, ∀ t, Holds i t → lower ≤ t ∧ t < upper) :
    (is.map fun i => ((Finset.Ico i.1 i.2).filter (q i)).card).sum =
      measure lower upper fun t => ∃ i ∈ is, Holds i t ∧ q i t := by
  induction is with
  | nil => simp [measure]
  | cons i is ih =>
    obtain ⟨hi, hrest⟩ := List.pairwise_cons.mp hapart
    have hfirst : (Finset.Ico i.1 i.2).filter (q i) =
        (Finset.Ico lower upper).filter fun t => Holds i t ∧ q i t := by
      ext t
      simp only [Finset.mem_filter, Finset.mem_Ico]
      exact ⟨fun h => ⟨hwithin i List.mem_cons_self t h.1, h⟩, And.right⟩
    -- a point of the first interval is behind none of the other starts
    have hdisjoint : Disjoint ((Finset.Ico lower upper).filter fun t => Holds i t ∧ q i t)
        ((Finset.Ico lower upper).filter fun t => ∃ j ∈ is, Holds j t ∧ q j t) := by
      refine Finset.disjoint_filter.mpr fun t _ ht => ?_
      rintro ⟨j, hj, hjt, -⟩
      exact absurd (ht.1.2.trans (hi j hj)) (not_lt_of_ge hjt.1)
    have hsum := ih hrest fun j hj => hwithin j (List.mem_cons_of_mem _ hj)
    rw [List.map_cons, List.sum_cons, hsum, hfirst]
    unfold measure
    rw [← Finset.card_union_of_disjoint hdisjoint, ← Finset.filter_or]
    refine congrArg Finset.card (Finset.filter_congr fun t _ => ?_)
    exact (List.exists_mem_cons_iff (fun j => Holds j t ∧ q j t) i is).symm

/-- **The lengths of intervals that lie apart add up to the points that they cover.** -/
theorem sum_lengths (hapart : Apart is)
    (hwithin : ∀ i ∈ is, ∀ t, Holds i t → lower ≤ t ∧ t < upper) :
    (is.map length).sum = measure lower upper (Covers is) := by
  have hcount : is.map length = is.map fun i => ((Finset.Ico i.1 i.2).filter fun _ => True).card :=
    List.map_congr_left fun i _ => by rw [Finset.filter_true, Int.card_Ico]; rfl
  rw [hcount, sum_counts _ hapart hwithin]
  refine measure_congr fun t _ _ => ?_
  simp only [and_true, Covers]

/-- Lengths that are rounded down lose nothing where all of them are multiples of the unit. -/
theorem sum_units_eq_iff (is : List (ℤ × ℤ)) (unit : ℕ) :
    (is.map fun i => length i / unit).sum * unit = (is.map length).sum ↔ ∀ i ∈ is, unit ∣ length i := by
  induction is with
  | nil => simp
  | cons i is ih =>
    have hle : (is.map fun i => length i / unit).sum * unit ≤ (is.map length).sum := by
      rw [← List.sum_map_mul_right]
      exact List.sum_le_sum fun j _ => Nat.div_mul_le_self _ _
    have hfirst := Nat.div_mul_le_self (length i) unit
    rw [List.map_cons, List.sum_cons, List.map_cons, List.sum_cons, add_mul, List.forall_mem_cons, ← ih,
      Nat.dvd_iff_div_mul_eq]
    omega

/-! ## Runs -/

/-- All points from the start to the last one have the property, and no run that is longer
goes to the last one. -/
def RunFrom (lower : ℤ) (p : ℤ → Prop) (start last : ℤ) : Prop :=
  lower ≤ start ∧ start ≤ last ∧ (start = lower ∨ ¬p (start - 1)) ∧
    ∀ t, start ≤ t → t ≤ last → p t

/-- A run has one start. -/
theorem RunFrom.le {p : ℤ → Prop} {a b t : ℤ} (h : RunFrom lower p a t) (h' : RunFrom lower p b t) :
    a ≤ b := by
  refine le_of_not_gt fun hlt => ?_
  -- the point before the later start belongs to the earlier run
  rcases h.2.2.1 with hlower | hbefore
  · exact absurd (hlower ▸ h'.1) (not_le_of_gt hlt)
  · exact hbefore (h'.2.2.2 _ (by omega) (by have := h.2.1; omega))

theorem RunFrom.eq {p : ℤ → Prop} {a b t : ℤ} (h : RunFrom lower p a t) (h' : RunFrom lower p b t) :
    a = b := (h.le h').antisymm (h'.le h)

/-- Intervals that lie apart are the runs of the points that they cover. -/
theorem runFrom_covers (hapart : Apart is)
    (hwithin : ∀ i ∈ is, ∀ t, Holds i t → lower ≤ t ∧ t < upper) {i : ℤ × ℤ} (hi : i ∈ is) {t : ℤ}
    (ht : Holds i t) : RunFrom lower (Covers is) i.1 t := by
  have hstart : Holds i i.1 := ⟨le_rfl, ht.1.trans_lt ht.2⟩
  refine ⟨(hwithin i hi _ hstart).1, ht.1, .inr ?_, fun u hu hle => ⟨i, hi, hu, hle.trans_lt ht.2⟩⟩
  rintro ⟨j, hj, hjt⟩
  by_cases hij : i = j
  · subst hij
    exact absurd hjt.1 (by omega)
  · -- another interval that ends at the start would have been apart from it
    have hstop : j.1 < i.2 := by have := hjt.1; have := hstart.2; omega
    have hends : i.1 ≤ j.2 := by have := hjt.2; omega
    have hcases : i.2 < j.1 ∨ j.2 < i.1 := by
      have : Std.Symm fun i j : ℤ × ℤ => i.2 < j.1 ∨ j.2 < i.1 := ⟨fun _ _ => Or.symm⟩
      have hbeside : is.Pairwise fun i j => i.2 < j.1 ∨ j.2 < i.1 := hapart.imp .inl
      exact hbeside.forall hi hj hij
    omega

/-- The points at which a run has become as long as a multiple of the unit. -/
def Completes (lower : ℤ) (unit : ℕ) (p : ℤ → Prop) (t : ℤ) : Prop :=
  ∃ start, RunFrom lower p start t ∧ (unit : ℤ) ∣ t + 1 - start

open Classical in
/-- What the runs measure when each is rounded down to whole units. -/
noncomputable def wholeUnits (lower upper : ℤ) (unit : ℕ) (p : ℤ → Prop) : ℕ :=
  measure lower upper (Completes lower unit p)

/-- The whole units depend on what is in the range. -/
theorem wholeUnits_congr {unit : ℕ} {p q : ℤ → Prop} (h : ∀ t, lower ≤ t → t < upper → (p t ↔ q t)) :
    wholeUnits lower upper unit p = wholeUnits lower upper unit q := by
  classical
  refine measure_congr fun last _ hlast => exists_congr fun start => and_congr_left fun _ => ?_
  unfold RunFrom
  constructor
  · rintro ⟨hlower, hle, hbefore, hall⟩
    refine ⟨hlower, hle, ?_, fun t hstart ht => (h t (by omega) (by omega)).mp (hall t hstart ht)⟩
    by_cases heq : start = lower
    · exact .inl heq
    · exact .inr fun hq => (hbefore.resolve_left heq) ((h _ (by omega) (by omega)).mpr hq)
  · rintro ⟨hlower, hle, hbefore, hall⟩
    refine ⟨hlower, hle, ?_, fun t hstart ht => (h t (by omega) (by omega)).mpr (hall t hstart ht)⟩
    by_cases heq : start = lower
    · exact .inl heq
    · exact .inr fun hp => (hbefore.resolve_left heq) ((h _ (by omega) (by omega)).mp hp)

/-- The multiples of a unit among the distances from a start. -/
theorem card_multiples (a b : ℤ) (unit : ℕ) :
    ((Finset.Ico a b).filter fun t => (unit : ℤ) ∣ t + 1 - a).card = (b - a).toNat / unit := by
  rw [← Nat.Ioc_filter_dvd_card_eq_div]
  refine Finset.card_nbij' (fun t => (t + 1 - a).toNat) (fun n => a + n - 1) ?_ ?_ ?_ ?_
  · intro t ht
    simp only [Finset.mem_coe, Finset.mem_filter, Finset.mem_Ico] at ht
    simp only [Finset.mem_coe, Finset.mem_filter, Finset.mem_Ioc]
    obtain ⟨⟨hstart, hstop⟩, hdvd⟩ := ht
    refine ⟨by omega, ?_⟩
    rw [← Int.natCast_dvd_natCast, Int.toNat_of_nonneg (by omega)]
    exact hdvd
  · intro n hn
    simp only [Finset.mem_coe, Finset.mem_filter, Finset.mem_Ioc] at hn
    simp only [Finset.mem_coe, Finset.mem_filter, Finset.mem_Ico]
    obtain ⟨⟨hpos, hle⟩, hdvd⟩ := hn
    refine ⟨by omega, ?_⟩
    rw [show a + n - 1 + 1 - a = (n : ℤ) by omega]
    exact Int.natCast_dvd_natCast.mpr hdvd
  · intro t ht
    simp only [Finset.mem_coe, Finset.mem_filter, Finset.mem_Ico] at ht
    show a + ((t + 1 - a).toNat : ℤ) - 1 = t
    omega
  · intro n hn
    show (a + n - 1 + 1 - a).toNat = n
    omega

/-- **The whole units of intervals that lie apart are those of the runs that they cover.** -/
theorem sum_wholeUnits (unit : ℕ) (hapart : Apart is)
    (hwithin : ∀ i ∈ is, ∀ t, Holds i t → lower ≤ t ∧ t < upper) :
    (is.map fun i => length i / unit).sum = wholeUnits lower upper unit (Covers is) := by
  classical
  have hcount : (is.map fun i => length i / unit) = is.map fun i =>
      ((Finset.Ico i.1 i.2).filter fun t => (unit : ℤ) ∣ t + 1 - i.1).card :=
    List.map_congr_left fun i _ => (card_multiples i.1 i.2 unit).symm
  rw [hcount, sum_counts (fun i t => (unit : ℤ) ∣ t + 1 - i.1) hapart hwithin]
  refine measure_congr fun t _ _ => ?_
  constructor
  · rintro ⟨i, hi, ht, hdvd⟩
    exact ⟨i.1, runFrom_covers hapart hwithin hi ht, hdvd⟩
  · rintro ⟨start, hrun, hdvd⟩
    -- the run of the point is the interval that covers it
    obtain ⟨i, hi, ht⟩ := hrun.2.2.2 t hrun.2.1 le_rfl
    have hstart := hrun.eq (runFrom_covers hapart hwithin hi ht)
    exact ⟨i, hi, ht, hstart ▸ hdvd⟩

end Lengths

end IncidentRelay.Intervals
