import Mathlib.Data.List.Pairwise
import Mathlib.Order.Lattice
import Mathlib.Tactic.Common

/-!
# Gaps between samples

A property is looked at in some points of an order, one after the other, and the runs of points
without it are reported as intervals: from the first point of the run to the first point after it,
or to the end. What such a report says of a point in between is what was seen in the last point
before it.

* `mem_gapsFrom`: a point lies in a reported interval, if and only if the last sample before it
  lacks the property.
* `gapsFrom_apart`: the intervals do not touch.
-/

namespace IncidentRelay.Samples

variable {T : Type*} [LinearOrder T]

/-- The runs of samples that are not covered, up to `stop`; a run may be open. -/
def gapsFrom (covered : T → Bool) (stop : T) : Option T → List T → List (T × T)
  | none, [] => []
  | some start, [] => [(start, stop)]
  | none, s :: samples =>
    if covered s then gapsFrom covered stop none samples else gapsFrom covered stop (some s) samples
  | some start, s :: samples =>
    if covered s then (start, s) :: gapsFrom covered stop none samples
    else gapsFrom covered stop (some start) samples

/-- The last sample that is not after a point. -/
structure IsLast (samples : List T) (s t : T) : Prop where
  mem : s ∈ samples
  le : s ≤ t
  last : ∀ r ∈ samples, r ≤ t → r ≤ s

theorem isLast_nil {s t : T} : ¬IsLast [] s t := fun h => List.not_mem_nil h.mem

/-- The last sample before an instant is the first one where the next comes later. -/
theorem isLast_cons {a s t : T} {samples : List T} (h : ∀ r ∈ samples, a < r) :
    IsLast (a :: samples) s t ↔ IsLast samples s t ∨ s = a ∧ a ≤ t ∧ ∀ r ∈ samples, t < r := by
  constructor
  · rintro ⟨hmem, hle, hlast⟩
    obtain rfl | hmem := List.mem_cons.mp hmem
    · refine .inr ⟨rfl, hle, fun r hr => lt_of_not_ge fun hrt => ?_⟩
      exact not_lt_of_ge (hlast r (List.mem_cons_of_mem _ hr) hrt) (h r hr)
    · exact .inl ⟨hmem, hle, fun r hr => hlast r (List.mem_cons_of_mem _ hr)⟩
  · rintro (⟨hmem, hle, hlast⟩ | ⟨rfl, hle, hnone⟩)
    · refine ⟨List.mem_cons_of_mem _ hmem, hle, fun r hr hrt => ?_⟩
      obtain rfl | hr := List.mem_cons.mp hr
      · exact (h s hmem).le
      · exact hlast r hr hrt
    · refine ⟨List.mem_cons_self, hle, fun r hr hrt => ?_⟩
      obtain rfl | hr := List.mem_cons.mp hr
      · exact le_rfl
      · exact absurd hrt (not_le_of_gt (hnone r hr))

section Gaps

variable {covered : T → Bool} {stop t : T}

/-- What was last seen before a point: an open run that no sample has ended, or a sample that is
not covered. -/
def LastUncovered (covered : T → Bool) (start : Option T) (samples : List T) (t : T) : Prop :=
  (∃ g ∈ start, g ≤ t ∧ ∀ r ∈ samples, t < r) ∨ ∃ s, IsLast samples s t ∧ covered s = false

/-- Whether a point lies in one of the intervals. -/
def InGap (gaps : List (T × T)) (t : T) : Prop := ∃ gap ∈ gaps, gap.1 ≤ t ∧ t < gap.2

theorem inGap_cons {gap : T × T} {gaps : List (T × T)} :
    InGap (gap :: gaps) t ↔ gap.1 ≤ t ∧ t < gap.2 ∨ InGap gaps t := by
  simp [InGap]

/-- Where the last sample sees nobody: in the gap that is open, behind this sample, or behind a
later one. -/
theorem lastUncovered_cons {start : Option T} {s : T} {samples : List T} (h : ∀ r ∈ samples, s < r) :
    LastUncovered covered start (s :: samples) t ↔
      (∃ g ∈ start, g ≤ t ∧ t < s) ∨ (covered s = false ∧ s ≤ t ∧ ∀ r ∈ samples, t < r) ∨
        ∃ r, IsLast samples r t ∧ covered r = false := by
  unfold LastUncovered
  simp only [isLast_cons h]
  constructor
  · rintro (⟨g, hg, hle, hafter⟩ | ⟨r, hlast | ⟨rfl, hle, hafter⟩, hr⟩)
    · exact .inl ⟨g, hg, hle, hafter s List.mem_cons_self⟩
    · exact .inr (.inr ⟨r, hlast, hr⟩)
    · exact .inr (.inl ⟨hr, hle, hafter⟩)
  · rintro (⟨g, hg, hle, hs⟩ | ⟨hs, hle, hafter⟩ | ⟨r, hlast, hr⟩)
    · exact .inl ⟨g, hg, hle, List.forall_mem_cons.mpr ⟨hs, fun r hr => hs.trans (h r hr)⟩⟩
    · exact .inr ⟨s, .inr ⟨rfl, hle, hafter⟩, hs⟩
    · exact .inr ⟨r, .inl hlast, hr⟩

/-- **A point before the end lies in a gap, if and only if what was last seen before it is
uncovered.** -/
theorem mem_gapsFrom {samples : List T} {start : Option T} (hsorted : samples.Pairwise (· < ·))
    (hstart : ∀ g ∈ start, ∀ s ∈ samples, g < s) (ht : t < stop) :
    InGap (gapsFrom covered stop start samples) t ↔ LastUncovered covered start samples t := by
  induction samples generalizing start with
  | nil =>
    cases start with
    | none => simp [gapsFrom, InGap, LastUncovered, isLast_nil]
    | some g => simp [gapsFrom, InGap, LastUncovered, isLast_nil, ht]
  | cons s samples ih =>
    obtain ⟨hs, hsorted⟩ := List.pairwise_cons.mp hsorted
    rw [lastUncovered_cons hs]
    cases start with
    | none =>
      cases hcovered : covered s with
      | true =>
        rw [gapsFrom, if_pos hcovered, ih hsorted (by simp)]
        simp [LastUncovered]
      | false =>
        rw [gapsFrom, if_neg (by simp [hcovered]), ih hsorted (by simpa using hs)]
        simp [LastUncovered]
    | some g =>
      have hgs : g < s := hstart g rfl s List.mem_cons_self
      cases hcovered : covered s with
      | true =>
        rw [gapsFrom, if_pos hcovered, inGap_cons, ih hsorted (by simp)]
        simp [LastUncovered]
      | false =>
        have hg : ∀ start ∈ some g, ∀ r ∈ samples, start < r := by
          rintro _ ⟨⟩ r hr
          exact hgs.trans (hs r hr)
        rw [gapsFrom, if_neg (by simp [hcovered]), ih hsorted hg]
        -- an open run goes on behind the sample
        have hopen : (g ≤ t ∧ ∀ r ∈ samples, t < r) ↔
            g ≤ t ∧ t < s ∨ s ≤ t ∧ ∀ r ∈ samples, t < r := by
          constructor
          · rintro ⟨hle, hafter⟩
            obtain hlt | hge := lt_or_ge t s
            · exact .inl ⟨hle, hlt⟩
            · exact .inr ⟨hge, hafter⟩
          · rintro (⟨hle, hlt⟩ | ⟨hge, hafter⟩)
            · exact ⟨hle, fun r hr => hlt.trans (hs r hr)⟩
            · exact ⟨hgs.le.trans hge, hafter⟩
        simp [LastUncovered, hopen, or_assoc]

omit [LinearOrder T] in
/-- An interval starts with the open run, or with a sample. -/
theorem start_of_mem_gapsFrom {samples : List T} {start : Option T} {gap : T × T}
    (h : gap ∈ gapsFrom covered stop start samples) : gap.1 ∈ start ∨ gap.1 ∈ samples := by
  induction samples generalizing start with
  | nil =>
    cases start with
    | none => cases h
    | some g =>
      obtain rfl := List.mem_singleton.mp h
      exact .inl rfl
  | cons s samples ih =>
    -- a gap behind starts at the one that was open, or at a later sample
    have hrest : ∀ {start' : Option T}, gap ∈ gapsFrom covered stop start' samples →
        (∀ g ∈ start', g ∈ start ∨ g = s) → gap.1 ∈ start ∨ gap.1 ∈ s :: samples := by
      intro start' hgap hstart'
      obtain hg | hmem := ih hgap
      · obtain hg | heq := hstart' _ hg
        · exact .inl hg
        · exact .inr (by rw [heq]; exact List.mem_cons_self)
      · exact .inr (List.mem_cons_of_mem _ hmem)
    -- whether a gap is open decides what a sample does
    cases start with
    | none =>
      rw [gapsFrom] at h
      split_ifs at h
      · exact hrest h nofun
      · exact hrest h fun g hg => .inr (Option.mem_some_iff.mp hg).symm
    | some g =>
      rw [gapsFrom] at h
      split_ifs at h
      · obtain rfl | h := List.mem_cons.mp h
        · exact .inl rfl
        · exact hrest h nofun
      · exact hrest h fun g' hg => .inl hg

omit [LinearOrder T] in
/-- An interval stops at a sample, or at the end. -/
theorem stop_of_mem_gapsFrom {samples : List T} {start : Option T} {gap : T × T}
    (h : gap ∈ gapsFrom covered stop start samples) : gap.2 = stop ∨ gap.2 ∈ samples := by
  induction samples generalizing start with
  | nil =>
    cases start with
    | none => cases h
    | some g =>
      obtain rfl := List.mem_singleton.mp h
      exact .inl rfl
  | cons s samples ih =>
    -- an interval that ends behind this sample ends at the stop or at a sample
    have hrest : ∀ {start' : Option T}, gap ∈ gapsFrom covered stop start' samples →
        gap.2 = stop ∨ gap.2 ∈ s :: samples :=
      fun hgap => (ih hgap).imp_right (List.mem_cons_of_mem _)
    cases start with
    | none =>
      rw [gapsFrom] at h
      split_ifs at h <;> exact hrest h
    | some g =>
      rw [gapsFrom] at h
      split_ifs at h
      · obtain rfl | h := List.mem_cons.mp h
        · exact .inr List.mem_cons_self
        · exact hrest h
      · exact hrest h

/-- **The intervals do not touch.** -/
theorem gapsFrom_apart {samples : List T} {start : Option T} (hsorted : samples.Pairwise (· < ·)) :
    (gapsFrom covered stop start samples).Pairwise fun gap next => gap.2 < next.1 := by
  induction samples generalizing start with
  | nil => cases start <;> simp [gapsFrom]
  | cons s samples ih =>
    obtain ⟨hs, hsorted⟩ := List.pairwise_cons.mp hsorted
    cases start with
    | none =>
      rw [gapsFrom]
      split_ifs <;> exact ih hsorted
    | some g =>
      rw [gapsFrom]
      split_ifs
      · refine List.pairwise_cons.mpr ⟨fun next hnext => ?_, ih hsorted⟩
        obtain hnone | hmem := start_of_mem_gapsFrom hnext
        · cases hnone
        · exact hs _ hmem
      · exact ih hsorted

end Gaps

end IncidentRelay.Samples
