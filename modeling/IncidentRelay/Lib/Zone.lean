import Mathlib.Data.List.Basic
import Mathlib.Order.Lattice
import Mathlib.Tactic.Common
import Mathlib.Algebra.Order.Ring.Int

/-!
# Time zones

A zone has an offset from UTC that changes at given instants. Where the offset changes the clock
turns over local times: it shows them twice or leaves them out. They are then read with the
offset before the change.

## Results

 * `le_toUtc_iff`: a local time is converted to an instant after a change iff it comes after it
   by the clock before the change.
 * `toUtc_le_iff`: a local time that no change up to a horizon turns over is shown, or a later
   one, from the instant on that it is converted to.
-/

namespace IncidentRelay

/-- From the instant on, the offset. -/
structure OffsetChange where
  instant : ℤ
  offset : ℤ
  deriving DecidableEq

structure Zone where
  initial : ℤ
  changes : List OffsetChange
  sorted : changes.Pairwise fun c d => c.instant < d.instant

/-- A change of the offset, with the offset before it and the one after it. -/
structure Turn where
  instant : ℤ
  before : ℤ
  after : ℤ
  deriving DecidableEq

namespace Turn

/-- The local times between this one and `later` are repeated or left out. -/
def earlier (c : Turn) : ℤ := c.instant + min c.before c.after

def later (c : Turn) : ℤ := c.instant + max c.before c.after

/-- By how much the clock is put forward or back. -/
def jump (c : Turn) : ℤ := c.later - c.earlier

variable (c : Turn)

theorem earlier_le_before : c.earlier ≤ c.instant + c.before :=
  add_le_add_right (min_le_left _ _) _

theorem earlier_le_after : c.earlier ≤ c.instant + c.after :=
  add_le_add_right (min_le_right _ _) _

theorem before_le_later : c.instant + c.before ≤ c.later :=
  add_le_add_right (le_max_left _ _) _

theorem after_le_later : c.instant + c.after ≤ c.later :=
  add_le_add_right (le_max_right _ _) _

/-- The jump is what lies between the two. -/
theorem jump_nonneg : 0 ≤ c.jump := by
  have hlower := c.earlier_le_before
  have hupper := c.before_le_later
  unfold jump
  omega

/-- What a turn turns over comes before what the other one does, by both clocks. -/
def Before (d : Turn) : Prop := c.later ≤ d.earlier ∧ c.instant + c.jump ≤ d.instant

variable {c}

theorem Before.trans {d e : Turn} (hcd : c.Before d) (hde : d.Before e) : c.Before e := by
  have hwindow := d.jump_nonneg
  have horder : d.earlier ≤ d.later := sub_nonneg.mp hwindow
  exact ⟨hcd.1.trans (horder.trans hde.1), by have := hcd.2; have := hde.2; omega⟩

/-- Neighbours that lie apart come one before the other. -/
theorem before_of_apart {d : Turn} (hoffset : d.before = c.after)
    (h : c.instant + c.jump + d.jump ≤ d.instant) : c.Before d := by
  have hd := d.jump_nonneg
  have hlater : c.later = c.instant + max c.before c.after := rfl
  have hearlier : d.earlier = d.instant + min d.before d.after := rfl
  have hcjump : c.jump = max c.before c.after - min c.before c.after := by
    unfold jump later earlier
    omega
  have hdjump : d.jump = max d.before d.after - min d.before d.after := by
    unfold jump later earlier
    omega
  exact ⟨by omega, by omega⟩

end Turn

namespace Zone

def utc : Zone := ⟨0, [], .nil⟩

/-- The offset at an instant, the changes passed one after the other. -/
def offsetAt (o : ℤ) : List OffsetChange → ℤ → ℤ
  | [], _ => o
  | c :: changes, t => if c.instant ≤ t then offsetAt c.offset changes t else o

/-- The offset of a local time. -/
def offsetOf (o : ℤ) : List OffsetChange → ℤ → ℤ
  | [], _ => o
  | c :: changes, w =>
    if (Turn.mk c.instant o c.offset).later ≤ w then offsetOf c.offset changes w else o

/-- `astimezone(zone)` of an instant. -/
def toLocal (z : Zone) (t : ℤ) : ℤ := t + offsetAt z.initial z.changes t

/-- `replace(tzinfo=zone)` of a local time, in UTC. -/
def toUtc (z : Zone) (w : ℤ) : ℤ := w - offsetOf z.initial z.changes w

/-- The changes from an offset on, each with the offset before it. -/
def turnsFrom (o : ℤ) : List OffsetChange → List Turn
  | [] => []
  | c :: changes => ⟨c.instant, o, c.offset⟩ :: turnsFrom c.offset changes

def turns (z : Zone) : List Turn := turnsFrom z.initial z.changes

/-- No change moves the clock by more than `j`, and between two changes lies more time than they
move it by. -/
structure Apart (z : Zone) (j : ℤ) : Prop where
  jump_le : ∀ c ∈ z.turns, c.jump ≤ j
  chain : z.turns.IsChain fun c d => c.instant + c.jump + d.jump ≤ d.instant

/-! ## Turns in order -/

section Order

variable {o : ℤ} {c : Turn} {changes : List OffsetChange}

/-- Changes that are further apart than they jump come one before the other on the clock. -/
theorem pairwise_before
    (h : (turnsFrom o changes).IsChain fun c d => c.instant + c.jump + d.jump ≤ d.instant) :
    (turnsFrom o changes).Pairwise Turn.Before := by
  induction changes generalizing o with
  | nil => exact .nil
  | cons c changes ih =>
    cases changes with
    | nil => exact List.pairwise_singleton _ _
    | cons d changes =>
      -- the next turn comes after this one, and the others after the next one
      obtain ⟨hnext, htail⟩ := List.isChain_cons_cons.mp h
      have hrest := ih htail
      have hbefore : Turn.Before ⟨c.instant, o, c.offset⟩ ⟨d.instant, c.offset, d.offset⟩ :=
        Turn.before_of_apart rfl hnext
      refine List.pairwise_cons.mpr ⟨fun e he => ?_, hrest⟩
      obtain rfl | he := List.mem_cons.mp he
      · exact hbefore
      · exact hbefore.trans ((List.pairwise_cons.mp hrest).1 e he)

/-- A turn is at the instant of a change. -/
theorem instant_mem (h : c ∈ turnsFrom o changes) : ∃ d ∈ changes, d.instant = c.instant := by
  induction changes generalizing o with
  | nil => cases h
  | cons d changes ih =>
    obtain rfl | h := List.mem_cons.mp h
    · exact ⟨d, List.mem_cons_self, rfl⟩
    · obtain ⟨e, he, heq⟩ := ih h
      exact ⟨e, List.mem_cons_of_mem _ he, heq⟩

end Order

/-! ## The clock at an instant -/

section Clock

variable {o s t m : ℤ} {c : Turn} {changes : List OffsetChange}

/-- Before the first change. -/
theorem offsetAt_eq (h : ∀ c ∈ changes, t < c.instant) : offsetAt o changes t = o := by
  cases changes with
  | nil => rfl
  | cons c changes => exact if_neg (not_le_of_gt (h c List.mem_cons_self))

/-- The clock does not go back behind what the changes to come turn over. -/
theorem le_add_offsetAt (hlater : ∀ c ∈ turnsFrom o changes, m ≤ c.earlier) (h : m ≤ t + o) :
    m ≤ t + offsetAt o changes t := by
  induction changes generalizing o with
  | nil => exact h
  | cons c changes ih =>
    unfold offsetAt
    split_ifs with hc
    · have hearlier := hlater _ List.mem_cons_self
      have hafter := (Turn.mk c.instant o c.offset).earlier_le_after
      dsimp only at hafter
      exact ih (fun d hd => hlater d (List.mem_cons_of_mem _ hd)) (by omega)
    · exact h

/-- Behind a turn the clock is not behind its earlier reading. -/
theorem earlier_le_add_offsetAt (hbefore : (turnsFrom o changes).Pairwise Turn.Before)
    (hc : c ∈ turnsFrom o changes)
    (hsorted : changes.Pairwise fun c d => c.instant < d.instant) (h : c.instant ≤ t) :
    c.earlier ≤ t + offsetAt o changes t := by
  induction changes generalizing o with
  | nil => cases hc
  | cons d changes ih =>
    obtain ⟨hfirst, hrest⟩ := List.pairwise_cons.mp hbefore
    obtain ⟨hnext, hsorted⟩ := List.pairwise_cons.mp hsorted
    unfold offsetAt
    obtain rfl | hc := List.mem_cons.mp hc
    -- behind the change the offset is one of those after it
    · rw [if_pos h]
      refine le_add_offsetAt (fun e he => ?_) ?_
      · have horder := (hfirst e he).1
        have hwindow := Turn.jump_nonneg ⟨d.instant, o, d.offset⟩
        unfold Turn.jump at hwindow
        omega
      · have hafter := (Turn.mk d.instant o d.offset).earlier_le_after
        dsimp only at h hafter
        omega
    -- the change is behind the first one, so the first one is past as well
    · obtain ⟨e, he, heq⟩ := instant_mem hc
      have hd := hnext e he
      rw [if_pos (by omega)]
      exact ih hrest hc hsorted

/-- Before a turn the clock is behind its reading. -/
theorem add_offsetAt_lt (hbefore : (turnsFrom o changes).Pairwise Turn.Before)
    (hc : c ∈ turnsFrom o changes) (h : t < c.instant) :
    t + offsetAt o changes t < c.instant + c.before := by
  induction changes generalizing o with
  | nil => cases hc
  | cons d changes ih =>
    obtain ⟨hfirst, hrest⟩ := List.pairwise_cons.mp hbefore
    unfold offsetAt
    obtain rfl | hc := List.mem_cons.mp hc
    · rw [if_neg (not_le_of_gt h)]
      exact add_lt_add_left h _
    · split_ifs with hd
      · exact ih hrest hc
      · have horder := (hfirst c hc).1
        have hlater := (Turn.mk d.instant o d.offset).before_le_later
        have hearlier := c.earlier_le_before
        dsimp only at hlater
        omega

/-- At a turn the new offset counts already. -/
theorem offsetAt_instant (hsorted : changes.Pairwise fun c d => c.instant < d.instant)
    (hc : c ∈ turnsFrom o changes) : offsetAt o changes c.instant = c.after := by
  induction changes generalizing o with
  | nil => cases hc
  | cons d changes ih =>
    obtain ⟨hnext, hsorted⟩ := List.pairwise_cons.mp hsorted
    unfold offsetAt
    obtain rfl | hc := List.mem_cons.mp hc
    · rw [if_pos le_rfl]
      exact offsetAt_eq hnext
    · obtain ⟨e, he, heq⟩ := instant_mem hc
      have hd := hnext e he
      rw [if_pos (by omega)]
      exact ih hsorted hc

/-- In the last instant before a change the offset is still the one before it. -/
theorem offsetAt_last (hsorted : changes.Pairwise fun c d => c.instant < d.instant)
    (hc : c ∈ turnsFrom o changes) : offsetAt o changes (c.instant - 1) = c.before := by
  induction changes generalizing o with
  | nil => cases hc
  | cons d changes ih =>
    obtain ⟨hnext, hsorted⟩ := List.pairwise_cons.mp hsorted
    unfold offsetAt
    obtain rfl | hc := List.mem_cons.mp hc
    · exact if_neg (not_le_of_gt (sub_one_lt _))
    · obtain ⟨e, he, heq⟩ := instant_mem hc
      have hd := hnext e he
      rw [if_pos (by omega)]
      exact ih hsorted hc

/-- Between two instants the offset is kept, or it is the one of a change between them. -/
theorem offsetAt_cases (hsorted : changes.Pairwise fun c d => c.instant < d.instant) (hst : s ≤ t) :
    offsetAt o changes t = offsetAt o changes s ∨
      ∃ c ∈ turnsFrom o changes, s < c.instant ∧ c.instant ≤ t ∧ offsetAt o changes t = c.after := by
  induction changes generalizing o with
  | nil => exact .inl rfl
  | cons c changes ih =>
    obtain ⟨hnext, hsorted⟩ := List.pairwise_cons.mp hsorted
    unfold offsetAt
    -- by whether the first change is past at the later instant
    by_cases ht : c.instant ≤ t
    · rw [if_pos ht]
      obtain hsame | ⟨d, hd, hsd, hdt, heq⟩ := ih hsorted (o := c.offset)
      · by_cases hs : c.instant ≤ s
        · rw [if_pos hs]
          exact .inl hsame
        · -- the change lies between the two, and no other one
          have hkept : offsetAt c.offset changes s = c.offset :=
            offsetAt_eq fun d hd => (lt_of_not_ge hs).trans (hnext d hd)
          exact .inr ⟨_, List.mem_cons_self, lt_of_not_ge hs, ht, hsame.trans hkept⟩
      · exact .inr ⟨d, List.mem_cons_of_mem _ hd, hsd, hdt, heq⟩
    · rw [if_neg ht, if_neg (fun hs => ht (hs.trans hst))]
      exact .inl rfl

end Clock

/-! ## The instant of a local time -/

section Instant

variable {o w t h : ℤ} {c : Turn} {changes : List OffsetChange}

/-- What the clock shows after an instant comes after it. -/
theorem le_sub_offsetOf {i : ℤ} (hafter : ∀ c ∈ changes, i ≤ c.instant) (h : i + o ≤ w) :
    i ≤ w - offsetOf o changes w := by
  induction changes generalizing o with
  | nil => exact le_sub_iff_add_le.mpr h
  | cons c changes ih =>
    have hlater := (Turn.mk c.instant o c.offset).after_le_later
    have hi := hafter c List.mem_cons_self
    dsimp only at hlater
    unfold offsetOf
    split_ifs with hw
    · exact ih (fun d hd => hafter d (List.mem_cons_of_mem _ hd)) (by omega)
    · exact le_sub_iff_add_le.mpr h

/-- A local time comes after a change iff it does by the clock before the change. -/
theorem instant_le_sub_offsetOf_iff (hbefore : (turnsFrom o changes).Pairwise Turn.Before)
    (hsorted : changes.Pairwise fun c d => c.instant < d.instant) (hc : c ∈ turnsFrom o changes) :
    c.instant ≤ w - offsetOf o changes w ↔ c.instant + c.before ≤ w := by
  induction changes generalizing o with
  | nil => cases hc
  | cons d changes ih =>
    obtain ⟨hfirst, hrest⟩ := List.pairwise_cons.mp hbefore
    obtain ⟨hnext, hsorted⟩ := List.pairwise_cons.mp hsorted
    have hbounds := (Turn.mk d.instant o d.offset).before_le_later
    have hafter := (Turn.mk d.instant o d.offset).after_le_later
    dsimp only at hbounds hafter
    unfold offsetOf
    -- the change is the first one, or one behind it
    obtain rfl | hc := List.mem_cons.mp hc
    · split_ifs with hw
      · refine iff_of_true ?_ (hbounds.trans hw)
        exact le_sub_offsetOf (fun e he => (hnext e he).le) (hafter.trans hw)
      · exact le_sub_iff_add_le
    · split_ifs with hw
      · exact ih hrest hsorted hc
      · -- before the first change by the clock, and still before this one in UTC
        obtain ⟨hwindow, hinstant⟩ := hfirst c hc
        have hearlier := c.earlier_le_before
        have hlower := (Turn.mk d.instant o d.offset).earlier_le_before
        unfold Turn.jump at hinstant
        dsimp only at hlower hinstant
        exact iff_of_false (by omega) (by omega)

/-- What a change turns over is read with the offset before it. -/
theorem offsetOf_eq_before (hbefore : (turnsFrom o changes).Pairwise Turn.Before)
    (hc : c ∈ turnsFrom o changes) (hlower : c.earlier ≤ w) (hupper : w < c.later) :
    offsetOf o changes w = c.before := by
  induction changes generalizing o with
  | nil => cases hc
  | cons d changes ih =>
    obtain ⟨hfirst, hrest⟩ := List.pairwise_cons.mp hbefore
    unfold offsetOf
    obtain rfl | hc := List.mem_cons.mp hc
    · exact if_neg (not_le_of_gt hupper)
    · rw [if_pos ((hfirst c hc).1.trans hlower)]
      exact ih hrest hc

/-- At the instant of a local time the clock shows it, or a later time. -/
theorem le_add_offsetAt_sub_offsetOf (hbefore : (turnsFrom o changes).Pairwise Turn.Before)
    (hsorted : changes.Pairwise fun c d => c.instant < d.instant) :
    w ≤ w - offsetOf o changes w + offsetAt o changes (w - offsetOf o changes w) := by
  induction changes generalizing o with
  | nil => exact (sub_add_cancel w o).ge
  | cons c changes ih =>
    obtain ⟨hfirst, hrest⟩ := List.pairwise_cons.mp hbefore
    obtain ⟨hnext, hsorted⟩ := List.pairwise_cons.mp hsorted
    have hafter := (Turn.mk c.instant o c.offset).after_le_later
    dsimp only at hafter
    unfold offsetOf offsetAt
    split_ifs with hw hlate hlate
    · exact ih hrest hsorted
    · -- a time after the change by the clock comes after it in UTC
      exact absurd (le_sub_offsetOf (fun e he => (hnext e he).le) (hafter.trans hw)) hlate
    · -- the time is left out: the clock is put forward over it
      refine le_add_offsetAt (fun e he => (le_of_not_ge hw).trans (hfirst e he).1) ?_
      have hlater : (Turn.mk c.instant o c.offset).later = c.instant + max o c.offset := rfl
      omega
    · exact (sub_add_cancel w o).ge

/-- **A wall time has come exactly when the clock shows it**, unless a change leaves it out or
repeats it. -/
theorem sub_offsetOf_le_iff (hbefore : (turnsFrom o changes).Pairwise Turn.Before)
    (hsorted : changes.Pairwise fun c d => c.instant < d.instant)
    (hclear : ∀ c ∈ turnsFrom o changes, c.instant ≤ h → w ≤ c.earlier ∨ c.later ≤ w) (ht : t ≤ h) :
    w - offsetOf o changes w ≤ t ↔ w ≤ t + offsetAt o changes t := by
  induction changes generalizing o with
  | nil => exact sub_le_iff_le_add
  | cons c changes ih =>
    obtain ⟨hfirst, hrest⟩ := List.pairwise_cons.mp hbefore
    obtain ⟨hnext, hsorted⟩ := List.pairwise_cons.mp hsorted
    have hbounds := (Turn.mk c.instant o c.offset).before_le_later
    have hafter := (Turn.mk c.instant o c.offset).after_le_later
    dsimp only at hbounds hafter
    unfold offsetOf offsetAt
    -- by whether the clock is past the change at the time
    by_cases hw : (Turn.mk c.instant o c.offset).later ≤ w
    · rw [if_pos hw]
      by_cases hc : c.instant ≤ t
      · rw [if_pos hc]
        exact ih hrest hsorted fun d hd => hclear d (List.mem_cons_of_mem _ hd)
      · -- the change is still to come, for the clock too
        have hinstant : c.instant ≤ w - offsetOf c.offset changes w :=
          le_sub_offsetOf (fun e he => (hnext e he).le) (hafter.trans hw)
        rw [if_neg hc]
        exact iff_of_false (by omega) (by omega)
    · rw [if_neg hw]
      by_cases hc : c.instant ≤ t
      · -- the change has passed, and the clock does not fall back to the time again
        have hearly := (hclear _ List.mem_cons_self (hc.trans ht)).resolve_right hw
        have hlower := (Turn.mk c.instant o c.offset).earlier_le_before
        dsimp only at hlower
        rw [if_pos hc]
        refine iff_of_true (by omega) (hearly.trans (le_add_offsetAt (fun e he => ?_) ?_))
        · have horder := (hfirst e he).1
          have hwindow := Turn.jump_nonneg ⟨c.instant, o, c.offset⟩
          unfold Turn.jump at hwindow
          omega
        · have hhere := (Turn.mk c.instant o c.offset).earlier_le_after
          dsimp only at hhere
          omega
      · rw [if_neg hc]
        exact sub_le_iff_le_add

end Instant

/-! ## Zones whose changes lie apart -/

section Apart

variable {z : Zone} {j w s t h : ℤ} {c : Turn}

theorem Apart.before (hapart : z.Apart j) : z.turns.Pairwise Turn.Before :=
  pairwise_before hapart.chain

/-- After a change the clock shows no time before those that it turns over. -/
theorem Apart.earlier_le_toLocal (hapart : z.Apart j) (hc : c ∈ z.turns) (h : c.instant ≤ t) :
    c.earlier ≤ z.toLocal t :=
  earlier_le_add_offsetAt hapart.before hc z.sorted h

/-- Before a change the clock shows only times before it. -/
theorem Apart.toLocal_lt (hapart : z.Apart j) (hc : c ∈ z.turns) (h : t < c.instant) :
    z.toLocal t < c.instant + c.before :=
  add_offsetAt_lt hapart.before hc h

theorem toLocal_instant (hc : c ∈ z.turns) : z.toLocal c.instant = c.instant + c.after :=
  congrArg (c.instant + ·) (offsetAt_instant z.sorted hc)

theorem toLocal_last (hc : c ∈ z.turns) :
    z.toLocal (c.instant - 1) = c.instant - 1 + c.before :=
  congrArg (c.instant - 1 + ·) (offsetAt_last z.sorted hc)

/-- Later on the clock has gone on, or shows a time since a change. -/
theorem toLocal_cases (hst : s ≤ t) : z.toLocal t = z.toLocal s + (t - s) ∨
    ∃ c ∈ z.turns, s < c.instant ∧ c.instant ≤ t ∧ c.earlier ≤ z.toLocal t := by
  unfold toLocal
  obtain hsame | ⟨c, hc, hs, ht, heq⟩ := offsetAt_cases (o := z.initial) z.sorted hst
  · exact .inl (by rw [hsame]; omega)
  · have hafter := c.earlier_le_after
    exact .inr ⟨c, hc, hs, ht, by rw [heq]; omega⟩

/-- **A local time comes after a change iff it does by the clock before the change.** -/
theorem Apart.le_toUtc_iff (hapart : z.Apart j) (hc : c ∈ z.turns) :
    c.instant ≤ z.toUtc w ↔ c.instant + c.before ≤ w :=
  instant_le_sub_offsetOf_iff hapart.before z.sorted hc

theorem Apart.le_toLocal_toUtc (hapart : z.Apart j) : w ≤ z.toLocal (z.toUtc w) :=
  le_add_offsetAt_sub_offsetOf hapart.before z.sorted

/-- **From the instant of a local time on the clock shows it or a later one**, up to a horizon
until which no change turns it over. -/
theorem Apart.toUtc_le_iff (hapart : z.Apart j)
    (hclear : ∀ c ∈ z.turns, c.instant ≤ h → w ≤ c.earlier ∨ c.later ≤ w) (ht : t ≤ h) :
    z.toUtc w ≤ t ↔ w ≤ z.toLocal t :=
  sub_offsetOf_le_iff hapart.before z.sorted hclear ht

/-- A time that a change turns over is converted with the offset before it. -/
theorem Apart.toUtc_eq (hapart : z.Apart j) (hc : c ∈ z.turns) (hlower : c.earlier ≤ w)
    (hupper : w < c.later) : z.toUtc w = w - c.before :=
  congrArg (w - ·) (offsetOf_eq_before hapart.before hc hlower hupper)

end Apart

end Zone

end IncidentRelay
