import Mathlib.Data.Finset.Max
import Mathlib.Data.List.Sort
import Mathlib.Order.WithBot

/-!
# Batches cut by a limit

A job that reads `… ORDER BY position LIMIT n` and handles the rows it got, over
and over. A row waits at its first position until a batch has it; from then on it
waits at its settled position. A position of `⊤` is not waiting.

A row is starved by the rows that were ahead of it and stay ahead of it once they
are handled. `mem_rounds_iff` says that nothing else can starve it: with fewer
such rows than the limit, it is handled after as many rounds as there are rows
waiting; with as many, never.

`mem_take_insertionSort` reads membership in a sorted batch off the number of rows
before it.
-/

namespace IncidentRelay

/-- A population of rows with the positions they wait at. -/
structure Waiting (ι K : Type*) where
  members : Finset ι
  /-- Where a row waits until it is handled. -/
  first : ι → WithTop K
  /-- Where it waits once it is. -/
  settled : ι → WithTop K

namespace Waiting

variable {ι K : Type*} [DecidableEq ι]

/-- Where a row waits when the rows of `done` have been handled. -/
def position (w : Waiting ι K) (done : Finset ι) (i : ι) : WithTop K :=
  if i ∈ done then w.settled i else w.first i

theorem position_of_not_mem {w : Waiting ι K} {done : Finset ι} {i : ι} (h : i ∉ done) :
    w.position done i = w.first i :=
  if_neg h

theorem position_of_mem {w : Waiting ι K} {done : Finset ι} {i : ι} (h : i ∈ done) :
    w.position done i = w.settled i :=
  if_pos h

variable [LinearOrder K] (w : Waiting ι K)

def ahead (done : Finset ι) (x : WithTop K) : Finset ι :=
  w.members.filter fun j => w.position done j < x

/-- The waiting rows with fewer than `limit` rows ahead of them. -/
def batch (limit : Nat) (done : Finset ι) : Finset ι :=
  w.members.filter fun i =>
    w.position done i ≠ ⊤ ∧ (w.ahead done (w.position done i)).card < limit

def round (limit : Nat) (done : Finset ι) : Finset ι :=
  done ∪ w.batch limit done

/-- The rows handled by the first rounds. -/
def rounds (limit : Nat) : Nat → Finset ι
  | 0 => ∅
  | n + 1 => w.round limit (rounds limit n)

/-- The rows that are ahead of a row before they are handled, and after. -/
def stayAhead (i : ι) : Finset ι :=
  w.members.filter fun j => w.first j < w.first i ∧ w.settled j < w.first i

/-- The rows that are waiting at the start. -/
def waiting : Finset ι :=
  w.members.filter fun i => w.first i ≠ ⊤

variable {w} {limit : Nat} {done : Finset ι} {i j : ι}

theorem mem_ahead {x : WithTop K} :
    j ∈ w.ahead done x ↔ j ∈ w.members ∧ w.position done j < x :=
  Finset.mem_filter

omit [DecidableEq ι] in
theorem mem_stayAhead :
    j ∈ w.stayAhead i ↔ j ∈ w.members ∧ w.first j < w.first i ∧ w.settled j < w.first i :=
  Finset.mem_filter

theorem mem_batch : i ∈ w.batch limit done ↔ i ∈ w.members ∧ w.position done i ≠ ⊤ ∧
    (w.ahead done (w.position done i)).card < limit :=
  Finset.mem_filter

/-- A row in front of a row of the batch is in the batch. -/
theorem mem_batch_of_le (hj : j ∈ w.batch limit done) (hi : i ∈ w.members)
    (hle : w.position done i ≤ w.position done j) : i ∈ w.batch limit done := by
  obtain ⟨-, htop, hcard⟩ := mem_batch.mp hj
  refine mem_batch.mpr ⟨hi, ne_top_of_le_ne_top htop hle, lt_of_le_of_lt ?_ hcard⟩
  apply Finset.card_le_card
  intro k hk
  obtain ⟨hmem, hlt⟩ := mem_ahead.mp hk
  exact mem_ahead.mpr ⟨hmem, hlt.trans_le hle⟩

/-- The handled rows were all ahead of `i` at the start. -/
def OnlyAhead (w : Waiting ι K) (i : ι) (done : Finset ι) : Prop :=
  ∀ j ∈ done, j ∈ w.members ∧ w.first j < w.first i

/-- **Step lemma.** As long as a row is not handled, only rows ahead of it are. -/
theorem onlyAhead_round (hi : i ∈ w.members) (honly : w.OnlyAhead i done)
    (hout : i ∉ w.round limit done) : w.OnlyAhead i (w.round limit done) := by
  intro j hj
  have hidone : i ∉ done := fun h => hout (Finset.mem_union_left _ h)
  have hibatch : i ∉ w.batch limit done := fun h => hout (Finset.mem_union_right _ h)
  rcases Finset.mem_union.mp hj with hj | hj
  · exact honly j hj
  · by_cases hjdone : j ∈ done
    · exact honly j hjdone
    · refine ⟨(mem_batch.mp hj).1, ?_⟩
      by_contra hle
      -- otherwise the batch would have reached `i` first
      apply hibatch
      apply mem_batch_of_le hj hi
      rw [position_of_not_mem hidone, position_of_not_mem hjdone]
      exact not_lt.mp hle

/-- Rows that stay ahead are ahead whatever has been handled. -/
theorem stayAhead_subset_ahead : w.stayAhead i ⊆ w.ahead done (w.first i) := by
  intro j hj
  obtain ⟨hmem, hfirst, hsettled⟩ := mem_stayAhead.mp hj
  refine mem_ahead.mpr ⟨hmem, ?_⟩
  unfold position
  split
  · exact hsettled
  · exact hfirst

/-- A row with `limit` rows that stay ahead of it is not handled by a round. -/
theorem not_mem_round_of_starved (hstarved : limit ≤ (w.stayAhead i).card) (hout : i ∉ done) :
    i ∉ w.round limit done := by
  intro hin
  rcases Finset.mem_union.mp hin with h | h
  · exact hout h
  · obtain ⟨-, -, hcard⟩ := mem_batch.mp h
    rw [position_of_not_mem hout] at hcard
    have hsub : w.stayAhead i ⊆ w.ahead done (w.first i) := stayAhead_subset_ahead
    have hle := Finset.card_le_card hsub
    omega

/-- The handled rows that made way for `i`. -/
def yielded (w : Waiting ι K) (i : ι) (done : Finset ι) : Finset ι :=
  done.filter (· ∉ w.stayAhead i)

/-- **Step lemma.** A waiting row that fewer than `limit` rows stay ahead of is
handled, or another row makes way for it. -/
theorem yielded_round (hi : i ∈ w.members) (hwait : w.first i ≠ ⊤)
    (hfew : (w.stayAhead i).card < limit) (honly : w.OnlyAhead i done)
    (hout : i ∉ w.round limit done) :
    (w.yielded i done).card < (w.yielded i (w.round limit done)).card := by
  have hidone : i ∉ done := fun h => hout (Finset.mem_union_left _ h)
  have hibatch : i ∉ w.batch limit done := fun h => hout (Finset.mem_union_right _ h)
  -- the rows that are ahead now, but do not stay there
  set passing := w.ahead done (w.first i) \ w.stayAhead i with hpassing
  have hmany : limit ≤ (w.ahead done (w.first i)).card := by
    by_contra hlt
    apply hibatch
    rw [mem_batch, position_of_not_mem hidone]
    exact ⟨hi, hwait, not_le.mp hlt⟩
  have hne : passing.Nonempty := by
    rw [hpassing, Finset.sdiff_nonempty]
    intro hsub
    have := Finset.card_le_card hsub
    omega
  -- the first of them has only staying rows before it, so the batch has it
  obtain ⟨j, hj, hmin⟩ := passing.exists_min_image (w.position done) hne
  obtain ⟨hjahead, hjstay⟩ := Finset.mem_sdiff.mp hj
  obtain ⟨hjmem, hjlt⟩ := mem_ahead.mp hjahead
  have hbefore : w.ahead done (w.position done j) ⊆ w.stayAhead i := by
    intro k hk
    obtain ⟨hkmem, hklt⟩ := mem_ahead.mp hk
    by_contra hkstay
    have hk : k ∈ passing :=
      Finset.mem_sdiff.mpr ⟨mem_ahead.mpr ⟨hkmem, hklt.trans hjlt⟩, hkstay⟩
    exact absurd hklt (not_lt.mpr (hmin k hk))
  have hjbatch : j ∈ w.batch limit done :=
    mem_batch.mpr ⟨hjmem, hjlt.ne_top, (Finset.card_le_card hbefore).trans_lt hfew⟩
  have hjdone : j ∉ done := by
    intro hdone
    rw [position_of_mem hdone] at hjlt
    exact hjstay (mem_stayAhead.mpr ⟨hjmem, (honly j hdone).2, hjlt⟩)
  apply Finset.card_lt_card
  refine (Finset.ssubset_iff_of_subset ?_).mpr ⟨j, ?_, ?_⟩
  · exact Finset.filter_subset_filter _ Finset.subset_union_left
  · exact Finset.mem_filter.mpr ⟨Finset.mem_union_right _ hjbatch, hjstay⟩
  · intro h
    exact hjdone (Finset.mem_filter.mp h).1

theorem rounds_subset_succ (n : Nat) : w.rounds limit n ⊆ w.rounds limit (n + 1) :=
  Finset.subset_union_left

/-- **Run lemma.** A starved row is never handled. -/
theorem not_mem_rounds_of_starved (hstarved : limit ≤ (w.stayAhead i).card) (n : Nat) :
    i ∉ w.rounds limit n := by
  induction n with
  | zero => simp [rounds]
  | succ n ih => exact not_mem_round_of_starved hstarved ih

/-- A row that does not wait is never handled. -/
theorem not_mem_rounds_of_top (htop : w.first i = ⊤) (n : Nat) : i ∉ w.rounds limit n := by
  induction n with
  | zero => simp [rounds]
  | succ n ih =>
    intro hin
    rcases Finset.mem_union.mp hin with h | h
    · exact ih h
    · obtain ⟨-, hne, -⟩ := mem_batch.mp h
      rw [position_of_not_mem ih] at hne
      exact hne htop

/-- **Run lemma.** While a row that is not starved waits, each round makes another
row ahead of it make way. -/
theorem yielded_rounds (hi : i ∈ w.members) (hwait : w.first i ≠ ⊤)
    (hfew : (w.stayAhead i).card < limit) (n : Nat) (hout : i ∉ w.rounds limit n) :
    w.OnlyAhead i (w.rounds limit n) ∧ n ≤ (w.yielded i (w.rounds limit n)).card := by
  induction n with
  | zero => exact ⟨by simp [OnlyAhead, rounds], Nat.zero_le _⟩
  | succ n ih =>
    obtain ⟨honly, hcard⟩ := ih fun h => hout (rounds_subset_succ n h)
    have hmore := yielded_round hi hwait hfew honly hout
    refine ⟨onlyAhead_round hi honly hout, ?_⟩
    show n + 1 ≤ (w.yielded i (w.round limit (w.rounds limit n))).card
    omega

/-- **Starvation.** After as many rounds as there are rows waiting, a row has been
handled exactly when it waits and fewer rows than the limit stay ahead of it. -/
theorem mem_rounds_iff (hi : i ∈ w.members) {n : Nat} (hn : w.waiting.card ≤ n) :
    i ∈ w.rounds limit n ↔ w.first i ≠ ⊤ ∧ (w.stayAhead i).card < limit := by
  constructor
  · intro hin
    refine ⟨fun htop => not_mem_rounds_of_top htop n hin, ?_⟩
    by_contra hstarved
    exact not_mem_rounds_of_starved (not_lt.mp hstarved) n hin
  · rintro ⟨hwait, hfew⟩
    by_contra hout
    obtain ⟨honly, hcard⟩ := yielded_rounds hi hwait hfew n hout
    -- the rows that made way were waiting, and so was `i`
    have hlt : (w.yielded i (w.rounds limit n)).card < w.waiting.card := by
      apply Finset.card_lt_card
      refine (Finset.ssubset_iff_of_subset ?_).mpr ⟨i, ?_, ?_⟩
      · intro j hj
        obtain ⟨hmem, hlt⟩ := honly j (Finset.mem_filter.mp hj).1
        exact Finset.mem_filter.mpr ⟨hmem, hlt.ne_top⟩
      · exact Finset.mem_filter.mpr ⟨hi, hwait⟩
      · intro h
        exact hout (Finset.mem_filter.mp h).1
    omega

end Waiting

/-! ## Sorted batches -/

/-- The head of a sorted list of distinct rows: a row is in it exactly when fewer
rows than its length come before the row. -/
theorem mem_take_of_pairwise {α : Type*} {r : α → α → Prop} [DecidableRel r] {l : List α}
    (hsorted : l.Pairwise r) (hanti : ∀ x ∈ l, ∀ y ∈ l, r x y → r y x → x = y)
    (hnodup : l.Nodup) {x : α} (hx : x ∈ l) (n : Nat) :
    x ∈ l.take n ↔ (l.filter fun y => r y x ∧ ¬ r x y).length < n := by
  induction l generalizing n with
  | nil => simp at hx
  | cons a l ih =>
    obtain ⟨hhead, htail⟩ := List.pairwise_cons.mp hsorted
    obtain ⟨hanotin, hnd⟩ := List.nodup_cons.mp hnodup
    have hanti' : ∀ x ∈ l, ∀ y ∈ l, r x y → r y x → x = y := fun x hx y hy =>
      hanti x (List.mem_cons_of_mem a hx) y (List.mem_cons_of_mem a hy)
    cases n with
    | zero => simp
    | succ n =>
      rw [List.take_succ_cons, List.mem_cons]
      rcases List.mem_cons.mp hx with rfl | hxl
      · -- nothing comes before the head
        have hnil : ((x :: l).filter fun y => r y x ∧ ¬ r x y) = [] := by
          rw [List.filter_eq_nil_iff]
          intro y hy
          rw [decide_eq_true_eq]
          rintro ⟨hyx, hxy⟩
          rcases List.mem_cons.mp hy with rfl | hy
          · exact hxy hyx
          · exact hxy (hhead y hy)
        rw [hnil]
        exact ⟨fun _ => Nat.succ_pos n, fun _ => .inl rfl⟩
      · have hne : x ≠ a := fun h => hanotin (h ▸ hxl)
        have hstrict : r a x ∧ ¬ r x a := by
          refine ⟨hhead x hxl, fun hxa => hne ?_⟩
          exact hanti x hx a List.mem_cons_self hxa (hhead x hxl)
        rw [List.filter_cons_of_pos (by simpa using hstrict), List.length_cons,
          ih htail hanti' hnd hxl n]
        simp [hne]

/-- `ORDER BY … LIMIT n`. -/
theorem mem_take_insertionSort {α : Type*} {r : α → α → Prop} [DecidableRel r]
    [Std.Total r] [IsTrans α r] {l : List α}
    (hanti : ∀ x ∈ l, ∀ y ∈ l, r x y → r y x → x = y) (hnodup : l.Nodup) {x : α} (hx : x ∈ l)
    (n : Nat) :
    x ∈ (l.insertionSort r).take n ↔ (l.filter fun y => r y x ∧ ¬ r x y).length < n := by
  have hperm := List.perm_insertionSort r l
  rw [mem_take_of_pairwise (List.pairwise_insertionSort r l) _ (hperm.nodup_iff.mpr hnodup)
    (hperm.mem_iff.mpr hx), (hperm.filter _).length_eq]
  intro y hy z hz
  exact hanti y (hperm.mem_iff.mp hy) z (hperm.mem_iff.mp hz)

end IncidentRelay
