import Mathlib.Data.List.Basic
import Mathlib.Tactic.Common

/-!
# Breadth-first search with a bound

A search looks at the neighbours of a frontier, all at once, and goes on with those that it
has not seen. After `n` rounds it has seen what is at most `n` hops away (`mem_search`).
-/

namespace IncidentRelay

variable {α : Type*}

/-- `y` is `n` hops away from `x`. -/
inductive Hops (E : α → α → Prop) : ℕ → α → α → Prop
  | here (x : α) : Hops E 0 x x
  | hop {n : ℕ} {x y z : α} (edge : E x y) (rest : Hops E n y z) : Hops E (n + 1) x z

/-- `y` is at most `n` hops away from `x`. -/
def Within (E : α → α → Prop) (n : ℕ) (x y : α) : Prop := ∃ k ≤ n, Hops E k x y

section Hops

variable {E : α → α → Prop} {n : ℕ} {x y z : α}

theorem Within.refl (n : ℕ) (x : α) : Within E n x x := ⟨0, Nat.zero_le n, .here x⟩

theorem Within.head (h : E x y) (hrest : Within E n y z) : Within E (n + 1) x z := by
  obtain ⟨k, hk, hops⟩ := hrest
  exact ⟨k + 1, Nat.succ_le_succ hk, .hop h hops⟩

/-- The last hop of a way. -/
theorem Hops.snoc {k : ℕ} (h : Hops E k x y) (hyz : E y z) : Hops E (k + 1) x z := by
  induction h with
  | here x => exact .hop hyz (.here z)
  | hop edge _ ih => exact .hop edge (ih hyz)

/-- A way has a last step. -/
theorem Hops.exists_last {k : ℕ} (h : Hops E (k + 1) x y) : ∃ u, Hops E k x u ∧ E u y := by
  induction k generalizing x with
  | zero =>
    obtain - | ⟨edge, rest⟩ := h
    cases rest
    exact ⟨x, .here x, edge⟩
  | succ k ih =>
    obtain - | ⟨edge, rest⟩ := h
    obtain ⟨u, hu, huy⟩ := ih rest
    exact ⟨u, .hop edge hu, huy⟩

theorem Within.snoc (h : Within E n x y) (hyz : E y z) : Within E (n + 1) x z := by
  obtain ⟨k, hk, hops⟩ := h
  exact ⟨k + 1, Nat.succ_le_succ hk, hops.snoc hyz⟩

end Hops

section Search

variable [DecidableEq α]

/-- The candidates that were not seen, each once. -/
def fresh (seen : List α) : List α → List α
  | [] => []
  | y :: ys => if y ∈ seen then fresh seen ys else y :: fresh (y :: seen) ys

/-- Fresh are those that were not seen. -/
theorem mem_fresh {seen ys : List α} {y : α} : y ∈ fresh seen ys ↔ y ∈ ys ∧ y ∉ seen := by
  induction ys generalizing seen with
  | nil => simp [fresh]
  | cons a ys ih =>
    unfold fresh
    split_ifs with ha
    · rw [ih]
      constructor
      · exact fun h => ⟨List.mem_cons_of_mem a h.1, h.2⟩
      · rintro ⟨hy, hno⟩
        rcases List.mem_cons.mp hy with rfl | hy
        · exact absurd ha hno
        · exact ⟨hy, hno⟩
    · rw [List.mem_cons, ih, List.mem_cons, List.mem_cons]
      by_cases hya : y = a
      · subst hya
        simp [ha]
      · simp [hya]

/-- The search: `neighbours` of a whole frontier, and the rounds that are left. -/
def search (neighbours : List α → List α) : ℕ → List α → List α → List α
  | 0, seen, _ => seen
  | n + 1, seen, frontier =>
    if frontier = [] then seen
    else
      let new := fresh seen (neighbours frontier)
      search neighbours n (seen ++ new) new

variable {E : α → α → Prop} {neighbours : List α → List α}

/-- A search forgets nothing. -/
theorem seen_subset_search (n : ℕ) {seen frontier : List α} {y : α} (hy : y ∈ seen) :
    y ∈ search neighbours n seen frontier := by
  induction n generalizing seen frontier with
  | zero => exact hy
  | succ n ih =>
    unfold search
    split_ifs with hempty
    · exact hy
    · exact ih (List.mem_append_left _ hy)

/-- What was seen before the frontier has its neighbours among what was seen. -/
def Explored (E : α → α → Prop) (seen frontier : List α) : Prop :=
  ∀ x ∈ seen, x ∉ frontier → ∀ y, E x y → y ∈ seen

/-- One level further, all that was seen at the levels before is explored. -/
theorem Explored.next (hneighbours : ∀ frontier y, y ∈ neighbours frontier ↔ ∃ x ∈ frontier, E x y)
    {seen frontier : List α} (h : Explored E seen frontier) :
    Explored E (seen ++ fresh seen (neighbours frontier)) (fresh seen (neighbours frontier)) := by
  intro x hx hnew y hxy
  have hseen : x ∈ seen := (List.mem_append.mp hx).resolve_right hnew
  rw [List.mem_append]
  by_cases hfrontier : x ∈ frontier
  · by_cases hy : y ∈ seen
    · exact .inl hy
    · exact .inr (mem_fresh.mpr ⟨(hneighbours frontier y).mpr ⟨x, hfrontier, hxy⟩, hy⟩)
  · exact .inl (h x hseen hfrontier y hxy)

/-- The search finds what is near enough. By induction on the levels. -/
theorem search_complete (hneighbours : ∀ frontier y, y ∈ neighbours frontier ↔ ∃ x ∈ frontier, E x y)
    (n : ℕ) {seen frontier : List α} (h : Explored E seen frontier) {x y : α} {k : ℕ} (hk : k ≤ n)
    (hx : x ∈ seen) (hops : Hops E k x y) : y ∈ search neighbours n seen frontier := by
  -- the rounds outside, the hops inside: a hop from before the frontier costs no round
  induction n generalizing seen frontier x y k with
  | zero =>
    obtain rfl : k = 0 := by omega
    cases hops
    exact hx
  | succ n ih =>
    induction hops with
    | here x => exact seen_subset_search _ hx
    | @hop k x y z edge rest ih_hops =>
      by_cases hfrontier : x ∈ frontier
      · unfold search
        rw [if_neg fun hempty => by simp [hempty] at hfrontier]
        have hy : y ∈ seen ++ fresh seen (neighbours frontier) := by
          rw [List.mem_append]
          by_cases hseen : y ∈ seen
          · exact .inl hseen
          · exact .inr (mem_fresh.mpr ⟨(hneighbours frontier y).mpr ⟨x, hfrontier, edge⟩, hseen⟩)
        exact ih (h.next hneighbours) (by omega) hy rest
      · exact ih_hops (by omega) (h x hx hfrontier y edge)

theorem search_sound (hneighbours : ∀ frontier y, y ∈ neighbours frontier ↔ ∃ x ∈ frontier, E x y)
    (n : ℕ) {seen frontier : List α} {y : α} (hy : y ∈ search neighbours n seen frontier) :
    y ∈ seen ∨ ∃ x ∈ frontier, Within E n x y := by
  induction n generalizing seen frontier with
  | zero => exact .inl hy
  | succ n ih =>
    unfold search at hy
    split_ifs at hy with hempty
    · exact .inl hy
    · rcases ih hy with hy | ⟨z, hz, hzy⟩
      · rcases List.mem_append.mp hy with hy | hy
        · exact .inl hy
        · obtain ⟨x, hx, hxy⟩ := (hneighbours frontier y).mp (mem_fresh.mp hy).1
          exact .inr ⟨x, hx, (Within.refl n y).head hxy⟩
      · obtain ⟨x, hx, hxz⟩ := (hneighbours frontier z).mp (mem_fresh.mp hz).1
        exact .inr ⟨x, hx, hzy.head hxz⟩

/-- **A search from a start sees what is within its rounds.** -/
theorem mem_search (hneighbours : ∀ frontier y, y ∈ neighbours frontier ↔ ∃ x ∈ frontier, E x y)
    (n : ℕ) (x y : α) : y ∈ search neighbours n [x] [x] ↔ Within E n x y := by
  constructor
  · intro hy
    rcases search_sound hneighbours n hy with hy | ⟨z, hz, hzy⟩
    · obtain rfl := List.mem_singleton.mp hy
      exact Within.refl n y
    · obtain rfl := List.mem_singleton.mp hz
      exact hzy
  · rintro ⟨k, hk, hops⟩
    refine search_complete hneighbours n ?_ hk (List.mem_singleton_self x) hops
    exact fun z hz hno => absurd hz hno

end Search

end IncidentRelay
