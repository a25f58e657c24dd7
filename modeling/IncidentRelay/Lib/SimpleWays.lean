import IncidentRelay.Lib.Bfs
import Mathlib.Data.List.Nodup
import Mathlib.Data.Nat.Find

/-!
# Simple ways

A depth-first walk that carries its way and goes on only to nodes that are not on it follows
the simple ways of a graph. The edges out of a node are a list, so there can be several to
one node.

 * `mem_explore`: the walk lists each simple way up to a length, and each way that leads back
   to itself with its last hop.
 * `exists_simple_iff`: within a number of hops, simple ways lead wherever ways do.
 * `Within.exists_simple`: the shortest ways are among them.
-/

namespace IncidentRelay

variable {α ε : Type*} (out : α → List ε) (target : ε → α)

/-- There is an edge from `x` to `y`. -/
def Adjacent (x y : α) : Prop := ∃ e ∈ out x, target e = y

/-- Each hop leads to a node that is not on the way. -/
inductive SimpleWay : List α → α → List ε → Prop
  | here (seen : List α) (x : α) : SimpleWay seen x []
  | hop {seen : List α} {x : α} {e : ε} {es : List ε} (edge : e ∈ out x) (unseen : target e ∉ seen)
    (rest : SimpleWay (seen ++ [target e]) (target e) es) : SimpleWay seen x (e :: es)

/-- Each hop but the last leads to a node that is not on the way. -/
inductive OpenWay : List α → α → List ε → Prop
  | last {seen : List α} {x : α} {e : ε} (edge : e ∈ out x) : OpenWay seen x [e]
  | hop {seen : List α} {x : α} {e : ε} {es : List ε} (edge : e ∈ out x) (unseen : target e ∉ seen)
    (rest : OpenWay (seen ++ [target e]) (target e) es) : OpenWay seen x (e :: es)

/-- The node that a way leads to. -/
def endOf (x : α) : List ε → α
  | [] => x
  | e :: es => endOf (target e) es

/-- The ways of a depth-first walk, each before those that go on from it. -/
def explore [DecidableEq α] : ℕ → List α → α → List (List ε)
  | 0, _, _ => []
  | n + 1, seen, x => (out x).flatMap fun e =>
      [e] :: if target e ∈ seen then []
        else (explore n (seen ++ [target e]) (target e)).map (e :: ·)

section Explore

variable {out target} {seen : List α} {x : α} {es : List ε}

theorem OpenWay.ne_nil (h : OpenWay out target seen x es) : es ≠ [] := by
  cases h <;> exact List.cons_ne_nil _ _

/-- A simple way that leads somewhere is open. -/
theorem SimpleWay.open (h : SimpleWay out target seen x es) (hes : es ≠ []) :
    OpenWay out target seen x es := by
  induction h with
  | here => exact absurd rfl hes
  | @hop seen x e es edge unseen rest ih =>
    by_cases hlast : es = []
    · rw [hlast]
      exact .last edge
    · exact .hop edge unseen (ih hlast)

/-- The last hop of a way, after the others. -/
theorem OpenWay.simple_iff (h : OpenWay out target seen x es) :
    SimpleWay out target seen x es ↔ endOf target x es ∉ seen ++ es.dropLast.map target := by
  induction h with
  | @last seen x e edge =>
    constructor
    · rintro (_ | ⟨-, hunseen, -⟩)
      simpa [endOf] using hunseen
    · intro hunseen
      exact .hop edge (by simpa [endOf] using hunseen) (.here _ _)
  | @hop seen x e es edge unseen rest ih =>
    obtain ⟨d, more, rfl⟩ := List.exists_cons_of_ne_nil rest.ne_nil
    rw [List.append_assoc, List.singleton_append] at ih
    rw [List.dropLast_cons_cons, List.map_cons]
    refine Iff.trans ⟨?_, fun hrest => .hop edge unseen hrest⟩ ih
    rintro (_ | ⟨-, -, hrest⟩)
    exact hrest

/-- A simple way leads to a node that was not seen. -/
theorem SimpleWay.endOf_notMem (h : SimpleWay out target seen x es) (hes : es ≠ []) :
    endOf target x es ∉ seen := by
  induction h with
  | here => exact absurd rfl hes
  | @hop seen x e es edge unseen rest ih =>
    by_cases hlast : es = []
    · rw [hlast]
      exact unseen
    · exact fun hmem => ih hlast (List.mem_append_left _ hmem)

/-- A way takes a hop for each of its edges. -/
theorem SimpleWay.hops (h : SimpleWay out target seen x es) :
    Hops (Adjacent out target) es.length x (endOf target x es) := by
  induction h with
  | here seen x => exact .here x
  | hop edge unseen rest ih => exact .hop ⟨_, edge, rfl⟩ ih

/-- A simple way goes on to a node that is not on it. -/
theorem SimpleWay.snoc (h : SimpleWay out target seen x es) {e : ε}
    (he : e ∈ out (endOf target x es)) (hnew : target e ∉ seen ++ es.map target) :
    SimpleWay out target seen x (es ++ [e]) := by
  induction h with
  | here seen x =>
    refine .hop he (fun hmem => hnew ?_) (.here _ _)
    exact List.mem_append_left _ hmem
  | hop edge unseen rest ih =>
    refine .hop edge unseen (ih he ?_)
    rwa [List.append_assoc, List.singleton_append, ← List.map_cons]

/-- A way ends where its last edge leads. -/
@[simp] theorem endOf_snoc (x : α) (es : List ε) (e : ε) :
    endOf target x (es ++ [e]) = target e := by
  induction es generalizing x with
  | nil => rfl
  | cons a es ih => exact ih (target a)

variable [DecidableEq α]

/-- **The exploration lists the open ways**, up to its depth. By induction on that. -/
theorem mem_explore {n : ℕ} : es ∈ explore out target n seen x ↔
    OpenWay out target seen x es ∧ es.length ≤ n := by
  induction n generalizing seen x es with
  | zero =>
    -- no way is empty
    refine ⟨fun h => absurd h List.not_mem_nil, fun ⟨hway, hlength⟩ => ?_⟩
    exact absurd (List.eq_nil_of_length_eq_zero (Nat.le_zero.mp hlength)) hway.ne_nil
  | succ n ih =>
    unfold explore
    rw [List.mem_flatMap]
    constructor
    · rintro ⟨e, he, hes⟩
      rcases List.mem_cons.mp hes with rfl | hrest
      · exact ⟨.last he, Nat.succ_le_succ (Nat.zero_le n)⟩
      · split at hrest
        · cases hrest
        · next hnew =>
          obtain ⟨rest, hexplored, rfl⟩ := List.mem_map.mp hrest
          obtain ⟨hway, hlength⟩ := ih.mp hexplored
          exact ⟨.hop he hnew hway, Nat.succ_le_succ hlength⟩
    · rintro ⟨hway, hlength⟩
      cases hway with
      | last edge => exact ⟨_, edge, List.mem_cons_self⟩
      | hop edge unseen rest =>
        refine ⟨_, edge, List.mem_cons_of_mem _ ?_⟩
        rw [if_neg unseen]
        exact List.mem_map.mpr ⟨_, ih.mpr ⟨rest, Nat.le_of_succ_le_succ hlength⟩, rfl⟩

/-- No way is listed twice. -/
theorem nodup_explore (hout : ∀ x, (out x).Nodup) (n : ℕ) (seen : List α) (x : α) :
    (explore out target n seen x).Nodup := by
  induction n generalizing seen x with
  | zero => exact List.nodup_nil
  | succ n ih =>
    unfold explore
    rw [List.nodup_flatMap]
    constructor
    · intro e _
      rw [List.nodup_cons]
      split
      · exact ⟨List.not_mem_nil, List.nodup_nil⟩
      · refine ⟨fun hmem => ?_, (ih _ _).map (List.cons_injective)⟩
        obtain ⟨rest, hexplored, heq⟩ := List.mem_map.mp hmem
        exact (mem_explore.mp hexplored).1.ne_nil (List.cons.inj heq).2
    · -- the ways of two edges differ in their first hop
      refine (hout x).imp fun {e e'} hne => ?_
      refine List.disjoint_left.mpr ?_
      have hhead : ∀ d, ∀ es ∈ ([d] :: if target d ∈ seen then []
          else (explore out target n (seen ++ [target d]) (target d)).map (d :: ·)),
          es.head? = some d := by
        intro d es hes
        rcases List.mem_cons.mp hes with rfl | hrest
        · rfl
        · split at hrest
          · cases hrest
          · obtain ⟨rest, -, rfl⟩ := List.mem_map.mp hrest
            rfl
      intro es hes hes'
      exact hne (Option.some.inj ((hhead e es hes).symm.trans (hhead e' es hes')))

end Explore

/-! ## Where simple ways lead -/

section Distance

variable {out target} {x v : α}

/-- A shortest way is simple. -/
theorem exists_shortest_simple {k : ℕ} (h : Hops (Adjacent out target) k x v)
    (hmin : ∀ n, Hops (Adjacent out target) n x v → k ≤ n) :
    ∃ es, es.length = k ∧ endOf target x es = v ∧ SimpleWay out target [x] x es := by
  -- all that is on the way is within its length
  suffices hnear : ∃ es, es.length = k ∧ endOf target x es = v ∧ SimpleWay out target [x] x es ∧
      ∀ y ∈ [x] ++ es.map target, Within (Adjacent out target) k x y by
    obtain ⟨es, hlength, hend, hsimple, -⟩ := hnear
    exact ⟨es, hlength, hend, hsimple⟩
  induction k generalizing v with
  | zero =>
    cases h
    refine ⟨[], rfl, rfl, .here _ _, fun y hy => ?_⟩
    obtain rfl := List.mem_singleton.mp hy
    exact .refl 0 _
  | succ k ih =>
    obtain ⟨u, hu, e, he, rfl⟩ := h.exists_last
    obtain ⟨es, hlength, hend, hsimple, hnear⟩ := ih hu fun n hn =>
      Nat.le_of_succ_le_succ (hmin (n + 1) (hn.snoc ⟨e, he, rfl⟩))
    rw [← hend] at he
    refine ⟨es ++ [e], by rw [List.length_append, hlength, List.length_singleton],
      endOf_snoc _ _ _, hsimple.snoc he fun hmem => ?_, fun y hy => ?_⟩
    · obtain ⟨n, hn, hops⟩ := hnear _ hmem
      have := hmin n hops
      omega
    · rw [List.map_append, ← List.append_assoc] at hy
      rcases List.mem_append.mp hy with hy | hy
      · obtain ⟨n, hn, hops⟩ := hnear y hy
        exact ⟨n, Nat.le_succ_of_le hn, hops⟩
      · obtain rfl := List.mem_singleton.mp hy
        exact ⟨k + 1, le_rfl, h⟩

/-- What is within a number of hops is at the end of a shortest simple way. -/
theorem Within.exists_simple {n : ℕ} (h : Within (Adjacent out target) n x v) :
    ∃ es, es.length ≤ n ∧ SimpleWay out target [x] x es ∧ endOf target x es = v ∧
      ∀ m, Hops (Adjacent out target) m x v → es.length ≤ m := by
  classical
  obtain ⟨k, hk, hops⟩ := h
  have hex : ∃ m, Hops (Adjacent out target) m x v := ⟨k, hops⟩
  obtain ⟨es, hlength, hend, hsimple⟩ :=
    exists_shortest_simple (Nat.find_spec hex) fun m hm => Nat.find_min' hex hm
  refine ⟨es, ?_, hsimple, hend, fun m hm => ?_⟩
  · rw [hlength]
    exact Nat.le_trans (Nat.find_min' hex hops) hk
  · rw [hlength]
    exact Nat.find_min' hex hm

/-- **Within a number of hops, simple ways lead wherever ways do**, but back. -/
theorem exists_simple_iff {n : ℕ} :
    (∃ es, es ≠ [] ∧ es.length ≤ n ∧ SimpleWay out target [x] x es ∧ endOf target x es = v) ↔
      v ≠ x ∧ Within (Adjacent out target) n x v := by
  constructor
  · rintro ⟨es, hes, hlength, hsimple, rfl⟩
    exact ⟨fun heq => hsimple.endOf_notMem hes (List.mem_singleton.mpr heq),
      es.length, hlength, hsimple.hops⟩
  · rintro ⟨hne, hwithin⟩
    obtain ⟨es, hlength, hsimple, hend, -⟩ := hwithin.exists_simple
    refine ⟨es, ?_, hlength, hsimple, hend⟩
    rintro rfl
    exact hne hend.symm

end Distance

end IncidentRelay
