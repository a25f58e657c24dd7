import IncidentRelay.Lib.Bfs
import Mathlib.Data.List.Lex
import Mathlib.Data.List.Nodup
import Mathlib.Data.Nat.Find

/-!
# Depth-first search with a bound

A depth-first search that claims each node on its first visit and stops at a depth: what
lies behind a node is looked for once, with the levels that were left at its claim. A route
is the list of the numbers of the neighbours it takes, and routes come in the order of
lists: a route before its extensions, and these before those of the next neighbour.

 * `claim_of_neighbour`: the neighbours of a claimed node are claimed no later than along it.
 * `search_exact_iff`: the search gives each node in reach, once and along a shortest route,
   exactly when no shortest route with one more hop comes before the shortest routes to the
   node it leads to, and none leads back to the start.
-/

namespace IncidentRelay.DepthFirst

/-! ## The order of routes -/

theorem append_lt_append {r s t : List ℕ} : r ++ s < r ++ t ↔ s < t := by
  induction r with
  | nil => exact Iff.rfl
  | cons a r ih => rw [List.cons_append, List.cons_append, List.cons_lt_cons_self, ih]

theorem lt_snoc (r : List ℕ) (i : ℕ) : r < r ++ [i] := by
  have h : r ++ [] < r ++ [i] := append_lt_append.mpr (List.nil_lt_cons _ _)
  rwa [List.append_nil] at h

theorem append_cons_lt_snoc {r s : List ℕ} {i j : ℕ} (hij : i < j) : r ++ i :: s < r ++ [j] :=
  append_lt_append.mpr (List.cons_lt_cons_iff.mpr (.inl hij))

/-- Routes of one length keep their order with one more hop. -/
theorem snoc_lt_snoc {r s : List ℕ} (hlength : r.length = s.length) (h : r < s) (i : ℕ) :
    r ++ [i] < s ++ [i] := by
  induction r generalizing s with
  | nil =>
    rw [List.length_nil, eq_comm, List.length_eq_zero_iff] at hlength
    rw [hlength] at h
    exact absurd h (lt_irrefl _)
  | cons a r ih =>
    cases s with
    | nil => cases hlength
    | cons b s =>
      rw [List.cons_append, List.cons_append, List.cons_lt_cons_iff]
      rcases List.cons_lt_cons_iff.mp h with hhead | ⟨heq, htail⟩
      · exact .inl hhead
      · exact .inr ⟨heq, ih (Nat.succ.inj hlength) htail⟩

/-- Routes of one length are compared step by step. -/
theorem snoc_le_snoc {r s : List ℕ} (hlength : r.length = s.length) (h : r ≤ s) (i : ℕ) :
    r ++ [i] ≤ s ++ [i] := by
  rcases h.lt_or_eq with h | rfl
  · exact (snoc_lt_snoc hlength h i).le
  · exact le_refl _

/-- Induction along the order, among the lists up to a length. -/
theorem bounded_induction {P : List ℕ → Prop} (n : ℕ)
    (h : ∀ x, x.length ≤ n → (∀ y, y.length ≤ n → y < x → P y) → P x) (x : List ℕ)
    (hx : x.length ≤ n) : P x := by
  induction n generalizing P x with
  | zero =>
    rw [Nat.le_zero, List.length_eq_zero_iff] at hx
    rw [hx]
    exact h [] (le_refl _) fun y _ hy => absurd hy (List.not_lt_nil y)
  | succ n ih =>
    cases x with
    | nil => exact h [] (Nat.zero_le _) fun y _ hy => absurd hy (List.not_lt_nil y)
    | cons a x =>
      -- on the head, and for each head on the rest
      induction a using Nat.strong_induction_on generalizing x with
      | _ a iha =>
        refine ih (P := fun x => P (a :: x)) (fun x hx ihx => ?_) x (Nat.le_of_succ_le_succ hx)
        refine h (a :: x) (Nat.succ_le_succ hx) fun y hy hlt => ?_
        cases y with
        | nil => exact h [] (Nat.zero_le _) fun y _ hy => absurd hy (List.not_lt_nil y)
        | cons b y =>
          rcases List.cons_lt_cons_iff.mp hlt with hhead | ⟨rfl, htail⟩
          · exact iha b hhead y hy
          · exact ihx y (Nat.le_of_succ_le_succ hy) htail

/-! ## Routes -/

variable {α : Type*} (kids : α → List α)

/-- The route takes, from the start, the neighbour with each of its numbers in turn. -/
inductive Route (start : α) : List ℕ → α → Prop
  | here : Route start [] start
  | step {r : List ℕ} {u v : α} {i : ℕ} (h : Route start r u) (hkid : (kids u)[i]? = some v) :
    Route start (r ++ [i]) v

def Shortest (start : α) (r : List ℕ) (v : α) : Prop :=
  Route kids start r v ∧ ∀ s, Route kids start s v → r.length ≤ s.length

/-- A shortest route with one more hop, within the bound, does not come before the shortest
routes to the node it leads to, and none of them leads back. -/
structure InOrder (bound : ℕ) (start : α) : Prop where
  noReturn : ∀ r, Route kids start r start → r.length ≤ bound → r = []
  shortestFirst : ∀ r u i v, Shortest kids start r u → r.length < bound →
    (kids u)[i]? = some v → ∃ s, Shortest kids start s v ∧ s ≤ r ++ [i]

section Routes

variable {kids} {start u v : α} {r : List ℕ} {i : ℕ}

/-- A route has a last step. -/
theorem route_snoc (h : Route kids start (r ++ [i]) v) :
    ∃ u, Route kids start r u ∧ (kids u)[i]? = some v := by
  generalize hs : r ++ [i] = s at h
  cases h with
  | here => simp at hs
  | step h hkid =>
    obtain ⟨rfl, hi⟩ := List.append_inj' hs rfl
    obtain rfl := List.singleton_inj.mp hi
    exact ⟨_, h, hkid⟩

/-- The route without a step. -/
theorem route_nil (h : Route kids start [] v) : v = start := by
  generalize hs : ([] : List ℕ) = s at h
  cases h with
  | here => rfl
  | step h hkid => simp at hs

theorem shortest_here (start : α) : Shortest kids start [] start :=
  ⟨.here, fun _ _ => Nat.zero_le _⟩

/-- A shortest route is one to each node on its way. -/
theorem Shortest.parent (h : Shortest kids start (r ++ [i]) v) :
    ∃ u, Shortest kids start r u ∧ (kids u)[i]? = some v := by
  obtain ⟨u, hu, hkid⟩ := route_snoc h.1
  refine ⟨u, ⟨hu, fun s hs => ?_⟩, hkid⟩
  have := h.2 _ (.step hs hkid)
  simp only [List.length_append, List.length_singleton] at this
  omega

/-- A route of `n` hops is a way of `n` hops in the graph. -/
theorem hops_iff_route {n : ℕ} :
    Hops (fun u v => v ∈ kids u) n start v ↔ ∃ r, r.length = n ∧ Route kids start r v := by
  constructor
  -- hops are put behind a route one by one
  · intro h
    have hfrom : ∀ {n u v}, Hops (fun u v => v ∈ kids u) n u v → ∀ {r}, Route kids start r u →
        ∃ s, s.length = r.length + n ∧ Route kids start s v := by
      intro n u v h
      induction h with
      | here x => exact fun {r} hr => ⟨r, rfl, hr⟩
      | hop edge _ ih =>
        intro r hr
        obtain ⟨i, hi⟩ := List.getElem?_of_mem edge
        obtain ⟨s, hlength, hs⟩ := ih (.step hr hi)
        refine ⟨s, ?_, hs⟩
        simp only [List.length_append, List.length_singleton] at hlength
        omega
    obtain ⟨s, hlength, hs⟩ := hfrom h .here
    exact ⟨s, by simpa using hlength, hs⟩
  · rintro ⟨r, rfl, hr⟩
    induction hr with
    | here => exact .here _
    | step _ hkid ih =>
      rw [List.length_append]
      exact ih.snoc (List.mem_of_getElem? hkid)

end Routes

/-! ## The search -/

variable [DecidableEq α]

/-- The claims of a search: nodes with the route that claimed them, in order. -/
def search : ℕ → α → List ℕ → List (α × List ℕ) → List (α × List ℕ)
  | 0, _, _, claims => claims
  | left + 1, u, route, claims =>
    (kids u).zipIdx.foldl (fun claims k =>
      if k.1 ∈ claims.map Prod.fst then claims
      else search left k.1 (route ++ [k.2]) (claims ++ [(k.1, route ++ [k.2])])) claims

/-- What a search adds that goes on from a node along some of its neighbours, numbered from
`n` on. -/
structure Adds (bound : ℕ) (u : α) (route : List ℕ) (n : ℕ) (rest : List α)
    (claims new : List (α × List ℕ)) : Prop where
  under : ∀ c ∈ new, ∃ i s, c.2 = route ++ i :: s ∧ n ≤ i ∧ i < n + rest.length
  nodup : (claims.map Prod.fst).Nodup → ((claims ++ new).map Prod.fst).Nodup
  parent : ∀ c ∈ new, c.2.length ≤ bound ∧ ∃ p i, (p = (u, route) ∨ p ∈ new) ∧
    c.2 = p.2 ++ [i] ∧ (kids p.1)[i]? = some c.1
  served : ∀ j v, rest[j]? = some v → ∃ r, (v, r) ∈ claims ++ new ∧ r ≤ route ++ [n + j]
  closed : ∀ c ∈ new, c.2.length < bound → ∀ i v, (kids c.1)[i]? = some v →
    ∃ r, (v, r) ∈ claims ++ new ∧ r ≤ c.2 ++ [i]

section Search

variable {kids} {bound : ℕ} {u : α} {route : List ℕ} {n : ℕ}

omit [DecidableEq α] in
theorem adds_nothing (claims : List (α × List ℕ)) : Adds kids bound u route n [] claims [] where
  under := by simp
  nodup := by simp
  parent := by simp
  served := by simp
  closed := by simp

omit [DecidableEq α] in
/-- A neighbour that was claimed before. -/
theorem Adds.skip {v : α} {rest : List α} {claims new : List (α × List ℕ)}
    (h : Adds kids bound u route (n + 1) rest claims new)
    (hclaimed : ∃ r, (v, r) ∈ claims ∧ r ≤ route ++ [n]) :
    Adds kids bound u route n (v :: rest) claims new where
  under c hc := by
    obtain ⟨i, s, hroute, hfrom, hto⟩ := h.under c hc
    refine ⟨i, s, hroute, by omega, ?_⟩
    rw [List.length_cons]
    omega
  nodup := h.nodup
  parent := h.parent
  -- the neighbour is claimed already, and so are those behind it
  served j w hw := by
    cases j with
    | zero =>
      obtain rfl := Option.some.inj hw
      obtain ⟨r, hr, hle⟩ := hclaimed
      exact ⟨r, List.mem_append_left _ hr, hle⟩
    | succ j =>
      obtain ⟨r, hr, hle⟩ := h.served j w hw
      exact ⟨r, hr, by rwa [Nat.add_right_comm] at hle⟩
  closed := h.closed

omit [DecidableEq α] in
/-- A neighbour that is claimed, with what is behind it, before the next ones. -/
theorem Adds.visit {v : α} {rest behind : List α} {claims new new' : List (α × List ℕ)}
    (hkid : (kids u)[n]? = some v) (hfresh : v ∉ claims.map Prod.fst)
    (hbound : route.length < bound)
    (hbehind : route.length + 1 < bound → behind = kids v)
    (h : Adds kids bound v (route ++ [n]) 0 behind (claims ++ [(v, route ++ [n])]) new)
    (h' : Adds kids bound u route (n + 1) rest (claims ++ [(v, route ++ [n])] ++ new) new') :
    Adds kids bound u route n (v :: rest) claims ((v, route ++ [n]) :: new ++ new') := by
  -- what is claimed is the node, what is found from it, and what is found from its other
  -- neighbours
  have hall : claims ++ ((v, route ++ [n]) :: new ++ new') =
      claims ++ [(v, route ++ [n])] ++ new ++ new' := by simp
  have hmem : ∀ c, c ∈ (v, route ++ [n]) :: new ++ new' ↔
      c = (v, route ++ [n]) ∨ c ∈ new ∨ c ∈ new' := by simp
  refine ⟨fun c hc => ?_, fun hnodup => ?_, fun c hc => ?_, fun j w hw => ?_,
    fun c hc hlength i w hw => ?_⟩
  · rcases (hmem c).mp hc with rfl | hc | hc
    · exact ⟨n, [], rfl, le_refl n, by simp⟩
    · obtain ⟨i, s, hroute, -, -⟩ := h.under c hc
      exact ⟨n, i :: s, by simp [hroute], le_refl n, by simp⟩
    · obtain ⟨i, s, hroute, hfrom, hto⟩ := h'.under c hc
      refine ⟨i, s, hroute, by omega, ?_⟩
      rw [List.length_cons]
      omega
  -- each part is new to the claims in front of it
  · rw [hall]
    refine h'.nodup (h.nodup ?_)
    rw [List.map_append, List.nodup_append]
    refine ⟨hnodup, by simp, fun a ha b hb => ?_⟩
    rw [List.map_singleton, List.mem_singleton] at hb
    intro heq
    rw [heq, hb] at ha
    exact hfresh ha
  · rcases (hmem c).mp hc with rfl | hc | hc
    · refine ⟨?_, (u, route), n, .inl rfl, rfl, hkid⟩
      rw [List.length_append]
      exact hbound
    · obtain ⟨hlength, p, i, hp, hroute, hi⟩ := h.parent c hc
      refine ⟨hlength, p, i, .inr ((hmem p).mpr ?_), hroute, hi⟩
      exact hp.imp_right .inl
    · obtain ⟨hlength, p, i, hp, hroute, hi⟩ := h'.parent c hc
      refine ⟨hlength, p, i, hp.imp_right fun hp => (hmem p).mpr (.inr (.inr hp)), hroute, hi⟩
  · rw [hall]
    -- the node serves its own place, the later ones are served behind it
    cases j with
    | zero =>
      obtain rfl := Option.some.inj hw
      exact ⟨route ++ [n], by simp, le_refl _⟩
    | succ j =>
      obtain ⟨r, hr, hle⟩ := h'.served j w hw
      exact ⟨r, hr, by rwa [Nat.add_right_comm] at hle⟩
  · rw [hall]
    rcases (hmem c).mp hc with rfl | hc | hc
    · -- the node itself: it is served by the search behind it
      rw [List.length_append] at hlength
      rw [← hbehind hlength] at hw
      obtain ⟨r, hr, hle⟩ := h.served i w hw
      refine ⟨r, List.mem_append_left _ hr, ?_⟩
      rwa [Nat.zero_add] at hle
    · obtain ⟨r, hr, hle⟩ := h.closed c hc hlength i w hw
      exact ⟨r, List.mem_append_left _ hr, hle⟩
    · exact h'.closed c hc hlength i w hw

/-- **What a search adds.** -/
theorem search_adds (left : ℕ) (u : α) (route : List ℕ) (claims : List (α × List ℕ))
    (hbefore : ∀ c ∈ claims, c.2 ≤ route) :
    ∃ new, search kids left u route claims = claims ++ new ∧
      Adds kids (route.length + left) u route 0 (if left = 0 then [] else kids u) claims new := by
  induction left generalizing u route claims with
  | zero => exact ⟨[], by simp [search], adds_nothing claims⟩
  | succ left ih =>
    rw [if_neg (Nat.succ_ne_zero left)]
    unfold search
    -- along the neighbours from the number `n` on, when the claims come before it
    have hfrom : ∀ (rest : List α) (n : ℕ) (claims : List (α × List ℕ)),
        (∀ j v, rest[j]? = some v → (kids u)[n + j]? = some v) →
        (∀ c ∈ claims, c.2 < route ++ [n]) →
        ∃ new, (rest.zipIdx n).foldl (fun claims k =>
            if k.1 ∈ claims.map Prod.fst then claims
            else search kids left k.1 (route ++ [k.2]) (claims ++ [(k.1, route ++ [k.2])]))
            claims = claims ++ new ∧
          Adds kids (route.length + (left + 1)) u route n rest claims new := by
      intro rest
      induction rest with
      | nil => exact fun n claims _ _ => ⟨[], by simp, adds_nothing claims⟩
      | cons v rest ihrest =>
        intro n claims hkids hclaims
        have hrest : ∀ j w, rest[j]? = some w → (kids u)[n + 1 + j]? = some w := by
          intro j w hw
          have := hkids (j + 1) w hw
          rwa [show n + 1 + j = n + (j + 1) by omega]
        rw [List.zipIdx_cons, List.foldl_cons]
        dsimp only
        by_cases hvisited : v ∈ claims.map Prod.fst
        · rw [if_pos hvisited]
          obtain ⟨new, hnew, hadds⟩ := ihrest (n + 1) claims hrest
            fun c hc => (hclaims c hc).trans (append_cons_lt_snoc (Nat.lt_succ_self n))
          obtain ⟨⟨w, r⟩, hc, rfl⟩ := List.mem_map.mp hvisited
          exact ⟨new, hnew, hadds.skip ⟨r, hc, (hclaims _ hc).le⟩⟩
        · rw [if_neg hvisited]
          obtain ⟨new, hnew, hadds⟩ := ih v (route ++ [n]) (claims ++ [(v, route ++ [n])])
            fun c hc => by
              rcases List.mem_append.mp hc with hc | hc
              · exact (hclaims c hc).le
              · rw [List.mem_singleton.mp hc]
          obtain ⟨new', hnew', hadds'⟩ := ihrest (n + 1) (claims ++ [(v, route ++ [n])] ++ new) hrest
            fun c hc => by
              rcases List.mem_append.mp hc with hc | hc
              · rcases List.mem_append.mp hc with hc | hc
                · exact (hclaims c hc).trans (append_cons_lt_snoc (Nat.lt_succ_self n))
                · rw [List.mem_singleton.mp hc]
                  exact append_cons_lt_snoc (Nat.lt_succ_self n)
              · obtain ⟨i, s, hroute, -, -⟩ := hadds.under c hc
                rw [hroute, List.append_assoc]
                exact append_cons_lt_snoc (Nat.lt_succ_self n)
          rw [hnew, hnew']
          have hlimit : (route ++ [n]).length + left = route.length + (left + 1) := by
            simp only [List.length_append, List.length_singleton]
            omega
          rw [hlimit] at hadds
          refine ⟨(v, route ++ [n]) :: new ++ new', by simp, ?_⟩
          refine Adds.visit (hkids 0 v rfl) hvisited (by omega) (fun hmore => ?_) hadds hadds'
          rw [if_neg (by omega)]
    exact hfrom (kids u) 0 claims (fun j v hj => by rwa [Nat.zero_add])
      fun c hc => (hbefore c hc).trans_lt (lt_snoc route 0)

end Search

/-! ## When the search is exact -/

/-- The claims of a search from a start. -/
def claims (bound : ℕ) (start : α) : List (α × List ℕ) := search kids bound start [] []

/-- Each node in reach but the start, once, along a shortest route. -/
structure Exact (bound : ℕ) (start : α) (found : List (α × List ℕ)) : Prop where
  nodup : (found.map Prod.fst).Nodup
  sound : ∀ c ∈ found, c.1 ≠ start ∧ c.2.length ≤ bound ∧ Shortest kids start c.2 c.1
  complete : ∀ r v, Route kids start r v → r.length ≤ bound → v ≠ start →
    v ∈ found.map Prod.fst

section Exact

variable {kids} {bound : ℕ} {start : α}

/-- The node is the start or was claimed along the route. -/
def Has (kids : α → List α) (bound : ℕ) (start : α) (c : α × List ℕ) : Prop :=
  c = (start, []) ∨ c ∈ claims kids bound start

/-- Everything is claimed once. -/
theorem claims_nodup : ((claims kids bound start).map Prod.fst).Nodup := by
  obtain ⟨new, hnew, hadds⟩ := @search_adds α kids _ bound start [] [] (by simp)
  unfold claims
  rw [hnew]
  exact hadds.nodup List.nodup_nil

/-- A claim goes on from another one, or from the start. -/
theorem claim_parent {c : α × List ℕ} (hc : c ∈ claims kids bound start) :
    c.2.length ≤ bound ∧ ∃ p i, Has kids bound start p ∧ c.2 = p.2 ++ [i] ∧
      (kids p.1)[i]? = some c.1 := by
  obtain ⟨new, hnew, hadds⟩ := @search_adds α kids _ bound start [] [] (by simp)
  have hclaims : claims kids bound start = new := hnew
  rw [hclaims] at hc
  obtain ⟨hlength, p, i, hp, hroute, hkid⟩ := hadds.parent c hc
  refine ⟨by simpa using hlength, p, i, ?_, hroute, hkid⟩
  unfold Has
  rwa [hclaims]

/-- **The neighbours of a claimed node** are claimed no later than along it. -/
theorem claim_of_neighbour {c : α × List ℕ} (hc : Has kids bound start c)
    (hlength : c.2.length < bound) {i : ℕ} {v : α} (hkid : (kids c.1)[i]? = some v) :
    ∃ r, (v, r) ∈ claims kids bound start ∧ r ≤ c.2 ++ [i] := by
  obtain ⟨new, hnew, hadds⟩ := @search_adds α kids _ bound start [] [] (by simp)
  have hclaims : claims kids bound start = new := hnew
  unfold Has at hc
  rw [hclaims] at hc ⊢
  rcases hc with rfl | hc
  · rw [if_neg (by omega)] at hadds
    obtain ⟨r, hr, hle⟩ := hadds.served i v hkid
    refine ⟨r, hr, ?_⟩
    rwa [Nat.zero_add] at hle
  · exact hadds.closed c hc (by simpa using hlength) i v hkid

theorem eq_of_claimed {v : α} {r s : List ℕ} (hr : (v, r) ∈ claims kids bound start)
    (hs : (v, s) ∈ claims kids bound start) : r = s := by
  have h := List.inj_on_of_nodup_map claims_nodup hr hs rfl
  exact congrArg Prod.snd h

theorem route_of_has {c : α × List ℕ} (hc : Has kids bound start c) :
    Route kids start c.2 c.1 := by
  -- on the length of the route
  induction hlength : c.2.length using Nat.strong_induction_on generalizing c with
  | _ n ih =>
    rcases hc with rfl | hc
    · exact .here
    · obtain ⟨-, p, i, hp, hroute, hkid⟩ := claim_parent hc
      have hshorter : p.2.length < n := by
        rw [← hlength, hroute, List.length_append]
        exact Nat.lt_succ_self _
      rw [hroute]
      exact .step (ih _ hshorter hp rfl) hkid

/-- In order, each node is claimed along the first shortest route to it. -/
theorem claimed_first (h : InOrder kids bound start) (x : List ℕ) (hx : x.length ≤ bound) :
    (∀ v, Shortest kids start x v → ∃ r, Has kids bound start (v, r) ∧ r ≤ x) ∧
      ∀ v, Has kids bound start (v, x) → Shortest kids start x v := by
  -- by induction on the routes in the order of the search
  refine bounded_induction (P := fun x =>
    (∀ v, Shortest kids start x v → ∃ r, Has kids bound start (v, r) ∧ r ≤ x) ∧
      ∀ v, Has kids bound start (v, x) → Shortest kids start x v) bound
    (fun x hx ih => ⟨fun v hv => ?_, fun v hv => ?_⟩) x hx
  · -- a shortest route goes on from a node that was claimed before
    rcases List.eq_nil_or_concat x with rfl | ⟨r, i, rfl⟩
    · rw [route_nil hv.1]
      exact ⟨[], .inl rfl, le_refl _⟩
    · rw [List.concat_eq_append] at hx hv ih ⊢
      obtain ⟨u, hu, hkid⟩ := hv.parent
      have hlength : r.length < bound := by
        rw [List.length_append] at hx
        exact hx
      obtain ⟨s, hs, hle⟩ := (ih r hlength.le (lt_snoc r i)).1 u hu
      have hsbound : s.length ≤ bound := by
        rcases hs with hs | hs
        · rw [(Prod.mk.injEq ..).mp hs |>.2]
          exact Nat.zero_le _
        · exact (claim_parent hs).1
      have hshort := (ih s hsbound (hle.trans_lt (lt_snoc r i))).2 u hs
      have heq : s.length = r.length := le_antisymm (hshort.2 _ hu.1) (hu.2 _ hshort.1)
      obtain ⟨t, ht, htle⟩ := claim_of_neighbour hs (heq ▸ hlength) hkid
      exact ⟨t, .inr ht, htle.trans (snoc_le_snoc heq hle i)⟩
  · rcases hv with hv | hv
    · rw [Prod.mk.injEq] at hv
      rw [hv.1, hv.2]
      exact shortest_here start
    · -- a claim goes on from a shortest route, and no shortest one comes before it
      obtain ⟨-, p, i, hp, hroute, hkid⟩ := claim_parent hv
      dsimp only at hroute hkid
      have hlength : p.2.length < bound := by
        rw [hroute, List.length_append] at hx
        exact hx
      have hpshort := (ih p.2 hlength.le (hroute ▸ lt_snoc p.2 i)).2 p.1 hp
      obtain ⟨s, hs, hle⟩ := h.shortestFirst p.2 p.1 i v hpshort hlength hkid
      rw [← hroute] at hle
      rcases hle.lt_or_eq with hlt | rfl
      · have hslength : s.length ≤ bound := (hs.2 x (route_of_has (.inr hv))).trans hx
        obtain ⟨r, hr, hrle⟩ := (ih s hslength hlt).1 v hs
        rcases hr with hr | hr
        · -- the start is not claimed
          rw [Prod.mk.injEq] at hr
          have hstart := route_of_has (.inr hv)
          rw [hr.1] at hstart
          have hnil := h.noReturn x hstart hx
          rw [hnil] at hroute
          simp at hroute
        · rw [eq_of_claimed hr hv] at hrle
          exact absurd hlt (not_lt.mpr hrle)
      · exact hs

/-- **When the search is exact.** -/
theorem search_exact_iff :
    Exact kids bound start (claims kids bound start) ↔ InOrder kids bound start := by
  constructor
  · intro h
    -- a node in reach is the start or is claimed
    have hreached : ∀ r v, Route kids start r v → r.length ≤ bound →
        ∃ s, Has kids bound start (v, s) ∧ Shortest kids start s v := by
      intro r v hr hlength
      by_cases hstart : v = start
      · rw [hstart]
        exact ⟨[], .inl rfl, shortest_here start⟩
      · obtain ⟨c, hc, rfl⟩ := List.mem_map.mp (h.complete r v hr hlength hstart)
        exact ⟨c.2, .inr hc, (h.sound c hc).2.2⟩
    refine ⟨fun r hr hlength => ?_, fun r u i v hu hlength hkid => ?_⟩
    · by_contra hne
      rcases List.eq_nil_or_concat r with rfl | ⟨q, i, rfl⟩
      · exact hne rfl
      · rw [List.concat_eq_append] at hr hlength
        obtain ⟨u, hu, hkid⟩ := route_snoc hr
        rw [List.length_append] at hlength
        obtain ⟨s, hs, hshort⟩ := hreached q u hu (Nat.le_of_succ_le hlength)
        obtain ⟨t, ht, -⟩ := claim_of_neighbour hs ((hshort.2 q hu).trans_lt hlength) hkid
        exact (h.sound _ ht).1 rfl
    · -- the claims along a shortest route come no later than it
      have hfirst : ∀ n r u, r.length = n → Shortest kids start r u → r.length ≤ bound →
          ∃ s, Has kids bound start (u, s) ∧ Shortest kids start s u ∧ s ≤ r := by
        intro n
        induction n with
        | zero =>
          intro r u hn hu _
          rw [List.length_eq_zero_iff] at hn
          rw [hn] at hu ⊢
          rw [route_nil hu.1]
          exact ⟨[], .inl rfl, shortest_here start, le_refl _⟩
        | succ n ih =>
          intro r u hn hu hlength
          rcases List.eq_nil_or_concat r with rfl | ⟨q, i, rfl⟩
          · cases hn
          · rw [List.concat_eq_append] at hn hu hlength ⊢
            obtain ⟨w, hw, hkid⟩ := hu.parent
            rw [List.length_append] at hn hlength
            obtain ⟨s, hs, hshort, hle⟩ := ih q w (Nat.succ.inj hn) hw (Nat.le_of_succ_le hlength)
            have heq : s.length = q.length := le_antisymm (hshort.2 _ hw.1) (hw.2 _ hshort.1)
            obtain ⟨t, ht, htle⟩ := claim_of_neighbour hs (heq ▸ hlength) hkid
            exact ⟨t, .inr ht, (h.sound _ ht).2.2, htle.trans (snoc_le_snoc heq hle i)⟩
      obtain ⟨s, hs, hshort, hle⟩ := hfirst _ r u rfl hu hlength.le
      have heq : s.length = r.length := le_antisymm (hshort.2 _ hu.1) (hu.2 _ hshort.1)
      obtain ⟨t, ht, htle⟩ := claim_of_neighbour hs (heq ▸ hlength) hkid
      exact ⟨t, (h.sound _ ht).2.2, htle.trans (snoc_le_snoc heq hle i)⟩
  · intro h
    refine ⟨claims_nodup, fun c hc => ?_, fun r v hr hlength hstart => ?_⟩
    · have hlength := (claim_parent hc).1
      refine ⟨fun hstart => ?_, hlength, (claimed_first h c.2 hlength).2 c.1 (.inr hc)⟩
      have hroute := route_of_has (.inr hc)
      rw [hstart] at hroute
      have hnil := h.noReturn c.2 hroute hlength
      obtain ⟨-, p, i, -, hsnoc, -⟩ := claim_parent hc
      rw [hnil] at hsnoc
      simp at hsnoc
    · -- some route to the node is shortest
      obtain ⟨s, hs, hshort⟩ : ∃ s, Route kids start s v ∧
          ∀ t, Route kids start t v → s.length ≤ t.length := by
        classical
        have hex : ∃ n s, s.length = n ∧ Route kids start s v := ⟨_, r, rfl, hr⟩
        obtain ⟨s, hn, hs⟩ := Nat.find_spec hex
        exact ⟨s, hs, fun t ht => hn ▸ Nat.find_le ⟨t, rfl, ht⟩⟩
      obtain ⟨t, ht, -⟩ := (claimed_first h s ((hshort r hr).trans hlength)).1 v ⟨hs, hshort⟩
      rcases ht with ht | ht
      · exact absurd (congrArg Prod.fst ht) hstart
      · exact List.mem_map_of_mem ht

end Exact

end IncidentRelay.DepthFirst
