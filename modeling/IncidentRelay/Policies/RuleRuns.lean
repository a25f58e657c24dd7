import IncidentRelay.Lib.Run
import IncidentRelay.Policies.Requests

/-!
# Several editors of one policy

What a request reads before its transaction and the transaction are separate steps. A request
in flight carries the table it read and the requests that committed since. Over a run in
which every commit fits, the live rules keep the positions 1 to n, the rules that no request
moves keep their order, and no commit undoes what was set since its request read
(`rule_order_kept_iff`). Two creates that read the same list do not fit: they leave two
rules at one position (`two_creates_tie`).
-/

namespace IncidentRelay.Policies

structure Started where
  request : RuleRequest
  read : Rules
  since : List RuleRequest

structure World where
  rules : Rules
  flight : List Started

inductive RuleLabel where
  | start (request : RuleRequest)
  | finish (n : ℕ)
  deriving DecidableEq

namespace World

section

variable (kind : PolicyKind) (byName : List Id → List Id)

/-- The table behind the transaction of a request. -/
def committed (w : World) (s : Started) : Rules := commit kind byName s.read w.rules s.request

def started (w : World) (request : RuleRequest) : World :=
  { w with flight := w.flight ++ [{ request, read := w.rules, since := [] }] }

def finished (w : World) (n : ℕ) (s : Started) : World where
  rules := w.committed kind byName s
  flight := (w.flight.eraseIdx n).map fun other => { other with since := s.request :: other.since }

def next (w : World) : RuleLabel → World
  | .start request => if accepts kind byName w.rules request then w.started request else w
  | .finish n =>
    match w.flight[n]? with
    | none => w
    | some s => w.finished kind byName n s

/-- What the step does is kept. -/
def StepKept (w : World) : RuleLabel → Prop
  | .start _ => True
  | .finish n => ∀ s, w.flight[n]? = some s →
      CommitKept s.request s.since w.rules (w.committed kind byName s)

def StepFits (w : World) : RuleLabel → Prop
  | .start _ => True
  | .finish n => ∀ s, w.flight[n]? = some s → Fits kind byName s.since s.read w.rules s.request

instance decidableStepFits (w : World) : (l : RuleLabel) → Decidable (w.StepFits kind byName l)
  | .start _ => inferInstanceAs (Decidable True)
  | .finish n => inferInstanceAs (Decidable (∀ s ∈ w.flight[n]?,
      Fits kind byName s.since s.read w.rules s.request))

/-- What holds between the steps. -/
structure Orderly (w : World) : Prop where
  inOrder : InOrder w.rules
  read : ∀ s ∈ w.flight, InOrder s.read ∧ s.read.next ≤ w.rules.next ∧
    accepts kind byName s.read s.request = true

end

/-- No request of the run, and none that is in flight when it begins, moves the rule. -/
def Unmoved (w : World) (ls : List RuleLabel) (x : ℕ) : Prop :=
  (∀ s ∈ w.flight, s.request.moves x = false) ∧
    ∀ request, .start request ∈ ls → request.moves x = false

/-- What a run must keep: the positions, and the order of the rules it does not move. -/
structure OrderKept (w after : World) (ls : List RuleLabel) : Prop where
  numbered : InOrder after.rules
  rest : ∀ x ∈ liveIds w.rules ∩ liveIds after.rules, ∀ y ∈ liveIds w.rules ∩ liveIds after.rules,
    w.Unmoved ls x → w.Unmoved ls y →
      (place w.rules x < place w.rules y ↔ place after.rules x < place after.rules y)

variable {kind : PolicyKind} {byName : List Id → List Id} {w : World} {l : RuleLabel}

/-! ## One step -/

/-- A commit keeps what it owes exactly when it fits the rules it finds. -/
theorem step_kept_iff (h : w.Orderly kind byName) :
    w.StepKept kind byName l ↔ w.StepFits kind byName l := by
  cases l with
  | start request => exact Iff.rfl
  | finish n =>
    refine forall_congr' fun s => forall_congr' fun hs => ?_
    obtain ⟨hread, hnext, haccepts⟩ := h.read s (List.mem_of_getElem? hs)
    exact commit_kept_iff h.inOrder hread hnext haccepts

variable (kind byName) in
/-- A step does nothing, starts a request, or finishes one. -/
theorem next_cases (w : World) (l : RuleLabel) :
    w.next kind byName l = w ∨
    (∃ request, l = .start request ∧ accepts kind byName w.rules request = true ∧
      w.next kind byName l = w.started request) ∨
    ∃ n s, l = .finish n ∧ w.flight[n]? = some s ∧
      w.next kind byName l = w.finished kind byName n s := by
  cases l with
  | start request =>
    by_cases haccepts : accepts kind byName w.rules request = true
    · exact .inr (.inl ⟨request, rfl, haccepts, if_pos haccepts⟩)
    · exact .inl (if_neg haccepts)
  | finish n =>
    cases hs : w.flight[n]? with
    | none => exact .inl (by simp [next, hs])
    | some s => exact .inr (.inr ⟨n, s, rfl, hs, by simp [next, hs]⟩)

theorem orderly_next (h : w.Orderly kind byName) (hkept : w.StepKept kind byName l) :
    (w.next kind byName l).Orderly kind byName := by
  obtain heq | ⟨request, rfl, haccepts, heq⟩ | ⟨n, s, rfl, hs, heq⟩ :=
    w.next_cases kind byName l
  all_goals rw [heq]
  · exact h
  · refine ⟨h.inOrder, fun s hs => ?_⟩
    obtain hs | hs := List.mem_append.mp hs
    · exact h.read s hs
    · obtain rfl := List.mem_singleton.mp hs
      exact ⟨h.inOrder, le_refl _, haccepts⟩
  · refine ⟨(hkept s hs).numbered, fun other hother => ?_⟩
    obtain ⟨other, hmem, rfl⟩ := List.mem_map.mp hother
    obtain ⟨hread, hnext, haccepts⟩ := h.read other (List.mem_of_mem_eraseIdx hmem)
    exact ⟨hread, hnext.trans (next_le_commit kind byName s.read w.rules s.request), haccepts⟩

/-- Ids are never given back. -/
theorem next_le_next (w : World) (l : RuleLabel) :
    w.rules.next ≤ (w.next kind byName l).rules.next := by
  obtain heq | ⟨request, rfl, -, heq⟩ | ⟨n, s, rfl, -, heq⟩ :=
    w.next_cases kind byName l
  all_goals rw [heq]
  · exact le_refl _
  · exact next_le_commit kind byName s.read w.rules s.request

/-- A rule that is live after a commit was live before, unless it is new. -/
theorem live_of_next (h : w.Orderly kind byName) {x : ℕ} (hx : x < w.rules.next)
    (hlive : x ∈ liveIds (w.next kind byName l).rules) : x ∈ liveIds w.rules := by
  obtain heq | ⟨request, rfl, -, heq⟩ | ⟨n, s, rfl, hs, heq⟩ :=
    w.next_cases kind byName l
  all_goals rw [heq] at hlive
  · exact hlive
  · exact hlive
  · obtain ⟨hread, hnext, haccepts⟩ := h.read s (List.mem_of_getElem? hs)
    exact live_of_commit h.inOrder hread hnext haccepts hx hlive

/-- Two rules that nobody moves later keep their order in one commit. -/
theorem rest_next (hkept : w.StepKept kind byName l) {ls : List RuleLabel} {x y : ℕ}
    (hx : x ∈ liveIds w.rules ∩ liveIds (w.next kind byName l).rules)
    (hy : y ∈ liveIds w.rules ∩ liveIds (w.next kind byName l).rules)
    (hxu : w.Unmoved (l :: ls) x) (hyu : w.Unmoved (l :: ls) y) :
    place w.rules x < place w.rules y ↔
      place (w.next kind byName l).rules x < place (w.next kind byName l).rules y := by
  obtain heq | ⟨request, rfl, -, heq⟩ | ⟨n, s, rfl, hs, heq⟩ :=
    w.next_cases kind byName l
  all_goals rw [heq] at hx hy ⊢
  · exact Iff.rfl
  · have hmem := List.mem_of_getElem? hs
    exact (hkept s hs).rest x hx y hy (hxu.1 s hmem) (hyu.1 s hmem)

/-- What nobody moves later is not moved by the rest. -/
theorem unmoved_next {ls : List RuleLabel} {x : ℕ} (h : w.Unmoved (l :: ls) x) :
    (w.next kind byName l).Unmoved ls x := by
  obtain ⟨hflight, hlabels⟩ := h
  refine ⟨?_, fun request hrequest => hlabels request (List.mem_cons_of_mem _ hrequest)⟩
  obtain heq | ⟨request, rfl, -, heq⟩ | ⟨n, s, rfl, hs, heq⟩ :=
    w.next_cases kind byName l
  all_goals rw [heq]
  · exact hflight
  · intro s hs
    obtain hs | hs := List.mem_append.mp hs
    · exact hflight s hs
    · obtain rfl := List.mem_singleton.mp hs
      exact hlabels request List.mem_cons_self
  · intro other hother
    obtain ⟨other, hmem, rfl⟩ := List.mem_map.mp hother
    exact hflight other (List.mem_of_mem_eraseIdx hmem)

/-! ## Runs -/

/-- By induction on the run, so was a rule that is live at its end. -/
theorem live_of_run {ls : List RuleLabel} (h : w.Orderly kind byName)
    (hkept : Along (next kind byName) (StepKept kind byName) w ls) {x : ℕ} (hx : x < w.rules.next)
    (hlive : x ∈ liveIds (ls.foldl (next kind byName) w).rules) : x ∈ liveIds w.rules := by
  induction ls generalizing w with
  | nil => exact hlive
  | cons l ls ih =>
    obtain ⟨hstep, hkept⟩ := hkept
    have hmid := ih (orderly_next h hstep) hkept (hx.trans_le (next_le_next w l)) hlive
    exact live_of_next h hx hmid

/-- **What every step keeps, the run keeps.** -/
theorem orderKept_of_along {ls : List RuleLabel} (h : w.Orderly kind byName)
    (hkept : Along (next kind byName) (StepKept kind byName) w ls) :
    w.OrderKept (ls.foldl (next kind byName) w) ls := by
  induction ls generalizing w with
  | nil => exact ⟨h.inOrder, fun _ _ _ _ _ _ => Iff.rfl⟩
  | cons l ls ih =>
    obtain ⟨hstep, hkept⟩ := hkept
    have hnext := orderly_next h hstep
    obtain ⟨hnumbered, hrest⟩ := ih hnext hkept
    have hmid : ∀ x ∈ liveIds w.rules ∩ liveIds (ls.foldl (next kind byName) (w.next kind byName l)).rules,
        x ∈ liveIds (w.next kind byName l).rules := by
      intro x hx
      obtain ⟨hw, hlast⟩ := Finset.mem_inter.mp hx
      obtain ⟨r, hr⟩ := mem_liveIds.mp hw
      exact live_of_run hnext hkept ((lt_of_liveRule hr).trans_le (next_le_next w l)) hlast
    refine ⟨hnumbered, fun x hx y hy hxu hyu => ?_⟩
    have hxm := hmid x hx
    have hym := hmid y hy
    obtain ⟨hxw, hxl⟩ := Finset.mem_inter.mp hx
    obtain ⟨hyw, hyl⟩ := Finset.mem_inter.mp hy
    calc place w.rules x < place w.rules y
      _ ↔ place (w.next kind byName l).rules x < place (w.next kind byName l).rules y :=
        rest_next hstep (Finset.mem_inter.mpr ⟨hxw, hxm⟩) (Finset.mem_inter.mpr ⟨hyw, hym⟩) hxu hyu
      _ ↔ _ := hrest x (Finset.mem_inter.mpr ⟨hxm, hxl⟩) y (Finset.mem_inter.mpr ⟨hym, hyl⟩)
        (unmoved_next hxu) (unmoved_next hyu)

/-- The order is kept up to every state of the run, and no commit undoes what was set since its
request read. -/
def RunKept (kind : PolicyKind) (byName : List Id → List Id) (w : World) (ls : List RuleLabel) : Prop :=
  Along (next kind byName) (StepKept kind byName) w ls ∧
    ∀ done, done <+: ls → w.OrderKept (done.foldl (next kind byName) w) done

/-- **The order of the rules is kept over a run, if and only if every commit fits.** -/
theorem rule_order_kept_iff (h : w.Orderly kind byName) (ls : List RuleLabel) :
    RunKept kind byName w ls ↔ Along (next kind byName) (StepFits kind byName) w ls := by
  have hiff : Along (next kind byName) (StepKept kind byName) w ls ↔
      Along (next kind byName) (StepFits kind byName) w ls :=
    along_iff (I := Orderly kind byName) (fun _ _ h => step_kept_iff h)
      (fun _ _ h hfits => orderly_next h ((step_kept_iff h).mpr hfits)) h ls
  refine ⟨fun hkept => hiff.mp hkept.1, fun hfits => ⟨hiff.mpr hfits, ?_⟩⟩
  rintro done ⟨rest, rfl⟩
  exact orderKept_of_along h (along_append.mp (hiff.mpr hfits)).1

/-- No rule yet, and nobody at work. -/
def blank : World := { rules := .empty, flight := [] }

/-- A policy without rules is orderly. -/
theorem blank_orderly (kind : PolicyKind) (byName : List Id → List Id) : blank.Orderly kind byName where
  inOrder := by
    unfold InOrder
    have hids : liveIds blank.rules = ∅ := rfl
    rw [hids]
    exact numbered_of_injOn (by simp) (by simp)
  read := nofun

/-- Two editors open the same empty policy, and each adds a rule. -/
def twoCreates : List RuleLabel :=
  [.start (.create [] [1] none), .start (.create [] [1] none), .finish 0, .finish 0]

/-- **The second rule gets the position of the first.** -/
theorem two_creates_tie : ¬∀ (w : World) (ls : List RuleLabel),
    w.Orderly notificationPolicy id → RunKept notificationPolicy id w ls := by
  intro h
  obtain ⟨-, horder⟩ := h blank twoCreates (blank_orderly _ _)
  have hnumbered := (horder twoCreates (List.prefix_refl _)).numbered
  have hone : 1 ∈ liveIds (twoCreates.foldl (next notificationPolicy id) blank).rules := by decide
  have htwo : 2 ∈ liveIds (twoCreates.foldl (next notificationPolicy id) blank).rules := by decide
  exact absurd (hnumbered.injOn hone htwo (by decide)) (by decide)

/-- Three rules; one editor moves the last one to the front while another deletes the second. -/
def moveAndDelete : List RuleLabel :=
  [.start (.create [] [1] none), .finish 0, .start (.create [] [1] none), .finish 0,
    .start (.create [] [1] none), .finish 0, .start (.update 3 [] none (some 1)),
    .start (.delete 2), .finish 1, .finish 0]

/-- The deletion behind which the move is written leaves it what it has read. -/
theorem rule_order_kept_sample :
    place (moveAndDelete.foldl (next notificationPolicy id) blank).rules 3 = 1 ∧
      RunKept notificationPolicy id blank moveAndDelete :=
  ⟨by decide +kernel,
    (rule_order_kept_iff (blank_orderly _ _) moveAndDelete).mpr (by decide +kernel)⟩

end World

end IncidentRelay.Policies
