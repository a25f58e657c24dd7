import IncidentRelay.Lib.Run
import IncidentRelay.Orchestration.WebhookBounds

/-!
# Runs of the webhook workers

Every orderly step keeps the invariant (`next_inv`): one case for each statement of a worker,
and one for each thing that happens besides. So the bounds hold in every orderly run from an
untouched queue (`deliveries_bounded`). Without one of the three conditions they break
(`bounds_break`).
-/

namespace IncidentRelay.Orchestration.Worker

/-! ## One step -/

section Step

variable {c : Config} {s : System}

theorem closes_succeeded (now : ℕ) (e : Execution) : Closes e (e.succeeded now) :=
  ⟨rfl, rfl, rfl, rfl, .inl rfl⟩

theorem closes_cancelled (now : ℕ) (e : Execution) : Closes e (e.cancelled now) :=
  ⟨rfl, rfl, rfl, rfl, .inr rfl⟩

theorem closes_disabled (now : ℕ) (e : Execution) : Closes e (e.disabled now) :=
  ⟨rfl, rfl, rfl, rfl, .inr rfl⟩

/-- The result of a request is written under the token of the worker. -/
theorem Inv.mark (h : Inv c s) {w now : ℕ} {claim : Claim} {delivery : Delivery}
    (hclaim : (s.phase w).claim = some claim) (htoken : (s.phase w).token = some claim.token)
    (hconfirmed : (s.phase w).confirmed = none) : Inv c (s.mark c now claim delivery) := by
  cases delivery with
  | succeeded =>
    refine h.close (closes_succeeded now) fun v claim' hv e _ howned' => ?_
    have hne := h.spares_token htoken hconfirmed hv howned'
    cases howned : e.ownedBy claim with
    | false => rfl
    | true => exact absurd (Execution.ownedBy_iff.mp howned).2.2 hne
  | rejected retryable => exact h.markFailed hclaim htoken hconfirmed
  | refused retryable => exact h.markFailed hclaim htoken hconfirmed

/-- A claim in the hands of a worker, whatever its phase. -/
theorem PhaseInv.of_claim {p : Phase} (hp : PhaseInv c s p) {claim : Claim}
    (hclaim : p.claim = some claim) {q : Phase} (hq : q.claim = some claim)
    (htarget : q.target = none) (htested : q.tested = none)
    (hunsent : ∀ i t, q.unsent = some (i, t) → p.unsent = some (i, t))
    (hconfirmed : ∀ claim', q.confirmed = some claim' →
      ∃ e ∈ s.rows.rows, e.ownedBy claim' = true) : PhaseInv c s q where
  target i g h := by simp [htarget] at h
  room g h := by simp [htested] at h
  token t ht := by
    rw [Phase.token_of_claim hq] at ht
    exact hp.token t ((Phase.token_of_claim hclaim).trans ht)
  unsent i t h := hp.unsent i t (hunsent i t h)
  claim claim' h := by
    obtain rfl := Option.some.inj (hq.symm.trans h)
    exact hp.claim claim hclaim
  confirmed := hconfirmed

/-! ### One lemma for each phase of a worker -/

section Phases

variable {w now start : ℕ} {rest : List ℕ} {delivery : Delivery}

/-- The next candidate is looked up: the worker knows its row and its group. -/
theorem looping_inv (h : Inv c s) (hphase : s.phase w = .looping start rest) :
    Inv c (s.work c w now delivery) := by
  rw [System.work, hphase]
  cases rest with
  | nil => exact h.idle w
  | cons id rest =>
    cases hget : s.rows.get id with
    | none =>
      simp only [hget]
      exact h.looping w start rest
    | some e =>
      simp only [hget]
      obtain ⟨he, hid⟩ := IdTable.get_eq_some.mp hget
      -- the worker now stands before the capacity test, with the row and its group
      refine h.goto ⟨fun i g htarget => ?_, by simp [Phase.tested],
        by simp [Phase.token, Phase.claim], by simp [Phase.unsent, Phase.claim],
        by simp [Phase.claim], by simp [Phase.confirmed]⟩
        (by simp [Phase.token, Phase.claim]) (by simp [Phase.tested])
      obtain ⟨rfl, rfl⟩ := Prod.mk.inj (Option.some.inj htarget)
      refine ⟨hid ▸ s.rows.lt e he, fun f hf hfid => ?_⟩
      rw [s.rows.eq_of_id hf he (hfid.trans hid.symm)]

/-- The capacity test: here the order of the workers matters, nobody else may have tested the
tenant. -/
theorem counting_inv (h : Inv c s) {id group : ℕ} (hphase : s.phase w = .counting start rest id group)
    (hok : ∀ v, v ≠ w → (s.phase v).tested ≠ some group) : Inv c (s.work c w now delivery) := by
  have hw := h.phase w
  rw [System.work, hphase]
  rw [hphase] at hw
  dsimp only
  split_ifs with hroom
  · refine h.goto ⟨hw.target, fun g hg => ?_, by simp [Phase.token, Phase.claim],
      by simp [Phase.unsent, Phase.claim], by simp [Phase.claim], by simp [Phase.confirmed]⟩
      (by simp [Phase.token, Phase.claim]) fun v hv g hg => ?_
    · obtain rfl := Option.some.inj hg
      exact hroom
    · exact Option.some.inj hg ▸ hok v hv
  · exact h.looping w start rest

/-- Behind the test of the rate. -/
theorem rating_inv (h : Inv c s) {id group : ℕ} (hphase : s.phase w = .rating start rest id group) :
    Inv c (s.work c w now delivery) := by
  have hw := h.phase w
  rw [System.work, hphase]
  rw [hphase] at hw
  dsimp only
  split_ifs
  · refine h.goto ⟨hw.target, hw.room, hw.token, hw.unsent, hw.claim, hw.confirmed⟩
      (by simp [Phase.token, Phase.claim]) fun v hv g hg => ?_
    exact h.tested w v hv.symm g (by rw [hphase]; exact hg)
  · exact h.looping w start rest

/-- The claim takes the room that was tested, and a new token. -/
theorem claiming_inv (h : Inv c s) {id group : ℕ}
    (hphase : s.phase w = .claiming start rest id group) : Inv c (s.work c w now delivery) := by
  have hw := h.phase w
  rw [System.work, hphase]
  rw [hphase] at hw
  dsimp only
  split_ifs
  · have hmine : (s.phase w).tested = some group := by rw [hphase]; rfl
    have hloop := h.looping w start rest
    have hfree : ∀ v, ((s.goto w (.looping start rest)).phase v).tested ≠ some group := by
      intro v
      by_cases hv : v = w
      · subst hv
        simp [System.goto, Phase.tested]
      · simpa [System.goto, hv] using h.tested w v (Ne.symm hv) group hmine
    have hclaimed : Inv c ((s.goto w (.looping start rest)).claim start id) :=
      hloop.claim (hw.target id group rfl).2 (hw.room group rfl) hfree
    -- the new token is in nobody's hands and nothing was sent under it
    have hgoto : Inv c ((((s.goto w (.looping start rest)).claim start id)).goto w
        (.reading start rest id s.nextToken)) := by
      refine hclaimed.goto ⟨by simp [Phase.target], by simp [Phase.tested], fun t ht => ?_,
        fun i t hunsent hsent => ?_, by simp [Phase.claim], by simp [Phase.confirmed]⟩
        (fun v hv t ht hvt => ?_) (by simp [Phase.tested])
      · obtain rfl := Option.some.inj ht
        exact Nat.lt_succ_self _
      · obtain ⟨-, rfl⟩ := Prod.mk.inj (Option.some.inj hunsent)
        exact absurd (h.issued i _ hsent) (lt_irrefl _)
      · obtain rfl := Option.some.inj ht
        exact absurd ((hloop.phase v).token _ hvt) (lt_irrefl _)
    have hsame : (((s.goto w (.looping start rest)).claim start id)).goto w
        (.reading start rest id s.nextToken) =
        (s.claim start id).goto w (.reading start rest id s.nextToken) := by
      simp [System.goto, System.claim]
    exact hsame ▸ hgoto
  · exact h.looping w start rest

/-- The claimed row is read: the worker keeps its token and takes the attempts of the row. -/
theorem reading_inv (h : Inv c s) {id token : ℕ}
    (hphase : s.phase w = .reading start rest id token) : Inv c (s.work c w now delivery) := by
  have hw := h.phase w
  rw [System.work, hphase]
  rw [hphase] at hw
  dsimp only
  cases hget : (s.rows.get id).filter (·.claimToken = some token) with
  | none => exact h.idle w
  | some e =>
    obtain ⟨hsome, htoken⟩ := Option.filter_eq_some_iff.mp hget
    obtain ⟨he, hid⟩ := IdTable.get_eq_some.mp hsome
    refine h.carry ⟨by simp [Phase.target], by simp [Phase.tested], ?_, ?_, ?_,
      by simp [Phase.confirmed]⟩ (by rw [hphase]; rfl) rfl
    · exact hw.token
    · exact hw.unsent
    · intro claim hclaim f hf hfid _
      obtain rfl := Option.some.inj hclaim
      rw [s.rows.eq_of_id hf he (hfid.trans hid.symm)]
      exact ⟨rfl, rfl⟩

/-- The last look at the row confirms the claim. -/
theorem holding_inv (h : Inv c s) {claim : Claim} (hphase : s.phase w = .holding start rest claim) :
    Inv c (s.work c w now delivery) := by
  have hw := h.phase w
  rw [System.work, hphase]
  rw [hphase] at hw
  dsimp only
  split_ifs with howned
  · refine h.carry (hw.of_claim rfl rfl rfl rfl (fun _ _ hu => hu) fun claim' hc => ?_)
      (by rw [hphase]; rfl) rfl
    obtain rfl := Option.some.inj hc
    exact List.any_eq_true.mp howned
  · exact h.looping w start rest

/-- Behind the re-check the request goes out. -/
theorem checked_inv (h : Inv c s) {claim : Claim} (hphase : s.phase w = .checked start rest claim) :
    Inv c (s.work c w now delivery) := by
  have hw := h.phase w
  rw [System.work, hphase]
  rw [hphase] at hw
  dsimp only
  split_ifs
  · exact h.carry (hw.of_claim rfl rfl rfl rfl (fun _ _ hu => hu) hw.confirmed)
      (by rw [hphase]; rfl) rfl
  · exact h.carry (hw.of_claim rfl rfl rfl rfl (fun _ _ hu => hu)
      fun _ hc => by cases hc) (by rw [hphase]; rfl) rfl

/-- A row whose action is disabled is closed. -/
theorem disabling_inv (h : Inv c s) {claim : Claim}
    (hphase : s.phase w = .disabling start rest claim) : Inv c (s.work c w now delivery) := by
  rw [System.work, hphase]
  refine Inv.looping (h.close (closes_disabled now) fun v claim' hv e _ howned => ?_) w start rest
  have hne := h.spares_token (by rw [hphase]; rfl) (by rw [hphase]; rfl) hv howned
  simp [hne]

/-- A worker that has sent nothing under its claim holds the token of it. -/
theorem Phase.token_of_unsent {p : Phase} {id token : ℕ} (h : p.unsent = some (id, token)) :
    p.token = some token := by
  cases p <;> simp [Phase.unsent, Phase.claim] at h <;> simp [Phase.token, Phase.claim, h.2]

/-- The request takes the attempt that the claim has spared; no other worker has its token. -/
theorem sending_inv (h : Inv c s) {claim : Claim} (hphase : s.phase w = .sending start rest claim) :
    Inv c (s.work c w now delivery) := by
  have hw := h.phase w
  rw [System.work, hphase]
  rw [hphase] at hw
  dsimp only
  have hmark : Inv c (s.goto w (.marking start rest claim delivery)) :=
    h.carry (hw.of_claim rfl rfl rfl rfl (fun _ _ hu => by cases hu) fun _ hc => by cases hc)
      (by rw [hphase]; rfl) rfl
  split_ifs
  · obtain ⟨e, he, howned⟩ := hw.confirmed claim rfl
    refine hmark.send he howned (hw.unsent _ _ rfl) fun v hv => ?_
    by_cases hvw : v = w
    · subst hvw
      simp [System.goto, Phase.unsent] at hv
    · have hv' : (s.phase v).unsent = some (claim.id, claim.token) := by
        simpa [System.goto, hvw] using hv
      exact h.tokens w v (Ne.symm hvw) claim.token (by rw [hphase]; rfl) (Phase.token_of_unsent hv')
  · exact hmark

theorem marking_inv (h : Inv c s) {claim : Claim} {result : Delivery}
    (hphase : s.phase w = .marking start rest claim result) : Inv c (s.work c w now delivery) := by
  rw [System.work, hphase]
  exact Inv.looping (h.mark (by rw [hphase]; rfl) (by rw [hphase]; rfl) (by rw [hphase]; rfl)) w
    start rest

end Phases

/-- A statement of a worker keeps the invariant, whichever it is. -/
theorem work_inv (h : Inv c s) {w now : ℕ} {delivery : Delivery}
    (hok : Orderly c s (.work w now delivery)) : Inv c (s.work c w now delivery) := by
  cases hphase : s.phase w with
  | idle =>
    rw [System.work, hphase]
    exact h
  | selecting start limit =>
    rw [System.work, hphase]
    exact h.looping w start _
  | looping => exact looping_inv h hphase
  | counting _ _ _ group => exact counting_inv h hphase (hok group (by rw [hphase]; rfl))
  | rating => exact rating_inv h hphase
  | claiming => exact claiming_inv h hphase
  | reading => exact reading_inv h hphase
  | holding => exact holding_inv h hphase
  | checked => exact checked_inv h hphase
  | disabling => exact disabling_inv h hphase
  | sending => exact sending_inv h hphase
  | marking => exact marking_inv h hphase

/-- **Every orderly step keeps the invariant.** -/
theorem next_inv (h : Inv c s) {label : Label} (hok : Orderly c s label) :
    Inv c (s.next c label) := by
  -- what a worker is about to send is none of the rows that the condition is about
  have hspares : ∀ guard : Execution → Bool, (∀ e ∈ s.rows.rows, guard e = true →
      ∀ v claim, (s.phase v).confirmed = some claim → e.id ≠ claim.id) →
      ∀ v claim, (s.phase v).confirmed = some claim → ∀ e ∈ s.rows.rows,
        e.ownedBy claim = true → guard e = false := by
    intro guard hguard v claim hv e he howned
    cases hg : guard e with
    | false => rfl
    | true => exact absurd (Execution.ownedBy_iff.mp howned).1 (hguard e he hg v claim hv)
  cases label with
  | start w now limit =>
    rw [System.next]
    split_ifs with hidle
    · have hok := hok hidle
      have hrequeued : Inv c (s.requeueStale c now) := h.requeueStale (fun e he hs => (hok e he hs).1)
        (hspares _ fun e he hs => (hok e he hs).2)
      exact hrequeued.goto (.free rfl rfl rfl rfl rfl rfl) (fun _ _ _ ht => by cases ht)
        fun _ _ _ hg => by cases hg
    · exact h
  | work w now delivery => exact work_inv h hok
  | crash w => exact h.idle w
  | cancel scope now => exact h.close (closes_cancelled now) (hspares _ hok)
  | retry id now => exact h.retry id now
  | enqueue group action retryCount now => exact h.enqueue group action retryCount now
  | edit action enabled =>
    exact ⟨fun e he => let hr := h.row e he; ⟨hr.1, hr.2, hr.3, hr.4, hr.5, hr.6, hr.7⟩,
      fun w => let hp := h.phase w; ⟨hp.1, hp.2, hp.3, hp.4, hp.5, hp.6⟩,
      h.tokens, h.tested, h.known, h.issued, h.running, h.quiet⟩

end Step

/-! ## Runs -/

/-- A queue that no worker has touched yet. -/
structure Initial (s : System) : Prop where
  rows : ∀ e ∈ s.rows.rows, e.status = .pending ∧ e.attempts = 0 ∧ e.claimToken = none
  phase : ∀ w, s.phase w = .idle
  history : s.history = []

/-- An initial system has sent nothing. -/
theorem Initial.inv {c : Config} {s : System} (h : Initial s) : Inv c s where
  row e he := by
    obtain ⟨hstatus, hattempts, htoken⟩ := h.rows e he
    -- no attempt was made yet and nothing is in the history
    constructor <;> simp [hattempts, htoken, h.history, sendsSince]
  phase w := by
    rw [h.phase]
    exact .free rfl rfl rfl rfl rfl rfl
  tokens w v _ t ht := by
    rw [h.phase] at ht
    cases ht
  tested w v _ g hg := by
    rw [h.phase] at hg
    cases hg
  known event hevent := by simp [h.history] at hevent
  issued i t hsent := by simp [h.history] at hsent
  running hpos group := by
    have hzero : running group s.rows = 0 := by
      rw [running, List.countP_eq_zero]
      intro e he
      simp [(h.rows e he).1]
    omega
  quiet := by
    intro newer older id heq
    simp [h.history] at heq

/-- **The bounds hold in every orderly run.** From an untouched queue on, whatever the workers,
the operators and the cancellations do in whatever order, as long as the steps are orderly. -/
theorem deliveries_bounded {c : Config} {s : System} (h : Initial s) {labels : List Label}
    (hok : Along (System.next c) (Orderly c) s labels) :
    Bounded c s ∧ Along (System.next c) (fun s label => Bounded c (s.next c label)) s labels := by
  have hrun : ∀ {s : System}, Inv c s → ∀ {labels : List Label},
      Along (System.next c) (Orderly c) s labels →
        Along (System.next c) (fun s label => Bounded c (s.next c label)) s labels := by
    intro s hs labels hok
    induction labels generalizing s with
    | nil => trivial
    | cons label labels ih =>
      have hnext := next_inv hs hok.1
      exact ⟨hnext.bounded, ih hnext hok.2⟩
  exact ⟨(h.inv (c := c)).bounded, hrun h.inv hok⟩

theorem mark_phase (c : Config) (s : System) (now : ℕ) (claim : Claim) (delivery : Delivery) :
    (s.mark c now claim delivery).phase = s.phase := by
  cases delivery <;> rfl

/-- A worker moves no other. -/
theorem work_phase_of_ne (c : Config) (s : System) {v w : ℕ} (hv : v ≠ w) (now : ℕ)
    (delivery : Delivery) : (s.work c w now delivery).phase v = s.phase v := by
  have hgoto : ∀ (t : System) (p : Phase), t.phase = s.phase → (t.goto w p).phase v = s.phase v := by
    intro t p ht
    simp [System.goto, hv, ht]
  unfold System.work
  split
  case h_1 => rfl
  case h_13 => exact hgoto _ _ (mark_phase c s now _ _)
  all_goals first
    | exact hgoto _ _ rfl
    | (split <;> exact hgoto _ _ rfl)

/-- The worker of a label, where it has one. -/
def Label.worker : Label → Option ℕ
  | .start w _ _ | .work w _ _ | .crash w => some w
  | _ => none

/-- A step moves no worker but its own. -/
theorem next_phase_of_ne (c : Config) (s : System) {v : ℕ} {label : Label}
    (hv : ∀ w ∈ label.worker, v ≠ w) : (s.next c label).phase v = s.phase v := by
  cases label with
  | start w now limit =>
    have hne : v ≠ w := hv w rfl
    rw [System.next]
    split_ifs
    · simp [System.goto, System.requeueStale, hne]
    · rfl
  | work w now delivery => exact work_phase_of_ne c s (hv w rfl) now delivery
  | crash w =>
    have hne : v ≠ w := hv w rfl
    simp [System.next, System.goto, hne]
  | cancel | retry | enqueue | edit => rfl

/-- `Orderly` as it is tested where only the first workers are at work. -/
def OrderlyWithin (n : ℕ) (c : Config) (s : System) : Label → Prop
  | .start w now _ => s.phase w = .idle → ∀ e ∈ s.rows.rows, e.stale c now = true →
      e.attempts < 1 + e.retryCount ∧
        ∀ v < n, ∀ claim ∈ (s.phase v).confirmed, e.id ≠ claim.id
  | .cancel scope _ => ∀ e ∈ s.rows.rows, System.cancellable scope e = true →
      ∀ v < n, ∀ claim ∈ (s.phase v).confirmed, e.id ≠ claim.id
  | .work w _ _ => ∀ group ∈ (s.phase w).counted,
      ∀ v < n, v ≠ w → (s.phase v).tested ≠ some group
  | _ => True

instance (n : ℕ) (c : Config) (s : System) : (label : Label) → Decidable (OrderlyWithin n c s label)
  | .start w now _ => inferInstanceAs (Decidable (s.phase w = .idle → ∀ e ∈ s.rows.rows,
      e.stale c now = true → e.attempts < 1 + e.retryCount ∧
        ∀ v < n, ∀ claim ∈ (s.phase v).confirmed, e.id ≠ claim.id))
  | .cancel scope _ => inferInstanceAs (Decidable (∀ e ∈ s.rows.rows,
      System.cancellable scope e = true →
        ∀ v < n, ∀ claim ∈ (s.phase v).confirmed, e.id ≠ claim.id))
  | .work w _ _ => inferInstanceAs (Decidable (∀ group ∈ (s.phase w).counted,
      ∀ v < n, v ≠ w → (s.phase v).tested ≠ some group))
  | .crash _ | .retry _ _ | .enqueue _ _ _ _ | .edit _ _ => inferInstanceAs (Decidable True)

/-- The other workers stand between no two statements, so they are in nobody's way. -/
theorem orderly_of_within {n : ℕ} {c : Config} {s : System} {label : Label}
    (hidle : ∀ v, n ≤ v → s.phase v = .idle) (h : OrderlyWithin n c s label) :
    Orderly c s label := by
  -- only the workers below the number given have left their loop
  have hconfirmed : ∀ id, (∀ v < n, ∀ claim ∈ (s.phase v).confirmed, id ≠ claim.id) →
      ∀ v claim, (s.phase v).confirmed = some claim → id ≠ claim.id := by
    intro id hfirst v claim hv
    rcases Nat.lt_or_ge v n with hlt | hge
    · exact hfirst v hlt claim hv
    · rw [hidle v hge] at hv
      cases hv
  cases label with
  | start w now limit =>
    intro hw e he hstale
    exact ⟨(h hw e he hstale).1, hconfirmed e.id (h hw e he hstale).2⟩
  | work w now delivery =>
    intro group hgroup v hvw htested
    rcases Nat.lt_or_ge v n with hlt | hge
    · exact h group hgroup v hlt hvw htested
    · rw [hidle v hge] at htested
      cases htested
  | cancel scope now => exact fun e he hcancel => hconfirmed e.id (h e he hcancel)
  | crash | retry | enqueue | edit => trivial

theorem along_orderly {n : ℕ} {c : Config} {s : System} {labels : List Label}
    (hidle : ∀ v, n ≤ v → s.phase v = .idle) (hlabels : ∀ l ∈ labels, ∀ w ∈ l.worker, w < n)
    (h : Along (System.next c) (OrderlyWithin n c) s labels) :
    Along (System.next c) (Orderly c) s labels := by
  induction labels generalizing s with
  | nil => trivial
  | cons label labels ih =>
    refine ⟨orderly_of_within hidle h.1, ih (fun v hv => ?_) (fun l hl => ?_) h.2⟩
    · have hne : ∀ w ∈ label.worker, v ≠ w := by
        intro w hw
        have := hlabels label List.mem_cons_self w hw
        omega
      exact (next_phase_of_ne c s hne).trans (hidle v hv)
    · exact hlabels l (List.mem_cons_of_mem _ hl)

/-! ## Two runs of one claim, a late cancellation, two tests before a claim -/

def sampleConfig : Config where
  claimTtl := 300
  perGroupConcurrency := 1
  perGroupRate := 60
  retryBase := 30

def emptyQueue : System where
  rows := IdTable.empty
  enabled _ := true
  phase _ := .idle
  nextToken := 0
  history := []

theorem emptyQueue_initial : Initial emptyQueue :=
  ⟨fun _ he => absurd he List.not_mem_nil, fun _ => rfl, rfl⟩

/-- Two rows of two tenants: worker 1 starts while worker 0 holds its claim, and both send. -/
def sideBySide : List Label :=
  [.enqueue 1 1 2 0, .enqueue 2 1 2 0, .start 0 0 10] ++ List.replicate 6 (.work 0 0 .succeeded) ++
    .start 1 0 10 :: List.replicate 8 (.work 1 0 (.rejected true)) ++
    List.replicate 4 (.work 0 0 .succeeded) ++ List.replicate 4 (.work 1 0 (.rejected true))

theorem deliveries_bounded_sample :
    (sideBySide.foldl (System.next sampleConfig) emptyQueue).history =
        [.sent 2 1, .closed 1, .sent 1 0] ∧
      Bounded sampleConfig emptyQueue ∧
      Along (System.next sampleConfig)
        (fun s label => Bounded sampleConfig (s.next sampleConfig label)) emptyQueue sideBySide := by
  refine ⟨by decide +kernel, deliveries_bounded emptyQueue_initial ?_⟩
  exact along_orderly (n := 2) (fun _ _ => rfl) (by decide) (by decide +kernel)

def after (labels : List Label) : System := labels.foldl (System.next sampleConfig) emptyQueue

/-- A worker dies after a request that has no retry, and the next run sends it again. -/
def resent : System :=
  after (.enqueue 1 1 0 0 :: .start 0 0 10 :: List.replicate 9 (.work 0 0 .succeeded) ++
    .crash 0 :: .start 0 300 10 :: List.replicate 9 (.work 0 300 .succeeded))

/-- An execution is cancelled between the last look at it and the request. -/
def sentCancelled : System :=
  after (.enqueue 1 1 0 0 :: .start 0 0 10 :: List.replicate 8 (.work 0 0 .succeeded) ++
    [.cancel (fun _ => true) 0, .work 0 0 .succeeded])

/-- Worker 0 has tested the tenant for its second candidate when worker 1 claims the first one
again. -/
def crowded : System :=
  after (.enqueue 1 1 1 0 :: .enqueue 1 1 0 0 :: .start 0 0 10 ::
    List.replicate 13 (.work 0 0 (.rejected true)) ++
    .start 1 30 10 :: List.replicate 5 (.work 1 30 .succeeded) ++ [.work 0 0 .succeeded])

/-- **Each of the bounds is broken in a run from the empty queue.** -/
theorem bounds_break :
    ¬Bounded sampleConfig resent ∧ ¬Bounded sampleConfig sentCancelled ∧
      ¬Bounded sampleConfig crowded := by
  refine ⟨fun h => ?_, fun h => ?_, fun h => ?_⟩
  · have hmore : ¬∀ e ∈ resent.rows.rows, sendsSince e.id resent.history ≤ 1 + e.retryCount := by
      decide +kernel
    exact hmore h.sends
  · have hhistory : sentCancelled.history = [.sent 1 0] ++ .closed 1 :: [] := by decide +kernel
    exact h.quiet _ _ 1 hhistory 0 List.mem_cons_self
  · have hmore : ¬(running 1 crowded.rows : ℤ) ≤ sampleConfig.perGroupConcurrency := by
      decide +kernel
    exact hmore (h.running (by decide) 1)

end IncidentRelay.Orchestration.Worker
