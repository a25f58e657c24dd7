import IncidentRelay.Orchestration.WebhookWorkers

/-!
# Bounds of the webhook deliveries

Three things are to hold whatever the workers do: an execution is sent at most once more than
its retry count between two operator retries, it is not sent once it is closed, and a tenant
has no more running rows than its concurrency. They do in the runs of `Orderly` steps:

* no two workers stand between the capacity test and the claim for the same tenant,
* neither a cancellation nor a requeue hits a row that a worker has looked at once more and
  is about to send,
* a claim goes stale only while its row has an attempt left.

The invariant counts the requests against the attempts: the claim adds an attempt, and as
long as the worker with its token has sent nothing that attempt is spare (`RowInv.unsent`).
-/

namespace IncidentRelay.Orchestration.Worker

/-! ## The bounds -/

/-- The requests of an execution since an operator last put it back. -/
def sendsSince (id : ℕ) : List Event → ℕ
  | [] => 0
  | .sent i _ :: history => (if i = id then 1 else 0) + sendsSince id history
  | .closed _ :: history => sendsSince id history
  | .retried i :: history => if i = id then 0 else sendsSince id history

/-- Nothing is sent after it was closed. -/
def Quiet (history : List Event) : Prop :=
  ∀ newer older id, history = newer ++ .closed id :: older → ∀ token, Event.sent id token ∉ newer

structure Bounded (c : Config) (s : System) : Prop where
  sends : ∀ e ∈ s.rows.rows, sendsSince e.id s.history ≤ 1 + e.retryCount
  quiet : Quiet s.history
  running : 0 < c.perGroupConcurrency → ∀ group, (running group s.rows : ℤ) ≤ c.perGroupConcurrency

/-! ## What a phase knows -/

namespace Phase

/-- The candidate and its group. -/
def target : Phase → Option (ℕ × ℕ)
  | .counting _ _ id group | .rating _ _ id group | .claiming _ _ id group => some (id, group)
  | _ => none

/-- The tenant whose capacity is about to be tested. -/
def counted : Phase → Option ℕ
  | .counting _ _ _ group => some group
  | _ => none

/-- The tenant whose capacity was tested for a claim that is still to come. -/
def tested : Phase → Option ℕ
  | .rating _ _ _ group | .claiming _ _ _ group => some group
  | _ => none

def claim : Phase → Option Claim
  | .holding _ _ claim | .checked _ _ claim | .disabling _ _ claim | .sending _ _ claim
  | .marking _ _ claim _ => some claim
  | _ => none

def token : Phase → Option ℕ
  | .reading _ _ _ token => some token
  | p => p.claim.map (·.token)

/-- The execution and the token of a claim that has sent nothing. -/
def unsent : Phase → Option (ℕ × ℕ)
  | .reading _ _ id token => some (id, token)
  | .marking _ _ _ _ => none
  | p => p.claim.map fun claim => (claim.id, claim.token)

/-- The claim that was looked at once more and is about to be sent. -/
def confirmed : Phase → Option Claim
  | .checked _ _ claim | .sending _ _ claim => some claim
  | _ => none

end Phase

/-- The steps that keep the bounds. -/
def Orderly (c : Config) (s : System) : Label → Prop
  | .start w now _ => s.phase w = .idle → ∀ e ∈ s.rows.rows, e.stale c now = true →
      e.attempts < 1 + e.retryCount ∧ ∀ v claim, (s.phase v).confirmed = some claim → e.id ≠ claim.id
  | .cancel scope _ => ∀ e ∈ s.rows.rows, System.cancellable scope e = true →
      ∀ v claim, (s.phase v).confirmed = some claim → e.id ≠ claim.id
  | .work w _ _ => ∀ group, (s.phase w).counted = some group →
      ∀ v, v ≠ w → (s.phase v).tested ≠ some group
  | _ => True

/-! ## Invariant -/

structure RowInv (s : System) (e : Execution) : Prop where
  token : ∀ t ∈ e.claimToken, e.status = .running
  fresh : ∀ t ∈ e.claimToken, t < s.nextToken
  attempts : e.attempts ≤ 1 + e.retryCount
  pending : e.status = .pending → e.attempts ≤ e.retryCount
  sends : sendsSince e.id s.history ≤ e.attempts
  unsent : ∀ t ∈ e.claimToken, .sent e.id t ∉ s.history → sendsSince e.id s.history < e.attempts
  closed : .closed e.id ∈ s.history → e.status = .succeeded ∨ e.status = .cancelled

structure PhaseInv (c : Config) (s : System) (p : Phase) : Prop where
  target : ∀ id group, p.target = some (id, group) →
    id < s.rows.next ∧ ∀ e ∈ s.rows.rows, e.id = id → e.group = group
  room : ∀ group, p.tested = some group → roomLeft c group s.rows = true
  token : ∀ t, p.token = some t → t < s.nextToken
  unsent : ∀ id t, p.unsent = some (id, t) → .sent id t ∉ s.history
  claim : ∀ claim, p.claim = some claim → ∀ e ∈ s.rows.rows, e.id = claim.id →
    e.claimToken = some claim.token → e.attempts = claim.attempts ∧ e.retryCount = claim.retryCount
  confirmed : ∀ claim, p.confirmed = some claim → ∃ e ∈ s.rows.rows, e.ownedBy claim = true

def Event.id : Event → ℕ
  | .sent id _ | .closed id | .retried id => id

structure Inv (c : Config) (s : System) : Prop where
  row : ∀ e ∈ s.rows.rows, RowInv s e
  phase : ∀ w, PhaseInv c s (s.phase w)
  tokens : ∀ w v, w ≠ v → ∀ t, (s.phase w).token = some t → (s.phase v).token ≠ some t
  tested : ∀ w v, w ≠ v → ∀ group, (s.phase w).tested = some group →
    (s.phase v).tested ≠ some group
  known : ∀ event ∈ s.history, event.id < s.rows.next
  issued : ∀ id t, .sent id t ∈ s.history → t < s.nextToken
  running : 0 < c.perGroupConcurrency → ∀ group, (running group s.rows : ℤ) ≤ c.perGroupConcurrency
  quiet : Quiet s.history

theorem Inv.bounded {c : Config} {s : System} (h : Inv c s) : Bounded c s where
  sends e he := (h.row e he).sends.trans (h.row e he).attempts
  quiet := h.quiet
  running := h.running

/-! ## Histories -/

/-- What happens without a send or a retry adds no send. -/
theorem sendsSince_append {id : ℕ} {news history : List Event}
    (hsent : ∀ t, .sent id t ∉ news) (hretried : .retried id ∉ news) :
    sendsSince id (news ++ history) = sendsSince id history := by
  -- on the events in between: none of them is counted for the row
  induction news with
  | nil => rfl
  | cons event news ih =>
    have hrest := ih (fun t ht => hsent t (List.mem_cons_of_mem _ ht))
      fun hr => hretried (List.mem_cons_of_mem _ hr)
    cases event with
    | sent i t =>
      have hne : i ≠ id := by
        rintro rfl
        exact hsent t List.mem_cons_self
      rw [List.cons_append, sendsSince, if_neg hne, hrest, Nat.zero_add]
    | closed i => exact hrest
    -- a retry of another row does not start the count anew
    | retried i =>
      have hne : i ≠ id := by
        rintro rfl
        exact hretried List.mem_cons_self
      rw [List.cons_append, sendsSince, if_neg hne, hrest]

/-- Put back by an operator, an execution starts from no request. -/
theorem sendsSince_retried {id : ℕ} {news history : List Event} (hsent : ∀ t, .sent id t ∉ news)
    (hretried : .retried id ∈ news) : sendsSince id (news ++ history) = 0 := by
  -- the latest retry of the row starts the count, and nothing was sent behind it
  induction news with
  | nil => cases hretried
  | cons event news ih =>
    have hrest : ∀ t, .sent id t ∉ news := fun t ht => hsent t (List.mem_cons_of_mem _ ht)
    cases event with
    | sent i t =>
      have hne : i ≠ id := by
        rintro rfl
        exact hsent t List.mem_cons_self
      -- an event of another kind is not the retry
      have hmem : .retried id ∈ news := by simpa using hretried
      rw [List.cons_append, sendsSince, if_neg hne, ih hrest hmem]
    | closed i =>
      have hmem : .retried id ∈ news := by simpa using hretried
      exact ih hrest hmem
    | retried i =>
      rw [List.cons_append, sendsSince]
      split_ifs with hi
      · rfl
      · have hmem : .retried id ∈ news := by simpa [Ne.symm hi] using hretried
        exact ih hrest hmem

/-- A quiet history stays so without a send. -/
theorem Quiet.append {news history : List Event} (h : Quiet history)
    (hnews : ∀ id t, .sent id t ∉ news) : Quiet (news ++ history) := by
  intro newer older id heq t ht
  -- the closing is in the news, with nothing sent before it, or in the old history
  rcases List.append_eq_append_iff.mp heq with ⟨rest, rfl, hrest⟩ | ⟨rest, rfl, -⟩
  · rcases List.mem_append.mp ht with ht | ht
    · exact hnews id t ht
    · exact h rest older id hrest t ht
  · exact hnews id t (List.mem_append_left _ ht)

theorem Quiet.send {history : List Event} (h : Quiet history) {id token : ℕ}
    (hopen : .closed id ∉ history) : Quiet (.sent id token :: history) := by
  intro newer older i heq t ht
  cases newer with
  | nil => cases ht
  | cons event newer =>
    obtain ⟨rfl, rfl⟩ := List.cons.inj heq
    rcases List.mem_cons.mp ht with hsame | ht
    · obtain ⟨rfl, rfl⟩ := Event.sent.inj hsame
      exact hopen (List.mem_append_right _ List.mem_cons_self)
    · exact h newer older i rfl t ht

/-! ## Phases -/

section Goto

variable {c : Config} {s : System}

/-- A worker that knows nothing of a row. -/
theorem PhaseInv.free {p : Phase} (htarget : p.target = none) (htested : p.tested = none)
    (htoken : p.token = none) (hclaim : p.claim = none) (hconfirmed : p.confirmed = none)
    (hunsent : p.unsent = none) : PhaseInv c s p where
  target _ _ h := by simp [htarget] at h
  room _ h := by simp [htested] at h
  token _ h := by simp [htoken] at h
  unsent _ _ h := by simp [hunsent] at h
  claim _ h := by simp [hclaim] at h
  confirmed _ h := by simp [hconfirmed] at h

theorem phaseInv_looping (now : ℕ) (rest : List ℕ) : PhaseInv c s (.looping now rest) :=
  .free rfl rfl rfl rfl rfl rfl

/-- A worker may go on to what it can promise. -/
theorem Inv.goto (h : Inv c s) {w : ℕ} {p : Phase} (hp : PhaseInv c s p)
    (htokens : ∀ v, v ≠ w → ∀ t, p.token = some t → (s.phase v).token ≠ some t)
    (htested : ∀ v, v ≠ w → ∀ group, p.tested = some group → (s.phase v).tested ≠ some group) :
    Inv c (s.goto w p) := by
  have hself : (s.goto w p).phase w = p := by simp [System.goto]
  have hother : ∀ v, v ≠ w → (s.goto w p).phase v = s.phase v := by
    intro v hv
    simp [System.goto, hv]
  -- what is said of the rows and of the history does not look at the phases
  refine { h with row := fun e he => ?_, phase := fun v => ?_, tokens := ?_, tested := ?_ }
  · obtain ⟨h₁, h₂, h₃, h₄, h₅, h₆, h₇⟩ := h.row e he
    exact ⟨h₁, h₂, h₃, h₄, h₅, h₆, h₇⟩
  · have hv : PhaseInv c s ((s.goto w p).phase v) := by
      by_cases hvw : v = w
      · rw [hvw, hself]
        exact hp
      · rw [hother v hvw]
        exact h.phase v
    exact ⟨hv.target, hv.room, hv.token, hv.unsent, hv.claim, hv.confirmed⟩
  -- two workers hold different tokens, one of them perhaps the one that moves
  · intro v u hvu t hv hu
    by_cases hvw : v = w
    · rw [hvw, hself] at hv
      rw [hother u fun hu' => hvu (hvw.trans hu'.symm)] at hu
      exact htokens u (fun hu' => hvu (hvw.trans hu'.symm)) t hv hu
    · rw [hother v hvw] at hv
      by_cases huw : u = w
      · rw [huw, hself] at hu
        exact htokens v hvw t hu hv
      · rw [hother u huw] at hu
        exact h.tokens v u hvu t hv hu
  -- and they have tested different tenants
  · intro v u hvu group hv hu
    by_cases hvw : v = w
    · rw [hvw, hself] at hv
      rw [hother u fun hu' => hvu (hvw.trans hu'.symm)] at hu
      exact htested u (fun hu' => hvu (hvw.trans hu'.symm)) group hv hu
    · rw [hother v hvw] at hv
      by_cases huw : u = w
      · rw [huw, hself] at hu
        exact htested v hvw group hu hv
      · rw [hother u huw] at hu
        exact h.tested v u hvu group hv hu

/-- A worker goes on with the next candidate. -/
theorem Inv.looping (h : Inv c s) (w now : ℕ) (rest : List ℕ) :
    Inv c (s.goto w (.looping now rest)) :=
  h.goto (phaseInv_looping now rest) (fun _ _ _ ht => by cases ht) fun _ _ _ hg => by cases hg

theorem Inv.idle (h : Inv c s) (w : ℕ) : Inv c (s.goto w .idle) :=
  h.goto (.free rfl rfl rfl rfl rfl rfl) (fun _ _ _ ht => by cases ht) fun _ _ _ hg => by cases hg

/-- A worker that keeps its token keeps it apart from the others. -/
theorem Inv.carry (h : Inv c s) {w : ℕ} {p : Phase} (hp : PhaseInv c s p)
    (htoken : p.token = (s.phase w).token) (htested : p.tested = none) : Inv c (s.goto w p) :=
  h.goto hp (fun v hv t ht => h.tokens w v hv.symm t (htoken ▸ ht)) fun v hv group hg => by
    rw [htested] at hg
    cases hg

end Goto

/-! ## Rows that give up their claim -/

/-- The row after a statement that ends or takes back its claim. -/
structure Settles (news history : List Event) (e f : Execution) : Prop where
  group : f.group = e.group
  retryCount : f.retryCount = e.retryCount
  token : f.claimToken = none
  status : f.status ≠ .running
  attempts : f.attempts ≤ 1 + e.retryCount
  pending : f.status = .pending → f.attempts ≤ e.retryCount
  sends : sendsSince e.id (news ++ history) ≤ f.attempts
  closed : .closed e.id ∈ news ++ history → f.status = .succeeded ∨ f.status = .cancelled

/-- An update of rows of the kind of `Settles`, and the events it adds. -/
structure Settling (s t : System) (news : List Event) (guard : Execution → Bool)
    (set : Execution → Execution) (hset : ∀ e, (set e).id = e.id) : Prop where
  rows : t.rows = s.rows.update guard set hset
  phase : t.phase = s.phase
  nextToken : t.nextToken = s.nextToken
  history : t.history = news ++ s.history
  events : ∀ event ∈ news, ∃ e ∈ s.rows.rows, guard e = true ∧
    (event = .closed e.id ∨ event = .retried e.id)
  settles : ∀ e ∈ s.rows.rows, guard e = true → Settles news s.history e (set e)
  spares : ∀ w claim, (s.phase w).confirmed = some claim → ∀ e ∈ s.rows.rows,
    e.ownedBy claim = true → guard e = false

section Settle

variable {c : Config} {s t : System} {news : List Event} {guard : Execution → Bool}
  {set : Execution → Execution} {hset : ∀ e, (set e).id = e.id}

/-- The update adds no running row. -/
theorem Settling.running_le (h : Settling s t news guard set hset) (group : ℕ) :
    running group t.rows ≤ running group s.rows := by
  rw [h.rows]
  show (Table.update guard set s.rows.rows).countP _ ≤ _
  unfold Table.update
  rw [List.countP_map]
  refine List.countP_mono_left fun e he hrun => ?_
  cases hguard : guard e with
  | false => simpa [hguard] using hrun
  | true =>
    have hstatus := (h.settles e he hguard).status
    simp [hguard, hstatus] at hrun

theorem Settling.no_sent (h : Settling s t news guard set hset) (id token : ℕ) :
    .sent id token ∉ news := by
  intro hmem
  obtain ⟨e, -, -, hevent | hevent⟩ := h.events _ hmem <;> cases hevent

/-- Where fewer run there is more room. -/
theorem roomLeft_mono {group : ℕ} {rows rows' : Executions}
    (h : running group rows' ≤ running group rows) (hroom : roomLeft c group rows = true) :
    roomLeft c group rows' = true := by
  simp only [roomLeft, Bool.not_eq_true', Bool.and_eq_false_iff, decide_eq_false_iff_not] at hroom ⊢
  omega

/-- A row behind the update is one before it, settled or as it was. -/
theorem Settling.mem (h : Settling s t news guard set hset) {e : Execution}
    (he : e ∈ t.rows.rows) : ∃ e₀ ∈ s.rows.rows,
      (guard e₀ = true ∧ e = set e₀) ∨ (guard e₀ = false ∧ e = e₀) := by
  rw [h.rows] at he
  exact IdTable.mem_update.mp he

theorem Settling.next (h : Settling s t news guard set hset) : t.rows.next = s.rows.next := by
  rw [h.rows]
  rfl

/-- The news are about the rows that the update selects. -/
theorem Settling.other (h : Settling s t news guard set hset) {e : Execution}
    (he : e ∈ s.rows.rows) (hguard : guard e = false) {event : Event} (hevent : event ∈ news) :
    event.id ≠ e.id := by
  intro hid
  obtain ⟨e', he', hguard', rfl | rfl⟩ := h.events event hevent
  all_goals
    obtain rfl := s.rows.eq_of_id he' he hid
    rw [hguard] at hguard'
    cases hguard'

/-- A row that gave up its claim. -/
theorem Settling.settled_row (h : Settling s t news guard set hset) {e : Execution}
    (he : e ∈ s.rows.rows) (hguard : guard e = true) : RowInv t (set e) := by
  have hst := h.settles e he hguard
  have hnone : ∀ token ∈ (set e).claimToken, False := by
    intro token htoken
    rw [hst.token] at htoken
    cases htoken
  refine ⟨fun token ht => (hnone token ht).elim, fun token ht => (hnone token ht).elim, ?_, ?_, ?_,
    fun token ht => (hnone token ht).elim, ?_⟩
  · rw [hst.retryCount]
    exact hst.attempts
  · rw [hst.retryCount]
    exact hst.pending
  · rw [hset, h.history]
    exact hst.sends
  · rw [hset, h.history]
    exact hst.closed

/-- A row that the update leaves alone: the news are not about it, so its requests are counted
as before. -/
theorem Settling.spared_row (h : Settling s t news guard set hset) {e : Execution}
    (he : e ∈ s.rows.rows) (hguard : guard e = false) (hrow : RowInv s e) : RowInv t e := by
  have hsame : sendsSince e.id t.history = sendsSince e.id s.history := by
    rw [h.history]
    exact sendsSince_append (fun token => h.no_sent e.id token)
      fun hretried => h.other he hguard hretried rfl
  -- a row that is spared has its columns as before; only the history has grown
  refine ⟨hrow.token, ?_, hrow.attempts, hrow.pending, ?_, ?_, ?_⟩
  · rw [h.nextToken]
    exact hrow.fresh
  · rw [hsame]
    exact hrow.sends
  · intro token htoken hsent
    rw [hsame]
    refine hrow.unsent token htoken fun hold => hsent ?_
    rw [h.history]
    exact List.mem_append_right _ hold
  -- a row that is settled is another one
  · intro hclosed
    rw [h.history] at hclosed
    rcases List.mem_append.mp hclosed with hnew | hold
    · exact absurd rfl (h.other he hguard hnew)
    · exact hrow.closed hold

/-- What a worker knows stays true: no row of its claim that it has confirmed is settled. -/
theorem Settling.phase_inv (h : Settling s t news guard set hset) {w : ℕ}
    (hp : PhaseInv c s (s.phase w)) : PhaseInv c t (s.phase w) where
  target id group htarget := by
    obtain ⟨hlt, hgroup⟩ := hp.target id group htarget
    refine ⟨h.next ▸ hlt, fun e he hid => ?_⟩
    -- a settled row has no token, so no claim is on it
    obtain ⟨e₀, he₀, ⟨hguard, rfl⟩ | ⟨-, rfl⟩⟩ := h.mem he
    · rw [(h.settles e₀ he₀ hguard).group]
      exact hgroup e₀ he₀ ((hset e₀).symm.trans hid)
    · exact hgroup e he₀ hid
  room group hg := roomLeft_mono (h.running_le group) (hp.room group hg)
  token := by
    rw [h.nextToken]
    exact hp.token
  unsent id token hunsent hsent := by
    rw [h.history] at hsent
    -- settling closes rows and sends nothing
    rcases List.mem_append.mp hsent with hnew | hold
    · exact h.no_sent id token hnew
    · exact hp.unsent id token hunsent hold
  claim claim hclaim e he hid htoken := by
    obtain ⟨e₀, he₀, ⟨hguard, rfl⟩ | ⟨-, rfl⟩⟩ := h.mem he
    · rw [(h.settles e₀ he₀ hguard).token] at htoken
      cases htoken
    · exact hp.claim claim hclaim e he₀ hid htoken
  confirmed claim hclaim := by
    obtain ⟨e, he, howned⟩ := hp.confirmed claim hclaim
    refine ⟨e, ?_, howned⟩
    rw [h.rows]
    exact IdTable.untouched_mem hset he (h.spares w claim hclaim e he howned)

/-- The news are about rows that were there. -/
theorem Settling.known (h : Settling s t news guard set hset)
    (hold : ∀ event ∈ s.history, event.id < s.rows.next) :
    ∀ event ∈ t.history, event.id < t.rows.next := by
  intro event hevent
  rw [h.next]
  rw [h.history] at hevent
  rcases List.mem_append.mp hevent with hnew | hmem
  · obtain ⟨e, he, -, rfl | rfl⟩ := h.events event hnew
    · exact s.rows.lt e he
    · exact s.rows.lt e he
  · exact hold event hmem

/-- **Rows that give up their claim keep the invariant.** -/
theorem Inv.settle (h : Inv c s) (hs : Settling s t news guard set hset) : Inv c t where
  row e he := by
    -- by whether the row is settled
    obtain ⟨e₀, he₀, ⟨hguard, rfl⟩ | ⟨hguard, rfl⟩⟩ := hs.mem he
    · exact hs.settled_row he₀ hguard
    · exact hs.spared_row he₀ hguard (h.row e he₀)
  phase w := by
    rw [hs.phase]
    exact hs.phase_inv (h.phase w)
  tokens := by
    rw [hs.phase]
    exact h.tokens
  tested := by
    rw [hs.phase]
    exact h.tested
  known := hs.known h.known
  issued id token hsent := by
    rw [hs.history] at hsent
    rw [hs.nextToken]
    rcases List.mem_append.mp hsent with hnew | hold
    · exact absurd hnew (hs.no_sent id token)
    · exact h.issued id token hold
  running hpos group := by
    -- settling can only end runs
    have := hs.running_le group
    have := h.running hpos group
    omega
  quiet := by
    rw [hs.history]
    exact h.quiet.append hs.no_sent

end Settle

section Statements

variable {c : Config} {s : System}

theorem Execution.ownedBy_iff {claim : Claim} {e : Execution} : e.ownedBy claim = true ↔
    e.id = claim.id ∧ e.status = .running ∧ e.claimToken = some claim.token := by
  simp [Execution.ownedBy, and_assoc]

/-- A row that is closed keeps its attempts. -/
structure Closes (e f : Execution) : Prop where
  group : f.group = e.group
  retryCount : f.retryCount = e.retryCount
  attempts : f.attempts = e.attempts
  token : f.claimToken = none
  status : f.status = .succeeded ∨ f.status = .cancelled

/-- **Rows are closed**, but none that a worker has confirmed. -/
theorem Inv.close (h : Inv c s) {guard : Execution → Bool} {set : Execution → Execution}
    {hset : ∀ e, (set e).id = e.id} (hcloses : ∀ e, Closes e (set e))
    (hspares : ∀ w claim, (s.phase w).confirmed = some claim → ∀ e ∈ s.rows.rows,
      e.ownedBy claim = true → guard e = false) : Inv c (s.close guard set hset) := by
  suffices hs : Settling s (s.close guard set hset)
      ((s.rows.rows.filter guard).map (Event.closed ·.id)) guard set hset from h.settle hs
  refine ⟨rfl, rfl, rfl, rfl, ?_, ?_, hspares⟩
  -- the events are those of the rows that are closed
  · intro event hevent
    obtain ⟨e, he, rfl⟩ := List.mem_map.mp hevent
    obtain ⟨hrow, hguard⟩ := List.mem_filter.mp he
    exact ⟨e, hrow, hguard, .inl rfl⟩
  -- closing keeps the attempts, so the sends are still accounted for
  · intro e he hguard
    have hc := hcloses e
    have hrow := h.row e he
    refine ⟨hc.group, hc.retryCount, hc.token, ?_, ?_, ?_, ?_, fun _ => hc.status⟩
    · rcases hc.status with hst | hst <;> simp [hst]
    · rw [hc.attempts]
      exact hrow.attempts
    -- and a closed row is not pending
    · intro hp
      rcases hc.status with hst | hst <;> simp [hst] at hp
    · rw [hc.attempts, sendsSince_append]
      · exact hrow.sends
      · simp
      · simp

/-- The worker with the token has the only claim on a row under it. -/
theorem Inv.spares_token (h : Inv c s) {w token : ℕ} (htoken : (s.phase w).token = some token)
    (hconfirmed : (s.phase w).confirmed = none) {v : ℕ} {claim : Claim}
    (hv : (s.phase v).confirmed = some claim) {e : Execution} (howned : e.ownedBy claim = true) :
    e.claimToken ≠ some token := by
  intro heq
  have hclaim := (Execution.ownedBy_iff.mp howned).2.2
  have hsame : claim.token = token := Option.some.inj (hclaim.symm.trans heq)
  have hvtoken : (s.phase v).token = some claim.token := by
    cases hphase : s.phase v <;> simp [hphase, Phase.confirmed] at hv <;> subst hv <;>
      simp [Phase.token, Phase.claim]
  have hne : v ≠ w := by
    rintro rfl
    rw [hconfirmed] at hv
    cases hv
  exact h.tokens v w hne claim.token hvtoken (hsame ▸ htoken)

/-- Stale rows are put back, but none that a worker has confirmed. -/
theorem Inv.requeueStale (h : Inv c s) {now : ℕ}
    (hattempts : ∀ e ∈ s.rows.rows, e.stale c now = true → e.attempts < 1 + e.retryCount)
    (hspares : ∀ w claim, (s.phase w).confirmed = some claim → ∀ e ∈ s.rows.rows,
      e.ownedBy claim = true → e.stale c now = false) : Inv c (s.requeueStale c now) := by
  suffices hs : Settling s (s.requeueStale c now) [] (Execution.stale c now)
      (Execution.requeued now) (fun _ => rfl) from h.settle hs
  refine ⟨rfl, rfl, rfl, rfl, by simp, ?_, hspares⟩
  intro e he hstale
  have hrow := h.row e he
  have hrunning : e.status = .running := by
    simp only [Execution.stale, Bool.and_eq_true, decide_eq_true_eq] at hstale
    exact hstale.1
  refine ⟨rfl, rfl, rfl, by simp [Execution.requeued], hrow.attempts, fun _ => ?_, hrow.sends, ?_⟩
  · have := hattempts e he hstale
    show e.attempts ≤ e.retryCount
    omega
  · intro hclosed
    -- a running row is not closed
    rcases hrow.closed hclosed with hst | hst <;> simp [hrunning] at hst

/-- A row that failed waits, or is closed. -/
theorem Inv.markFailed (h : Inv c s) {w now : ℕ} {claim : Claim} {retryable : Bool}
    (hclaim : (s.phase w).claim = some claim) (htoken : (s.phase w).token = some claim.token)
    (hconfirmed : (s.phase w).confirmed = none) : Inv c (s.markFailed c now claim retryable) := by
  suffices hs : Settling s (s.markFailed c now claim retryable) [] (Execution.ownedBy claim)
      (Execution.failed c now claim retryable) (System.id_failed c now claim retryable) from
    h.settle hs
  refine ⟨rfl, rfl, rfl, rfl, by simp, ?_, ?_⟩
  · intro e he howned
    obtain ⟨hid, hrunning, hetoken⟩ := Execution.ownedBy_iff.mp howned
    obtain ⟨hattempts, hretry⟩ := (h.phase w).claim claim hclaim e he hid hetoken
    have hrow := h.row e he
    -- the row runs, so it was not closed before
    have hopen : .closed e.id ∉ s.history := by
      intro hclosed
      rcases hrow.closed hclosed with hst | hst <;> simp [hrunning] at hst
    unfold Execution.failed
    split_ifs with hagain
    -- it waits for another attempt, and the attempts leave room for it
    · refine ⟨rfl, rfl, rfl, by simp, hrow.attempts, fun _ => ?_, hrow.sends,
        fun hclosed => absurd hclosed hopen⟩
      simp only [Bool.and_eq_true, decide_eq_true_eq] at hagain
      show e.attempts ≤ e.retryCount
      omega
    -- or there are no more attempts
    · exact ⟨rfl, rfl, rfl, by simp, hrow.attempts, by simp, hrow.sends,
        fun hclosed => absurd hclosed hopen⟩
  -- the row of a worker with a confirmed claim has that worker's token
  · intro v claim' hv e _ howned'
    have := h.spares_token htoken hconfirmed hv howned'
    cases howned : e.ownedBy claim with
    | false => rfl
    | true => exact absurd (Execution.ownedBy_iff.mp howned).2.2 this

/-- A retry starts the count of a row anew. -/
theorem Inv.retry (h : Inv c s) (id now : ℕ) : Inv c (s.retry id now) := by
  suffices hs : Settling s (s.retry id now)
      ((s.rows.rows.filter fun e => e.id = id && e.status = .failed).map (Event.retried ·.id))
      (fun e => e.id = id && e.status = .failed) (Execution.retried now) (fun _ => rfl) from
    h.settle hs
  refine ⟨rfl, rfl, rfl, rfl, ?_, ?_, ?_⟩
  · intro event hevent
    obtain ⟨e, he, rfl⟩ := List.mem_map.mp hevent
    obtain ⟨hrow, hguard⟩ := List.mem_filter.mp he
    exact ⟨e, hrow, hguard, .inr rfl⟩
  · intro e he hguard
    -- only a row that failed is retried
    have hfailed : e.status = .failed := by
      simp only [Bool.and_eq_true, decide_eq_true_eq] at hguard
      exact hguard.2
    refine ⟨rfl, rfl, rfl, by simp [Execution.retried], Nat.zero_le _, fun _ => Nat.zero_le _, ?_, ?_⟩
    -- the retry is in the history, so the sends are counted from here
    · have hmem : Event.retried e.id ∈ (s.rows.rows.filter fun e => e.id = id &&
          e.status = .failed).map (Event.retried ·.id) :=
        List.mem_map_of_mem (List.mem_filter.mpr ⟨he, hguard⟩)
      rw [sendsSince_retried (by simp) hmem]
      exact Nat.zero_le _
    -- a row that was closed has not failed
    · intro hclosed
      have hold : .closed e.id ∈ s.history := by simpa using hclosed
      rcases (h.row e he).closed hold with hst | hst <;> simp [hfailed] at hst
  -- and no row that runs is retried
  · intro w claim hconfirmed e _ howned
    have := (Execution.ownedBy_iff.mp howned).2.1
    simp [this]

/-! ## The claim -/

/-- A count after a rewrite. -/
theorem countP_map_le {α : Type*} {p q : α → Bool} {f : α → α} {l : List α}
    (h : ∀ a ∈ l, p (f a) = true → p a = true ∨ q a = true) :
    (l.map f).countP p ≤ l.countP p + l.countP q := by
  induction l with
  | nil => exact Nat.zero_le _
  | cons a l ih =>
    have hrest := ih fun b hb => h b (List.mem_cons_of_mem _ hb)
    have hhead := h a List.mem_cons_self
    simp only [List.map_cons, List.countP_cons]
    rcases hp : p (f a) with _ | _
    · simp only [Bool.false_eq_true, if_false]
      omega
    · rcases hhead hp with hpa | hqa
      · simp only [hpa, if_true]
        omega
      · simp only [hqa, if_true]
        omega

/-- A claim adds one running row, in the group of the row. -/
theorem running_claim_le {now id group : ℕ}
    (hgroup : ∀ e ∈ s.rows.rows, e.id = id → e.group = group) (g : ℕ) :
    running g (s.claim now id).rows ≤ running g s.rows + if g = group then 1 else 0 := by
  show (Table.update _ _ s.rows.rows).countP _ ≤ _
  -- a claim starts the row of that id, if it is due
  have hle : (Table.update (fun e => e.id = id && e.due now)
      (Execution.claimed now s.nextToken) s.rows.rows).countP
        (fun e => e.group = g && e.status = .running) ≤
      running g s.rows + s.rows.rows.countP (fun e => e.id = id && e.group = g) := by
    refine countP_map_le fun e _ hrun => ?_
    by_cases hguard : (e.id = id && e.due now) = true
    · rw [if_pos hguard] at hrun
      simp only [Bool.and_eq_true, decide_eq_true_eq] at hguard
      simp only [Bool.and_eq_true, decide_eq_true_eq] at hrun
      have hg : e.group = g := hrun.1
      exact .inr (by simp [hguard.1, hg])
    · rw [if_neg hguard] at hrun
      exact .inl hrun
  refine hle.trans (Nat.add_le_add_left ?_ _)
  split_ifs with hg
  · -- at most one row has the id
    rw [List.countP_eq_length_filter]
    refine Table.filter_length_le_one s.rows.nodup.of_map fun e he f hf hpe hpf => ?_
    simp only [Bool.and_eq_true, decide_eq_true_eq] at hpe hpf
    exact s.rows.eq_of_id he hf (hpe.1.trans hpf.1.symm)
  · rw [Nat.le_zero, List.countP_eq_zero]
    intro e he hp
    simp only [Bool.and_eq_true, decide_eq_true_eq] at hp
    exact hg (hp.2.symm.trans (hgroup e he hp.1))

theorem Phase.token_of_claim {p : Phase} {claim : Claim} (h : p.claim = some claim) :
    p.token = some claim.token := by
  cases p <;> simp [Phase.claim] at h <;> subst h <;> rfl

/-- **A row is claimed** with a token of its own, where there is room and nobody else has tested
it. -/
theorem Inv.claim (h : Inv c s) {now id group : ℕ}
    (hgroup : ∀ e ∈ s.rows.rows, e.id = id → e.group = group)
    (hroom : roomLeft c group s.rows = true) (hfree : ∀ v, (s.phase v).tested ≠ some group) :
    Inv c (s.claim now id) := by
  have hmem : ∀ {e}, e ∈ (s.claim now id).rows.rows → ∃ e₀ ∈ s.rows.rows,
      (e₀.id = id ∧ e₀.status = .pending ∧ e = e₀.claimed now s.nextToken) ∨ e = e₀ := by
    intro e he
    obtain ⟨e₀, he₀, ⟨hguard, rfl⟩ | ⟨-, rfl⟩⟩ :=
      (@IdTable.mem_update _ _ s.rows (fun e => e.id = id && e.due now)
        (Execution.claimed now s.nextToken) (fun _ => rfl) e).mp he
    · simp only [Execution.due, Bool.and_eq_true, decide_eq_true_eq] at hguard
      exact ⟨e₀, he₀, .inl ⟨hguard.1, hguard.2.1, rfl⟩⟩
    · exact ⟨e, he₀, .inr rfl⟩
  have hrunning := fun g => @running_claim_le s now id group hgroup g
  constructor
  case row =>
    intro e he
    -- the row that is claimed has a new token and one attempt more, which is spare; the others are
    -- as before
    obtain ⟨e₀, he₀, ⟨-, hpending, rfl⟩ | rfl⟩ := hmem he
    · have hrow := h.row e₀ he₀
      have hretry := hrow.pending hpending
      have hsends := hrow.sends
      refine ⟨fun _ _ => rfl, ?_, ?_, by simp [Execution.claimed], ?_, ?_, ?_⟩
      · intro t ht
        obtain rfl : s.nextToken = t := by simpa [Execution.claimed] using ht
        exact Nat.lt_succ_self s.nextToken
      · show e₀.attempts + 1 ≤ 1 + e₀.retryCount
        omega
      · show sendsSince e₀.id s.history ≤ e₀.attempts + 1
        omega
      · -- the new attempt is spare
        intro t _ _
        show sendsSince e₀.id s.history < e₀.attempts + 1
        omega
      · intro hclosed
        rcases hrow.closed hclosed with hst | hst <;> simp [hpending] at hst
    · have hrow := h.row e he₀
      exact ⟨hrow.token, fun t ht => (hrow.fresh t ht).trans (Nat.lt_succ_self _), hrow.attempts,
        hrow.pending, hrow.sends, hrow.unsent, hrow.closed⟩
  case phase =>
    intro w
    have hp := h.phase w
    constructor
    case target =>
      intro i g htarget
      obtain ⟨hlt, hg⟩ := hp.target i g htarget
      refine ⟨hlt, fun e he hid => ?_⟩
      obtain ⟨e₀, he₀, ⟨-, -, rfl⟩ | rfl⟩ := hmem he
      · exact hg e₀ he₀ hid
      · exact hg e he₀ hid
    -- a worker that has tested a tenant has room in it, and it is another tenant
    case room =>
      intro g hg
      refine roomLeft_mono ?_ (hp.room g hg)
      have hne : g ≠ group := by
        rintro rfl
        exact hfree w hg
      simpa [hne] using hrunning g
    case token => exact fun t ht => (hp.token t ht).trans (Nat.lt_succ_self _)
    case unsent => exact hp.unsent
    case claim =>
      intro claim hclaim e he hid htoken
      obtain ⟨e₀, he₀, ⟨-, -, rfl⟩ | rfl⟩ := hmem he
      · -- the new token is in nobody's hands yet
        have hlt := hp.token claim.token (Phase.token_of_claim hclaim)
        have heq : s.nextToken = claim.token := by simpa [Execution.claimed] using htoken
        omega
      · exact hp.claim claim hclaim e he₀ hid htoken
    -- a confirmed claim is on a row that runs, so it is not claimed again
    case confirmed =>
      intro claim hclaim
      obtain ⟨e, he, howned⟩ := hp.confirmed claim hclaim
      have hrun := (Execution.ownedBy_iff.mp howned).2.1
      have hkeep := @IdTable.untouched_mem _ _ s.rows (fun e => e.id = id && e.due now)
        (Execution.claimed now s.nextToken) (fun _ => rfl) e he (by simp [Execution.due, hrun])
      exact ⟨e, hkeep, howned⟩
  case tokens => exact h.tokens
  case tested => exact h.tested
  case known => exact h.known
  case issued => exact fun i t hsent => (h.issued i t hsent).trans (Nat.lt_succ_self _)
  case running =>
    intro hpos g
    have hg := hrunning g
    have hold := h.running hpos g
    split_ifs at hg with heq
    · -- the tenant of the row had room for one more
      subst heq
      simp only [roomLeft, Bool.not_eq_true', Bool.and_eq_false_iff, decide_eq_false_iff_not] at hroom
      omega
    · omega
  case quiet => exact h.quiet

/-! ## The request -/

/-- **A request takes the spare attempt of its claim.** -/
theorem Inv.send (h : Inv c s) {claim : Claim} {e : Execution} (he : e ∈ s.rows.rows)
    (howned : e.ownedBy claim = true) (hnew : .sent claim.id claim.token ∉ s.history)
    (hothers : ∀ v, (s.phase v).unsent ≠ some (claim.id, claim.token)) : Inv c (s.send claim) := by
  obtain ⟨hid, hrunning, htoken⟩ := Execution.ownedBy_iff.mp howned
  have hrow := h.row e he
  -- the row runs, so it was not closed
  have hopen : .closed claim.id ∉ s.history := by
    rw [← hid]
    intro hclosed
    rcases hrow.closed hclosed with hst | hst <;> simp [hrunning] at hst
  refine { h with row := fun f hf => ?_, phase := fun w => ?_, known := ?_, issued := ?_,
                  quiet := h.quiet.send hopen }
  · have hf' := h.row f hf
    have hclosed : .closed f.id ∈ (s.send claim).history → f.status = .succeeded ∨
        f.status = .cancelled := by
      intro hmem
      have hmem : .closed f.id ∈ Event.sent claim.id claim.token :: s.history := hmem
      exact hf'.closed (by simpa using hmem)
    -- the send is counted for its own row only
    by_cases hfid : f.id = claim.id
    · obtain rfl := s.rows.eq_of_id hf he (hfid.trans hid.symm)
      have hcount : sendsSince f.id (s.send claim).history = 1 + sendsSince f.id s.history := by
        show sendsSince f.id (.sent claim.id claim.token :: s.history) = _
        rw [sendsSince, if_pos hfid.symm]
      have hspare := hf'.unsent claim.token (by simpa using htoken) (hfid ▸ hnew)
      refine ⟨hf'.token, hf'.fresh, hf'.attempts, hf'.pending, ?_, fun t ht hsent => ?_, hclosed⟩
      · rw [hcount]
        omega
      · -- its token has been used now
        obtain rfl : claim.token = t := Option.some.inj (htoken.symm.trans ht)
        rw [hfid] at hsent
        exact absurd List.mem_cons_self hsent
    · have hcount : sendsSince f.id (s.send claim).history = sendsSince f.id s.history := by
        show sendsSince f.id (.sent claim.id claim.token :: s.history) = _
        rw [sendsSince, if_neg (Ne.symm hfid), Nat.zero_add]
      refine ⟨hf'.token, hf'.fresh, hf'.attempts, hf'.pending, hcount ▸ hf'.sends,
        fun t ht hsent => ?_, hclosed⟩
      rw [hcount]
      exact hf'.unsent t ht fun hmem => hsent (List.mem_cons_of_mem _ hmem)
  -- another worker has no promise about this token
  · have hp := h.phase w
    refine ⟨hp.target, hp.room, hp.token, fun i t hunsent hmem => ?_, hp.claim, hp.confirmed⟩
    rcases List.mem_cons.mp hmem with hsame | hmem
    · obtain ⟨rfl, rfl⟩ := Event.sent.inj hsame
      exact hothers w hunsent
    · exact hp.unsent i t hunsent hmem
  · intro event hevent
    rcases List.mem_cons.mp hevent with rfl | hevent
    · show claim.id < s.rows.next
      exact hid ▸ s.rows.lt e he
    · exact h.known event hevent
  · intro i t hmem
    rcases List.mem_cons.mp hmem with hsame | hmem
    · obtain ⟨rfl, rfl⟩ := Event.sent.inj hsame
      exact hrow.fresh _ (by simpa using htoken)
    · exact h.issued i t hmem

/-! ## New rows -/

/-- Nothing was sent. -/
theorem sendsSince_eq_zero {id : ℕ} {history : List Event} (h : ∀ t, .sent id t ∉ history) :
    sendsSince id history = 0 := by
  induction history with
  | nil => rfl
  | cons event history ih =>
    have hrest := ih fun t ht => h t (List.mem_cons_of_mem _ ht)
    cases event with
    | sent i t =>
      have hne : i ≠ id := by
        rintro rfl
        exact h t List.mem_cons_self
      rw [sendsSince, if_neg hne, hrest]
    | closed i => exact hrest
    | retried i =>
      rw [sendsSince]
      split_ifs
      · rfl
      · exact hrest

/-- A new row has sent nothing. -/
theorem Inv.enqueue (h : Inv c s) (group action retryCount now : ℕ) :
    Inv c (s.next c (.enqueue group action retryCount now)) := by
  have hmem : ∀ {e}, e ∈ (s.next c (.enqueue group action retryCount now)).rows.rows →
      e ∈ s.rows.rows ∨ e = s.newExecution group action retryCount now := fun {e} he =>
    (@IdTable.mem_insert _ _ s.rows _ rfl e).mp he
  have hfresh : ∀ event ∈ s.history, event.id ≠ s.rows.next := fun event hevent =>
    (h.known event hevent).ne
  have hrunning : ∀ g, Worker.running g (s.next c (.enqueue group action retryCount now)).rows =
      Worker.running g s.rows := by
    intro g
    show (s.rows.rows ++ [s.newExecution group action retryCount now]).countP _ = _
    rw [List.countP_append]
    simp [Worker.running, System.newExecution]
  constructor
  -- a new row has no attempts and nothing was sent for it
  case row =>
    intro e he
    rcases hmem he with he | rfl
    · have hrow := h.row e he
      exact ⟨hrow.token, hrow.fresh, hrow.attempts, hrow.pending, hrow.sends, hrow.unsent,
        hrow.closed⟩
    · have hzero : sendsSince s.rows.next s.history = 0 :=
        sendsSince_eq_zero fun t ht => hfresh _ ht rfl
      refine ⟨by simp [System.newExecution], by simp [System.newExecution],
        by simp [System.newExecution], by simp [System.newExecution], ?_,
        by simp [System.newExecution], fun hclosed => absurd rfl (hfresh _ hclosed)⟩
      exact hzero.le
  case phase =>
    intro w
    have hp := h.phase w
    -- its id is above those that workers have picked
    refine ⟨fun i g htarget => ?_, fun g hg => ?_, hp.token, hp.unsent, ?_, ?_⟩
    · obtain ⟨hlt, hg⟩ := hp.target i g htarget
      refine ⟨hlt.trans (Nat.lt_succ_self _), fun e he hid => ?_⟩
      rcases hmem he with he | rfl
      · exact hg e he hid
      · exact absurd hid hlt.ne'
    · exact roomLeft_mono (hrunning g).le (hp.room g hg)
    · intro claim hclaim e he hid htoken
      rcases hmem he with he | rfl
      · exact hp.claim claim hclaim e he hid htoken
      · cases htoken
    · intro claim hclaim
      obtain ⟨e, he, howned⟩ := hp.confirmed claim hclaim
      exact ⟨e, (@IdTable.mem_insert _ _ s.rows _ rfl e).mpr (.inl he), howned⟩
  case tokens => exact h.tokens
  case tested => exact h.tested
  case known => exact fun event hevent => (h.known event hevent).trans (Nat.lt_succ_self _)
  case issued => exact h.issued
  case running =>
    intro hpos g
    rw [hrunning]
    exact h.running hpos g
  case quiet => exact h.quiet

end Statements

end IncidentRelay.Orchestration.Worker
