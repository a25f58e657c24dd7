import IncidentRelay.Pending.Activation

/-!
# Paused events: activation and the due time

A worker reads its due list once and claims the rows one by one. The claim
checks the status of the row and not its `activation_at`, so a pause that is
extended after the list was read is activated all the same
(`extended_pause_activates_early`). The webhook sender, which has the same
loop, repeats its due condition in the claim.

What goes wrong is one kind of step only: a refresh that moves the due time of
a row later while some worker has the row on its list. `Undisturbed` rules this
step out.

 * `onTime_step`: an undisturbed step keeps every listed row due.
 * `undisturbed_run_punctual`: in every run of undisturbed steps, an activation
   is never early and never of a pause that was extended since the list was
   read.
-/

namespace IncidentRelay.Pending

variable {cfg : Settings} {sha256 : String → String}

/-- No activation came before the `activation_at` its claim saw, or from a tick
that had read its list before the pause was extended. -/
def Punctual (s : World) : Prop :=
  ∀ e ∈ s.log, ∀ at_ a x, e.ending = .activated at_ a x → a ≤ at_ ∧ x = false

/-- The step does not move later the due time of a row that a worker has listed
and not claimed. -/
def Undisturbed (sha256 : String → String) (s : World) : Label → Prop
  | .writePause q => ∀ req attempt current,
      s.request q = .pauseRead req attempt (some current) →
      s.extends_ sha256 req current = true →
      ∀ w, ∀ d ∈ (s.worker w).due, d.rowId ≠ current.id
  | _ => True

/-! ## What a worker relies on -/

/-- The claim a worker has taken. -/
structure Hold where
  rowId : Nat
  token : Option Nat
  activationAt : Instant
  extended : Bool

def Worker.hold : Worker → Option Hold
  | .claiming _ _ id token a e => some ⟨id, some token, a, e⟩
  | .claimed _ _ row a e => some ⟨row.id, row.claimToken, a, e⟩
  | _ => none

/-- The instant the tick of a worker reads its list at. -/
def Worker.listAt : Worker → Option Instant
  | .requeued now => some now
  | _ => none

/-- The worker has listed due rows only, and the row it holds was due. -/
structure WorkerOnTime (s : World) (st : Worker) : Prop where
  listAt_le : ∀ now, st.listAt = some now → now ≤ s.clock
  due : ∀ d ∈ st.due, d.extended = false ∧ d.rowId < s.nextId ∧
    ∀ r ∈ s.rows, r.id = d.rowId → r.activationAt ≤ s.clock
  hold_le : ∀ h, st.hold = some h → h.activationAt ≤ s.clock ∧ h.rowId < s.nextId ∧
    ∃ token, h.token = some token ∧ token < s.nextToken
  /-- A claim whose row was extended has lost it. -/
  hold_lost : ∀ h, st.hold = some h → h.extended = true →
    ∀ r ∈ s.rows, r.id = h.rowId → r.claimToken ≠ h.token

structure OnTime (s : World) : Prop where
  worker : ∀ w, WorkerOnTime s (s.worker w)
  punctual : Punctual s

/-- The time goes on: a row of `t` is new or was in `s`, its due time did not
move past the clock unless its id is in `moved`, and its claim is the old one, a
fresh one or none. -/
structure Later (moved : Nat → Prop) (s t : World) : Prop where
  clock : s.clock ≤ t.clock
  nextId : s.nextId ≤ t.nextId
  nextToken : s.nextToken ≤ t.nextToken
  rows : ∀ r' ∈ t.rows, s.nextId ≤ r'.id ∨ ∃ r ∈ s.rows, r.id = r'.id ∧
    (¬ moved r.id → r'.activationAt ≤ r.activationAt ∨ r'.activationAt ≤ t.clock) ∧
    (r'.claimToken = r.claimToken ∨ r'.claimToken = none ∨ r'.claimToken = some s.nextToken)

/-- A worker stays on time where the rows it scanned are not moved. -/
theorem workerOnTime_later {moved : Nat → Prop} {s t : World} {st : Worker}
    (hst : WorkerOnTime s st) (hlater : Later moved s t)
    (hmoved : ∀ d ∈ st.due, ¬ moved d.rowId) : WorkerOnTime t st := by
  constructor
  -- the worker's row is of before, or so new that the worker does not know it
  · intro now hnow
    exact (hst.listAt_le now hnow).trans hlater.clock
  · intro d hd
    obtain ⟨hext, hlt, hdue⟩ := hst.due d hd
    refine ⟨hext, by have := hlater.nextId; omega, ?_⟩
    intro r' hr' hid
    rcases hlater.rows r' hr' with hnew | ⟨r, hr, hrid, hat, -⟩
    · omega
    · have hold := hdue r hr (hrid.trans hid)
      have hclock := hlater.clock
      rcases hat (by rw [hrid, hid]; exact hmoved d hd) with h | h
      · exact (h.trans hold).trans hclock
      · exact h
  · intro h hh
    obtain ⟨hat, hlt, token, htoken, hfresh⟩ := hst.hold_le h hh
    have hn := hlater.nextId
    have hk := hlater.nextToken
    exact ⟨hat.trans hlater.clock, by omega, token, htoken, by omega⟩
  -- a claim that was lost is not got back
  · intro h hh hext r' hr' hid
    obtain ⟨-, hlt, token, htoken, hfresh⟩ := hst.hold_le h hh
    rcases hlater.rows r' hr' with hnew | ⟨r, hr, hrid, -, hclaim⟩
    · omega
    · rcases hclaim with hc | hc | hc
      · rw [hc]
        exact hst.hold_lost h hh hext r hr (hrid.trans hid)
      · rw [hc, htoken]
        simp
      · -- the claims handed out are older than the next one
        rw [hc, htoken]
        intro heq
        have := Option.some.inj heq
        omega

/-- What a world says about time does not depend on the processes and the log. -/
theorem workerOnTime_congr {s t : World} {st : Worker} (hst : WorkerOnTime s st)
    (hclock : t.clock = s.clock) (hrows : t.rows = s.rows) (hid : t.nextId = s.nextId)
    (htoken : t.nextToken = s.nextToken) : WorkerOnTime t st := by
  obtain ⟨h₁, h₂, h₃, h₄⟩ := hst
  constructor <;> simpa only [hclock, hrows, hid, htoken]

/-- One worker moves, the others keep their state. -/
theorem onTime_setWorker {s : World} (hs : OnTime s) (w : Nat) {st : Worker}
    (hst : WorkerOnTime s st) : OnTime (s.setWorker w st) := by
  refine ⟨?_, hs.punctual⟩
  intro v
  by_cases hv : v = w
  · subst hv
    have : (s.setWorker v st).worker v = st := by simp [World.setWorker]
    rw [this]
    exact workerOnTime_congr hst rfl rfl rfl rfl
  · have : (s.setWorker w st).worker v = s.worker v := by simp [World.setWorker, hv]
    rw [this]
    exact workerOnTime_congr (hs.worker v) rfl rfl rfl rfl

theorem onTime_setRequest {s : World} (hs : OnTime s) (q : Nat) (st : Request) :
    OnTime (s.setRequest q st) :=
  ⟨fun w => workerOnTime_congr (hs.worker w) rfl rfl rfl rfl, hs.punctual⟩

/-- A state that lists and holds nothing new is on time. -/
theorem workerOnTime_rest {s : World} {st st' : Worker} (hst : WorkerOnTime s st)
    (hlist : st'.listAt = none) (hdue : ∀ d ∈ st'.due, d ∈ st.due) (hhold : st'.hold = none) :
    WorkerOnTime s st' := by
  constructor
  · intro now h
    rw [hlist] at h
    exact absurd h (by simp)
  · intro d hd
    exact hst.due d (hdue d hd)
  · intro h hh
    rw [hhold] at hh
    exact absurd hh (by simp)
  · intro h hh
    rw [hhold] at hh
    exact absurd hh (by simp)

/-! ## The steps -/

/-- A guarded update of the table lets the time go on. -/
theorem later_updateRows {s : World} {guard : PendingOrchestratedEvent → Bool}
    {set : PendingOrchestratedEvent → PendingOrchestratedEvent} {moved : Nat → Prop}
    (hid : ∀ r, (set r).id = r.id)
    (hat : ∀ r, guard r = true → ¬ moved r.id →
      (set r).activationAt ≤ r.activationAt ∨ (set r).activationAt ≤ s.clock)
    (hclaim : ∀ r, (set r).claimToken = r.claimToken ∨ (set r).claimToken = none ∨
      (set r).claimToken = some s.nextToken) : Later moved s (s.updateRows guard set) := by
  refine ⟨le_rfl, le_rfl, le_rfl, ?_⟩
  intro r' hr'
  obtain ⟨r, hr, ⟨hg, rfl⟩ | ⟨-, rfl⟩⟩ := Table.mem_update.mp hr'
  · exact .inr ⟨r, hr, (hid r).symm, hat r hg, hclaim r⟩
  · exact .inr ⟨r', hr, rfl, fun _ => .inl le_rfl, .inl rfl⟩

/-- A world that is later, with the same processes. -/
theorem onTime_later {s t : World} (hs : OnTime s) (hlater : Later (fun _ => False) s t)
    (hworker : t.worker = s.worker) (hlog : Punctual t) : OnTime t := by
  refine ⟨?_, hlog⟩
  intro w
  rw [hworker]
  exact workerOnTime_later (hs.worker w) hlater fun _ _ => not_false

/-- An update that puts no row off. -/
theorem onTime_updateRows {s : World} (hs : OnTime s) {guard : PendingOrchestratedEvent → Bool}
    {set : PendingOrchestratedEvent → PendingOrchestratedEvent}
    (hid : ∀ r, (set r).id = r.id)
    (hat : ∀ r, guard r = true →
      (set r).activationAt ≤ r.activationAt ∨ (set r).activationAt ≤ s.clock)
    (hclaim : ∀ r, (set r).claimToken = r.claimToken ∨ (set r).claimToken = none ∨
      (set r).claimToken = some s.nextToken) : OnTime (s.updateRows guard set) :=
  onTime_later hs (later_updateRows hid (fun r hg _ => hat r hg) hclaim) rfl hs.punctual

/-- The log stays punctual with punctual entries. -/
theorem punctual_append {s : World} (hs : Punctual s) {entries : List LogEntry}
    (hnew : ∀ e ∈ entries, ∀ at_ a x, e.ending = .activated at_ a x → a ≤ at_ ∧ x = false) :
    ∀ e ∈ s.log ++ entries, ∀ at_ a x, e.ending = .activated at_ a x → a ≤ at_ ∧ x = false := by
  intro e he
  rcases List.mem_append.mp he with he | he
  · exact hs e he
  · exact hnew e he

theorem onTime_finishRows {s : World} (hs : OnTime s) {guard : PendingOrchestratedEvent → Bool}
    {set : PendingOrchestratedEvent → PendingOrchestratedEvent} {ending : Ending}
    (hid : ∀ r, (set r).id = r.id) (hat : ∀ r, (set r).activationAt = r.activationAt)
    (hclaim : ∀ r, (set r).claimToken = none)
    (hending : ∀ at_ a x, ending = .activated at_ a x → a ≤ at_ ∧ x = false) :
    OnTime (s.finishRows guard set ending) := by
  have hrows : Later (fun _ => False) s (s.updateRows guard set) :=
    later_updateRows hid (fun r _ _ => .inl (hat r).le) (fun r => .inr (.inl (hclaim r)))
  refine onTime_later hs ⟨le_rfl, le_rfl, le_rfl, hrows.rows⟩ rfl ?_
  apply punctual_append hs.punctual
  intro e he
  obtain ⟨r, -, rfl⟩ := List.mem_map.mp he
  exact hending

/-! ### Reading the list and claiming from it -/

/-- What is on the due list is a due row. -/
theorem mem_dueIds {limit id : Nat} {now : Instant} {rows : List PendingOrchestratedEvent}
    (h : id ∈ dueIds limit now rows) : ∃ r ∈ rows, r.id = id ∧ r.activationAt ≤ now := by
  obtain ⟨r, hr, rfl⟩ := List.mem_map.mp h
  have hr' := (List.perm_insertionSort _ _).mem_iff.mp (List.mem_of_mem_take hr)
  rw [List.mem_filter] at hr'
  have hdue := hr'.2
  simp only [isDue, decide_eq_true_eq] at hdue
  exact ⟨r, hr'.1, rfl, hdue.2.1⟩

/-- A worker lists what is due. -/
theorem onTime_listDue {s : World} (hs : OnTime s) (hc : Coherent sha256 s) {w limit : Nat}
    {now : Instant} (h : s.worker w = .requeued now) :
    OnTime (s.setWorker w
      (.scanning now ((dueIds limit now s.rows).map fun id => ⟨id, false⟩))) := by
  have hnow : now ≤ s.clock := (hs.worker w).listAt_le now (by rw [h]; rfl)
  apply onTime_setWorker hs
  constructor
  · intro t ht
    exact absurd ht (by simp [Worker.listAt])
  · intro d hd
    obtain ⟨id, hid, rfl⟩ := List.mem_map.mp hd
    obtain ⟨r, hr, hrid, hat⟩ := mem_dueIds hid
    refine ⟨rfl, ?_, ?_⟩
    · rw [← hrid]
      exact hc.ids_lt r hr
    · intro r' hr' hid'
      -- one row only has the listed id
      have hsame : r' = r := Table.eq_of_key_eq hc.ids_nodup hr' hr (hid'.trans hrid.symm)
      rw [hsame]
      exact hat.trans hnow
  · intro t ht
    exact absurd ht (by simp [Worker.hold])
  · intro t ht
    exact absurd ht (by simp [Worker.hold])

/-- A claim keeps what was listed. -/
theorem onTime_claim {s : World} (hs : OnTime s) {w : Nat} {now : Instant} {d : DueRow}
    {rest : List DueRow} (h : s.worker w = .scanning now (d :: rest)) :
    OnTime (s.claim w now d rest) := by
  have hw := hs.worker w
  rw [h] at hw
  obtain ⟨hext, hlt, hdue⟩ := hw.due d (by simp [Worker.due])
  have hrest : ∀ x ∈ rest, x ∈ Worker.due (.scanning now (d :: rest)) := by
    intro x hx
    exact List.mem_cons_of_mem d hx
  cases hfind : s.rows.find? (claimGuard d.rowId) with
  | none =>
    simp only [World.claim, hfind]
    have hlater : OnTime { s with nextToken := s.nextToken + 1 } := by
      refine onTime_later hs ⟨le_rfl, le_rfl, Nat.le_succ _, ?_⟩ rfl hs.punctual
      intro r hr
      exact .inr ⟨r, hr, rfl, fun _ => .inl le_rfl, .inl rfl⟩
    apply onTime_setWorker hlater
    have hw' := hlater.worker w
    rw [show ({ s with nextToken := s.nextToken + 1 } : World).worker w = s.worker w from rfl,
      h] at hw'
    exact workerOnTime_rest hw' rfl hrest rfl
  | some row =>
    simp only [World.claim, hfind]
    have hrow : row ∈ s.rows := List.mem_of_find?_eq_some hfind
    have hguard := List.find?_some hfind
    simp only [claimGuard, decide_eq_true_eq] at hguard
    have hat : row.activationAt ≤ s.clock := hdue row hrow hguard.1
    have hlater : OnTime { s.updateRows (claimGuard d.rowId) (claimRow s.nextToken now) with
        nextToken := s.nextToken + 1 } := by
      have hrows : Later (fun _ => False) s
          (s.updateRows (claimGuard d.rowId) (claimRow s.nextToken now)) :=
        later_updateRows (fun _ => rfl) (fun _ _ _ => .inl le_rfl) (fun _ => .inr (.inr rfl))
      exact onTime_later hs ⟨le_rfl, le_rfl, Nat.le_succ _, hrows.rows⟩ rfl hs.punctual
    have hw' := hlater.worker w
    rw [show ({ s.updateRows (claimGuard d.rowId) (claimRow s.nextToken now) with
      nextToken := s.nextToken + 1 } : World).worker w = s.worker w from rfl, h] at hw'
    apply onTime_setWorker hlater
    constructor
    · intro t ht
      exact absurd ht (by simp [Worker.listAt])
    · intro x hx
      exact hw'.due x (hrest x hx)
    · intro t ht
      obtain rfl := Option.some.inj ht
      exact ⟨hat, hlt, s.nextToken, rfl, Nat.lt_succ_self _⟩
    · intro t ht hx
      obtain rfl := Option.some.inj ht
      -- an undisturbed list has no extended row
      rw [show d.extended = true from hx] at hext
      exact absurd hext (by decide)

theorem onTime_getClaimed {s : World} (hs : OnTime s) {w : Nat} {now : Instant}
    {due : List DueRow} {rowId token : Nat} {a : Instant} {e : Bool}
    {row : PendingOrchestratedEvent} (h : s.worker w = .claiming now due rowId token a e)
    (hrow : s.rows.find? (fun r => r.id = rowId ∧ r.claimToken = some token) = some row) :
    OnTime (s.setWorker w (.claimed now due row a e)) := by
  have hw := hs.worker w
  rw [h] at hw
  have hsel := List.find?_some hrow
  simp only [decide_eq_true_eq] at hsel
  -- the claimed row is the one the claim was taken on
  have hhold : Worker.hold (.claimed now due row a e) =
      Worker.hold (.claiming now due rowId token a e) := by
    simp only [Worker.hold, hsel.1, hsel.2]
  apply onTime_setWorker hs
  constructor
  · intro t ht
    exact absurd ht (by simp [Worker.listAt])
  · intro d hd
    exact hw.due d hd
  · intro t ht
    exact hw.hold_le t (hhold ▸ ht)
  · intro t ht
    exact hw.hold_lost t (hhold ▸ ht)

/-- **An activation is not early.** -/
theorem onTime_activate {s : World} (hs : OnTime s) {w : Nat} {now : Instant}
    {due : List DueRow} {a : Instant} {e : Bool} {row : PendingOrchestratedEvent}
    (alertData : Dict) (h : s.worker w = .claimed now due row a e)
    (hheld : Table.affected (heldGuard row) s.rows = 1) :
    OnTime ((s.finishRows (heldGuard row) (activatedRow s.clock alertData)
      (.activated s.clock a e)).setWorker w (.scanning now due)) := by
  have hw := hs.worker w
  rw [h] at hw
  obtain ⟨r, hr, hguard⟩ := Table.affected_pos.mp (by rw [hheld]; exact Nat.one_pos)
  simp only [heldGuard, decide_eq_true_eq] at hguard
  -- the locking statement found the claim, so nothing extended the row since
  have hext : e = false := by
    rw [Bool.eq_false_iff]
    intro he
    exact hw.hold_lost _ rfl he r hr hguard.1 hguard.2.2
  have hfin : OnTime (s.finishRows (heldGuard row) (activatedRow s.clock alertData)
      (.activated s.clock a e)) := by
    refine onTime_finishRows hs (fun _ => rfl) (fun _ => rfl) (fun _ => rfl) ?_
    intro at_ a' x heq
    obtain ⟨rfl, rfl, rfl⟩ := Ending.activated.inj heq
    exact ⟨(hw.hold_le _ rfl).1, hext⟩
  apply onTime_setWorker hfin
  have hw' := hfin.worker w
  rw [show (s.finishRows (heldGuard row) (activatedRow s.clock alertData)
    (.activated s.clock a e)).worker w = s.worker w from rfl, h] at hw'
  exact workerOnTime_rest hw' rfl (fun d hd => hd) rfl

/-! ### Extending a pause -/

/-- Marking another row. -/
theorem markDue_of_ne {rowId : Nat} {due : List DueRow} (h : ∀ d ∈ due, d.rowId ≠ rowId) :
    markDue rowId due = due := by
  unfold markDue
  conv_rhs => rw [← List.map_id due]
  apply List.map_congr_left
  intro d hd
  rw [if_neg (h d hd)]
  rfl

theorem markExtended_due (rowId : Nat) (st : Worker) :
    (st.markExtended rowId).due = markDue rowId st.due := by
  cases st <;> rfl

theorem markExtended_listAt (rowId : Nat) (st : Worker) :
    (st.markExtended rowId).listAt = st.listAt := by
  cases st <;> rfl

theorem markExtended_hold (rowId : Nat) (st : Worker) :
    (st.markExtended rowId).hold =
      st.hold.map fun h => { h with extended := h.extended || h.rowId == rowId } := by
  cases st <;> rfl

/-- A worker that has not listed the row, and whose claim of it is gone. -/
theorem workerOnTime_markExtended {s : World} {st : Worker} {rowId : Nat}
    (hst : WorkerOnTime s st) (hdue : ∀ d ∈ st.due, d.rowId ≠ rowId)
    (hfree : ∀ r ∈ s.rows, r.id = rowId → r.claimToken = none) :
    WorkerOnTime s (st.markExtended rowId) := by
  constructor
  · rw [markExtended_listAt]
    exact hst.listAt_le
  -- only the due time of that row is marked
  · rw [markExtended_due, markDue_of_ne hdue]
    exact hst.due
  · intro h hh
    rw [markExtended_hold] at hh
    obtain ⟨h₀, hh₀, rfl⟩ := Option.map_eq_some_iff.mp hh
    exact hst.hold_le h₀ hh₀
  · intro h hh hext r hr hid
    rw [markExtended_hold] at hh
    obtain ⟨h₀, hh₀, rfl⟩ := Option.map_eq_some_iff.mp hh
    simp only [Bool.or_eq_true, beq_iff_eq] at hext
    -- the row of the worker is claimed by nobody now
    rcases hext with hext | hext
    · exact hst.hold_lost h₀ hh₀ hext r hr hid
    · obtain ⟨-, -, token, htoken, -⟩ := hst.hold_le h₀ hh₀
      rw [hfree r hr (hid.trans hext), htoken]
      simp

/-- A refresh that moves a due time later is not the one of a live claim. -/
theorem refresh_activating {req : PauseRequest} {current r : PendingOrchestratedEvent}
    (h : current.status = .activating) :
    (req.refresh current r).activationAt = r.activationAt ∧
      (req.refresh current r).claimToken = r.claimToken := by
  unfold PauseRequest.refresh
  rw [if_pos h]
  exact ⟨rfl, rfl⟩

/-- A pause extends a row that waits. -/
theorem refresh_waiting {req : PauseRequest} {current r : PendingOrchestratedEvent}
    (h : current.status ≠ .activating) :
    (req.refresh current r).activationAt = req.refreshedActivationAt current ∧
      (req.refresh current r).claimToken = none := by
  unfold PauseRequest.refresh
  rw [if_neg h]
  exact ⟨rfl, rfl⟩

theorem refresh_id (req : PauseRequest) (current r : PendingOrchestratedEvent) :
    (req.refresh current r).id = r.id := by
  unfold PauseRequest.refresh
  by_cases h : current.status = .activating
  · rw [if_pos h]
    rfl
  · rw [if_neg h]
    rfl

theorem refresh_claimToken (req : PauseRequest) (current r : PendingOrchestratedEvent) :
    (req.refresh current r).claimToken = r.claimToken ∨
      (req.refresh current r).claimToken = none := by
  by_cases h : current.status = .activating
  · exact .inl (refresh_activating h).2
  · exact .inr (refresh_waiting h).2

/-- A refresh that extends no pause. -/
theorem onTime_refresh {s : World} (hs : OnTime s) {req : PauseRequest}
    {current : PendingOrchestratedEvent} (hext : ¬ s.extends_ sha256 req current = true) :
    OnTime (s.updateRows (req.refreshGuard sha256 current) (req.refresh current)) := by
  have hat : ∀ r ∈ s.rows, req.refreshGuard sha256 current r = true →
      (req.refresh current r).activationAt ≤ r.activationAt := by
    intro r hr hg
    by_contra hlt
    apply hext
    simp only [World.extends_, List.any_eq_true, decide_eq_true_eq]
    exact ⟨r, hr, hg, not_le.mp hlt⟩
  refine onTime_later hs ⟨le_rfl, le_rfl, le_rfl, ?_⟩ rfl hs.punctual
  intro r' hr'
  obtain ⟨r, hr, ⟨hg, rfl⟩ | ⟨-, rfl⟩⟩ := Table.mem_update.mp hr'
  · refine .inr ⟨r, hr, (refresh_id req current r).symm, fun _ => .inl (hat r hr hg), ?_⟩
    rcases refresh_claimToken req current r with h | h
    · exact .inl h
    · exact .inr (.inl h)
  · exact .inr ⟨r', hr, rfl, fun _ => .inl le_rfl, .inl rfl⟩

/-- A refresh that extends the pause of a row nobody has listed. -/
theorem onTime_extend {s : World} (hs : OnTime s) (hc : Coherent sha256 s) {req : PauseRequest}
    {current : PendingOrchestratedEvent} (hext : s.extends_ sha256 req current = true)
    (hunlisted : ∀ w, ∀ d ∈ (s.worker w).due, d.rowId ≠ current.id) :
    OnTime { s.updateRows (req.refreshGuard sha256 current) (req.refresh current) with
      worker := fun w => (s.worker w).markExtended current.id } := by
  simp only [World.extends_, List.any_eq_true, decide_eq_true_eq] at hext
  obtain ⟨r₀, hr₀, hg₀, hlt⟩ := hext
  have hwaiting : current.status ≠ .activating := by
    intro hact
    rw [(refresh_activating hact).1] at hlt
    exact lt_irrefl _ hlt
  have hid₀ : r₀.id = current.id := by
    simp only [PauseRequest.refreshGuard, decide_eq_true_eq] at hg₀
    exact hg₀.1
  set t := s.updateRows (req.refreshGuard sha256 current) (req.refresh current) with ht
  have hlater : Later (fun id => id = current.id) s t := by
    apply later_updateRows
    · exact refresh_id req current
    · intro r hg hmoved
      simp only [PauseRequest.refreshGuard, decide_eq_true_eq] at hg
      exact absurd hg.1 hmoved
    · intro r
      rcases refresh_claimToken req current r with h | h
      · exact .inl h
      · exact .inr (.inl h)
  -- the refreshed row, the only one with its id, carries no claim
  have hfree : ∀ r ∈ t.rows, r.id = current.id → r.claimToken = none := by
    intro r' hr' hid
    obtain ⟨r, hr, ⟨-, rfl⟩ | ⟨hg, rfl⟩⟩ := Table.mem_update.mp hr'
    · exact (refresh_waiting hwaiting).2
    · have hsame : r' = r₀ := Table.eq_of_key_eq hc.ids_nodup hr hr₀ (hid.trans hid₀.symm)
      rw [hsame, hg₀] at hg
      exact absurd hg (by decide)
  refine ⟨?_, hs.punctual⟩
  intro w
  have hw := workerOnTime_later (hs.worker w) hlater (hunlisted w)
  exact workerOnTime_congr (workerOnTime_markExtended hw (hunlisted w) hfree) rfl rfl rfl rfl

/-- A new row is on no list. -/
theorem onTime_insert {s : World} (hs : OnTime s) (req : PauseRequest) :
    OnTime { s with rows := s.rows ++ [req.newRow sha256 s.nextId], nextId := s.nextId + 1 } := by
  refine onTime_later hs ⟨le_rfl, Nat.le_succ _, le_rfl, ?_⟩ rfl hs.punctual
  intro r hr
  rcases List.mem_append.mp hr with hr | hr
  · exact .inr ⟨r, hr, rfl, fun _ => .inl le_rfl, .inl rfl⟩
  · rw [List.mem_singleton] at hr
    rw [hr]
    exact .inl le_rfl

/-- **A pause in between puts off no row** that is already being activated. -/
theorem onTime_writePause {s : World} (hs : OnTime s) (hc : Coherent sha256 s) {q : Nat}
    {req : PauseRequest} {attempt : Nat} {current : Option PendingOrchestratedEvent}
    (h : s.request q = .pauseRead req attempt current)
    (hok : Undisturbed sha256 s (.writePause q)) :
    OnTime (s.writePause sha256 q req attempt current) := by
  -- a pause makes a row, or writes over the one it found
  cases current with
  | none =>
    by_cases htaken : (s.findActive (req.key sha256)).isSome = true
    · simp only [World.writePause, if_pos htaken]
      exact onTime_setRequest hs _ _
    · simp only [World.writePause, if_neg htaken]
      exact onTime_setRequest (onTime_insert hs req) q .idle
  | some current =>
    -- the row that is written over is that one, by its guard
    by_cases hone : Table.affected (req.refreshGuard sha256 current) s.rows = 1
    · by_cases hext : s.extends_ sha256 req current = true
      · simp only [World.writePause, if_pos hone, if_pos hext]
        exact onTime_setRequest (onTime_extend hs hc hext (hok req attempt current h hext)) q .idle
      · simp only [World.writePause, if_pos hone, if_neg hext]
        exact onTime_setRequest (onTime_refresh hs hext) q .idle
    · simp only [World.writePause, if_neg hone]
      exact onTime_setRequest hs _ _

/-- **Step lemma.** A step that moves no listed row later keeps every worker on
time. -/
theorem onTime_step {s t : World} {l : Label} (hs : OnTime s) (hc : Coherent sha256 s)
    (hok : Undisturbed sha256 s l) (h : Step cfg sha256 s l t) : OnTime t := by
  cases h with
  | advance h =>
    refine onTime_later hs ⟨h, le_rfl, le_rfl, ?_⟩ rfl hs.punctual
    intro r hr
    exact .inr ⟨r, hr, rfl, fun _ => .inl le_rfl, .inl rfl⟩
  | @requeueStale w h =>
    have ht : OnTime (s.updateRows (staleGuard cfg s.clock) (requeueRow s.clock)) :=
      onTime_updateRows hs (fun _ => rfl) (fun _ _ => .inl le_rfl) (fun _ => .inr (.inl rfl))
    apply onTime_setWorker ht
    constructor
    · intro now hnow
      obtain rfl := Option.some.inj hnow
      exact le_rfl
    · intro d hd
      exact absurd hd (by simp [Worker.due])
    · intro h hh
      exact absurd hh (by simp [Worker.hold])
    · intro h hh
      exact absurd hh (by simp [Worker.hold])
  | listDue limit h => exact onTime_listDue hs hc h
  | claim h => exact onTime_claim hs h
  | getClaimed h hrow => exact onTime_getClaimed hs h hrow
  | @claimGone w _ _ _ _ _ _ h hrow =>
    exact onTime_setWorker hs w (workerOnTime_rest (hs.worker w) rfl (by simp [Worker.due]) rfl)
  | activate alertData h hheld => exact onTime_activate hs alertData h hheld
  | @claimLost w _ _ _ _ _ h hheld =>
    exact onTime_setWorker hs w
      (workerOnTime_rest (hs.worker w) rfl (fun d hd => by rw [h]; exact hd) rfl)
  | @activationRaises w _ _ _ _ _ error h =>
    exact onTime_setWorker hs w
      (workerOnTime_rest (hs.worker w) rfl (fun d hd => by rw [h]; exact hd) rfl)
  | @markFailed w _ _ row error h =>
    have ht : OnTime (s.updateRows (heldGuard row) (failedRow cfg s.clock error row)) :=
      onTime_updateRows hs (fun _ => rfl) (fun _ _ => .inl le_rfl) (fun _ => .inr (.inl rfl))
    exact onTime_setWorker ht w (workerOnTime_rest (ht.worker w) rfl
      (fun d hd => by
        rw [show (s.updateRows _ _).worker w = s.worker w from rfl, h]
        exact hd) rfl)
  | @endTick w _ h =>
    exact onTime_setWorker hs w (workerOnTime_rest (hs.worker w) rfl (by simp [Worker.due]) rfl)
  | beginPause args h hargs => exact onTime_setRequest hs _ _
  | readPause h => exact onTime_setRequest hs _ _
  | writePause h => exact onTime_writePause hs hc h hok
  | beginResolve groupId source dedupKey h => exact onTime_setRequest hs _ _
  | readResolve h => exact onTime_setRequest hs _ _
  | writeResolve h =>
    apply onTime_setRequest
    refine onTime_finishRows hs (fun _ => rfl) (fun _ => rfl) (fun _ => rfl) ?_
    intro _ _ _ heq
    exact absurd heq (by simp)
  | retryFailed rowId =>
    exact onTime_updateRows hs (fun _ => rfl) (fun _ _ => .inr le_rfl) (fun _ => .inr (.inl rfl))
  | cancel scope reason =>
    refine onTime_finishRows hs (fun _ => rfl) (fun _ => rfl) (fun _ => rfl) ?_
    intro _ _ _ heq
    exact absurd heq (by simp)

theorem onTime_init (clock : Instant) : OnTime (.init clock) := by
  refine ⟨?_, by simp [Punctual, World.init]⟩
  intro w
  constructor <;> simp [World.init, Worker.listAt, Worker.due, Worker.hold]

/-- **Activations are on time.** In every run whose steps leave the listed rows
alone, each committed activation came no earlier than the `activation_at` its
claim saw, and never from a tick whose list is older than an extension of the
pause. -/
theorem undisturbed_run_punctual {clock : Instant} {labels : List Label} {s : World}
    (hrun : Run (fun s l t => Undisturbed sha256 s l ∧ Step cfg sha256 s l t) (.init clock)
      labels s) : Punctual s := by
  have hboth : Coherent sha256 s ∧ OnTime s :=
    hrun.invariant (I := fun s => Coherent sha256 s ∧ OnTime s)
      (fun hI h => ⟨coherent_step hI.1 h.2, onTime_step hI.2 hI.1 h.1 h.2⟩)
      ⟨coherent_init sha256 clock, onTime_init clock⟩
  exact hboth.2.punctual

/-- The pause is extended before a worker lists it: the worker that has listed nothing too early
activates at the later due time. -/
theorem undisturbed_run_punctual_sample :
    ∃ s : World, s.log = [⟨1, .activated (seconds 15) (seconds 15) false⟩] ∧ Punctual s := by
  refine ⟨_, ?_, @undisturbed_run_punctual {} id 0
    [.beginPause 0, .readPause 0, .writePause 0, .advance (seconds 5), .requeueStale 0, .listDue 0 10,
      .beginPause 1, .readPause 1, .writePause 1, .advance (seconds 15),
      .requeueStale 1, .listDue 1 10, .claim 1, .getClaimed 1, .activate 1] _
    (.cons ⟨trivial, .beginPause (q := 0) samplePause rfl rfl⟩ <|
    .cons ⟨trivial, .readPause (q := 0) rfl⟩ <|
    .cons ⟨fun _ _ _ h => by simp [World.setRequest, World.findActive, World.init] at h,
      .writePause (q := 0) rfl⟩ <|
    .cons ⟨trivial, .advance (t := seconds 5) (by decide)⟩ <|
    -- nothing is due yet
    .cons ⟨trivial, .requeueStale (w := 0) rfl⟩ <|
    .cons ⟨trivial, .listDue (w := 0) 10 rfl⟩ <|
    .cons ⟨trivial, .beginPause (q := 1) samplePause rfl rfl⟩ <|
    .cons ⟨trivial, .readPause (q := 1) rfl⟩ <|
    .cons ⟨fun _ _ _ _ _ w _ hd => (by cases w <;> cases hd),
      .writePause (q := 1) rfl⟩ <|
    .cons ⟨trivial, .advance (t := seconds 15) (by decide)⟩ <|
    .cons ⟨trivial, .requeueStale (w := 1) rfl⟩ <|
    .cons ⟨trivial, .listDue (w := 1) 10 rfl⟩ <|
    .cons ⟨trivial, .claim (w := 1) rfl⟩ <|
    .cons ⟨trivial, .getClaimed (w := 1) rfl rfl⟩ <|
    .cons ⟨trivial, .activate (w := 1) [] rfl rfl⟩ <|
    .nil _)⟩
  rfl

/-- A second firing extends the pause between the list and the claim of a
worker: the activation comes ten seconds before the stored `activation_at`. -/
theorem extended_pause_activates_early :
    ∃ s, Reachable {} id s ∧ ¬ Punctual s ∧
      s.log = [⟨1, .activated (seconds 10) (seconds 20) true⟩] := by
  refine ⟨_, ⟨0, _,
    .cons (.beginPause (q := 0) samplePause rfl rfl) <|
    .cons (.readPause (q := 0) rfl) <|
    .cons (.writePause (q := 0) rfl) <|
    .cons (.advance (t := seconds 10) (by decide)) <|
    .cons (.requeueStale (w := 0) rfl) <|
    .cons (.listDue (w := 0) 10 rfl) <|
    -- the firing comes again before the claim
    .cons (.beginPause (q := 0) samplePause rfl rfl) <|
    .cons (.readPause (q := 0) rfl) <|
    .cons (.writePause (q := 0) rfl) <|
    .cons (.claim (w := 0) rfl) <|
    .cons (.getClaimed (w := 0) rfl rfl) <|
    .cons (.activate (w := 0) [] rfl rfl) <|
    .nil _⟩, ?_, rfl⟩
  intro hpunctual
  have h := hpunctual ⟨1, .activated (seconds 10) (seconds 20) true⟩ (List.mem_singleton.mpr rfl)
    _ _ _ rfl
  exact absurd h.2 (by decide)

end IncidentRelay.Pending
