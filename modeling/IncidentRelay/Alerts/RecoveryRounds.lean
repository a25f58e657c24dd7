import IncidentRelay.Alerts.Recovery
import IncidentRelay.Lib.Backoff

/-!
# One run over the rows of a cycle

What `processDueRecovery` does to the rows and to the attempts. The rows of a cycle are created
and tried together, so that those that are still open were tried at the same times and wait for
the same time: a cycle is worked on in rounds (`Rounds`).
-/

namespace IncidentRelay.Recovery

variable {w w' : World} {g : Group} {now due : ℕ} {i : Inputs} {d d' : Delivery} {c : Cycle}
  {rounds : List ℕ} {log : List Call} {a : Answer}

/-! ## An attempt -/

def Delivery.call (d : Delivery) (now : ℕ) (a : Answer) : Call := ⟨d.id, d.cycle, d.target, now, a⟩

@[simp] theorem Delivery.tried_id : (d.tried now a).id = d.id := by
  unfold Delivery.tried
  cases a with
  | error e =>
    dsimp only
    split_ifs <;> rfl
  | ok answer => rfl

@[simp] theorem Delivery.tried_cycle : (d.tried now a).cycle = d.cycle := by
  unfold Delivery.tried
  cases a with
  | error e =>
    dsimp only
    split_ifs <;> rfl
  | ok answer => rfl

@[simp] theorem Delivery.tried_target : (d.tried now a).target = d.target := by
  unfold Delivery.tried
  cases a with
  | error e =>
    dsimp only
    split_ifs <;> rfl
  | ok answer => rfl

/-- An attempt is counted. -/
@[simp] theorem Delivery.tried_attempts : (d.tried now a).attempts = d.attempts + 1 := by
  unfold Delivery.tried
  cases a with
  | error e =>
    dsimp only
    split_ifs <;> rfl
  | ok answer => rfl

theorem Delivery.tried_ok (status : DeliveryStatus) (sent : Int) :
    (d.tried now (.ok (status, sent))).status = status := rfl

theorem Delivery.tried_error_last {e : String} (h : recoveryMaxAttempts ≤ d.attempts + 1) :
    (d.tried now (.error e)).status = .failed := by
  show (if recoveryMaxAttempts ≤ d.attempts + 1 then _ else _ : Delivery).status = _
  rw [if_pos h]

/-- Before it the row waits for its next attempt. -/
theorem Delivery.tried_error {e : String} (h : d.attempts + 1 < recoveryMaxAttempts) :
    d.tried now (.error e) = { d with
      attempts := d.attempts + 1
      updatedAt := now
      lastError := some (takeText e 2000)
      nextAttemptAt := now + seconds (retrySeconds (d.attempts + 1)) } := by
  show (if recoveryMaxAttempts ≤ d.attempts + 1 then _ else _ : Delivery) = _
  rw [if_neg (Nat.not_le.mpr h)]

/-- A delivery that raises nothing was sent or skipped. -/
theorem deliverRecoveryTarget_ok {status : DeliveryStatus} {sent : Int}
    (h : deliverRecoveryTarget g d i = .ok (status, sent)) :
    status = .sent ∨ status = .skipped := by
  have hsent : ∀ {n : Int}, (.ok (.sent, n) : Answer) = .ok (status, sent) → status = .sent := by
    intro n heq
    cases heq
    rfl
  have hskipped : (.ok (.skipped, 0) : Answer) = .ok (status, sent) → status = .skipped := by
    intro heq
    cases heq
    rfl
  unfold deliverRecoveryTarget at h
  -- each kind of target is sent, skipped or fails by its own conditions
  cases hkind : d.target.kind with
  | channel =>
    rw [hkind] at h
    dsimp only at h
    cases hnotify : i.notifyAlert d.target.id with
    -- a channel that fails is tried again
    | error e => rw [hnotify] at h; cases h
    | ok outcome =>
      rw [hnotify] at h
      rcases outcome with _ | _ | _ | _
      · exact .inr (hskipped h)
      · cases h
      · exact .inr (hskipped h)
      · exact .inl (hsent h)
  | userRules =>
    rw [hkind] at h
    dsimp only at h
    -- the rules of the users are enqueued where there are any
    split_ifs at h
    · cases hcount : i.enqueueUserNotifications with
      | error e => rw [hcount] at h; cases h
      | ok n =>
        rw [hcount] at h
        exact .inl (hsent h)
    · exact .inr (hskipped h)
  | stakeholderEmail =>
    rw [hkind] at h
    dsimp only at h
    split at h
    -- a stakeholder that is gone is skipped
    · exact .inr (hskipped h)
    · next s _ =>
      split_ifs at h
      · split at h
        · exact .inr (hskipped h)
        · next recipient _ =>
          cases hmail : i.sendStakeholderEmail s.id recipient with
          | error e => rw [hmail] at h; cases h
          | ok _ =>
            rw [hmail] at h
            exact .inl (hsent h)
      · exact .inr (hskipped h)
  | stakeholderPush =>
    rw [hkind] at h
    dsimp only at h
    split at h
    · exact .inr (hskipped h)
    · next s _ =>
      split_ifs at h
      · cases hpush : i.sendStakeholderPush s.id with
        | error e => rw [hpush] at h; cases h
        | ok n =>
          rw [hpush] at h
          by_cases hzero : n = 0
          · exact .inr (hskipped (by simpa [hzero, bind, Except.bind] using h))
          · exact .inl (hsent (n := n) (by simpa [hzero, bind, Except.bind] using h))
      · exact .inr (hskipped h)
      · exact .inr (hskipped h)

/-! ## The attempts of a run -/

/-- The attempts on a row, in order. -/
def World.callsOf (w : World) (delivery : ℕ) : List Call :=
  w.calls.filter fun call => call.delivery = delivery

@[simp] theorem mem_cycleQuery : d ∈ w.cycleQuery c ↔ d ∈ w.deliveries.rows ∧ d.cycle = c := by
  unfold World.cycleQuery
  rw [List.mem_insertionSort, List.mem_filter, decide_eq_true_iff]

theorem cycleQuery_nodup (w : World) (c : Cycle) : ((w.cycleQuery c).map Delivery.id).Nodup := by
  have hperm : List.Perm (w.cycleQuery c) (w.deliveries.rows.filter fun d => d.cycle = c) :=
    List.perm_insertionSort _ _
  rw [(hperm.map Delivery.id).nodup_iff]
  exact w.deliveries.nodup.sublist (List.filter_sublist.map Delivery.id)

/-- Whether a run over the rows tries this one. -/
def Delivery.settle (g : Group) (now : ℕ) (i : Inputs) (rows : List Delivery) (d : Delivery) :
    Delivery :=
  if d ∈ rows ∧ d.isDue now = true then d.tried now (deliverRecoveryTarget g d i) else d

/-- The attempts of a run write no group. -/
theorem tryDue_groups (rows : List Delivery) : (w.tryDue g now i rows).groups = w.groups := by
  induction rows generalizing w with
  | nil => rfl
  | cons d rows ih =>
    show World.groups (World.tryDue (if _ then _ else _) g now i rows) = _
    rw [ih]
    split_ifs <;> rfl

theorem tryDue_next (rows : List Delivery) :
    (w.tryDue g now i rows).deliveries.next = w.deliveries.next := by
  induction rows generalizing w with
  | nil => rfl
  | cons d rows ih =>
    show (World.tryDue (if _ then _ else _) g now i rows).deliveries.next = _
    rw [ih]
    split_ifs <;> rfl

/-- One call for every row that is due, in the order of the rows. -/
theorem tryDue_calls (rows : List Delivery) :
    (w.tryDue g now i rows).calls = w.calls ++
      (rows.filter fun d => d.isDue now).map fun d => d.call now (deliverRecoveryTarget g d i) := by
  induction rows generalizing w with
  | nil => exact (List.append_nil _).symm
  | cons d rows ih =>
    show (World.tryDue (if _ then _ else _) g now i rows).calls = _
    rw [ih]
    cases hdue : d.isDue now with
    | true => simp [World.tryRecoveryTarget, Delivery.call, hdue]
    | false => simp [hdue]

variable (g now i) in
/-- **Each row after the attempts**: it is settled on its own, whatever becomes of the others.
-/
theorem tryDue_get {rows : List Delivery} (hnodup : (rows.map Delivery.id).Nodup)
    (hrows : ∀ d ∈ rows, w.deliveries.get d.id = some d) (n : ℕ) :
    (w.tryDue g now i rows).deliveries.get n =
      (w.deliveries.get n).map (Delivery.settle g now i rows) := by
  induction rows generalizing w with
  | nil =>
    show w.deliveries.get n = _
    cases w.deliveries.get n with
    | none => rfl
    | some d => simp [Delivery.settle]
  | cons d rows ih =>
    obtain ⟨hd, hnodup⟩ := List.nodup_cons.mp hnodup
    -- the attempt on the head leaves the rows behind it as they were read
    show (World.tryDue (if d.isDue now = true then _ else _) g now i rows).deliveries.get n = _
    have hne : ∀ d' ∈ rows, d'.id ≠ d.id := by
      rintro d' hd' heq
      exact hd (heq ▸ List.mem_map_of_mem hd')
    have hhead : w.deliveries.get d.id = some d := hrows d List.mem_cons_self
    have hother : ∀ d', w.deliveries.get n = some d' → d' ≠ d →
        Delivery.settle g now i rows d' = Delivery.settle g now i (d :: rows) d' := by
      intro d' _ hd'
      simp [Delivery.settle, hd']
    split_ifs with hdue
    · rw [ih hnodup]
      · show ((w.deliveries.save _).get n).map _ = _
        rw [IdTable.get_save, Option.map_map]
        cases hget : w.deliveries.get n with
        | none => rfl
        | some d' =>
          simp only [Option.map_some, Function.comp_apply, Delivery.tried_id, Option.some.injEq]
          by_cases heq : d' = d
          · subst heq
            rw [if_pos rfl]
            have hout : d'.tried now (deliverRecoveryTarget g d' i) ∉ rows := by
              intro hmem
              exact hne _ hmem Delivery.tried_id
            simp [Delivery.settle, hout, hdue]
          · have hid : d'.id ≠ d.id := by
              intro hid
              have hmem := (IdTable.get_eq_some.mp hget).1
              exact heq (IdTable.eq_of_id hmem (IdTable.get_eq_some.mp hhead).1 hid)
            rw [if_neg hid, hother d' hget heq]
      · intro d' hd'
        show (w.deliveries.save _).get d'.id = _
        rw [IdTable.get_save, hrows d' (List.mem_cons_of_mem _ hd'), Option.map_some,
          Delivery.tried_id, if_neg (hne d' hd')]
    · rw [ih hnodup fun d' hd' => hrows d' (List.mem_cons_of_mem _ hd')]
      cases hget : w.deliveries.get n with
      | none => rfl
      | some d' =>
        simp only [Option.map_some, Option.some.injEq]
        by_cases heq : d' = d
        · subst heq
          have hout : d' ∉ rows := fun hmem => hne d' hmem rfl
          simp [Delivery.settle, hout, hdue]
        · exact hother d' hget heq

/-- The rows of the cycle after the attempts on those that are due. -/
theorem mem_tryDue : d' ∈ (w.tryDue g now i (w.cycleQuery c)).deliveries.rows ↔
    ∃ d ∈ w.deliveries.rows, d' = d.settle g now i (w.cycleQuery c) := by
  -- the rows of the cycle are tried in turn, each found under its id
  have hget := tryDue_get g now i (cycleQuery_nodup w c) fun d hd =>
    IdTable.get_eq_some.mpr ⟨(mem_cycleQuery.mp hd).1, rfl⟩
  have hid : ∀ d : Delivery, (d.settle g now i (w.cycleQuery c)).id = d.id := by
    intro d
    unfold Delivery.settle
    split_ifs
    · exact Delivery.tried_id
    · rfl
  constructor
  · intro hd'
    have hfound := hget d'.id
    rw [IdTable.get_eq_some.mpr ⟨hd', rfl⟩] at hfound
    obtain ⟨d, hd, hd'⟩ := Option.map_eq_some_iff.mp hfound.symm
    exact ⟨d, (IdTable.get_eq_some.mp hd).1, hd'.symm⟩
  · rintro ⟨d, hd, rfl⟩
    have hfound := hget d.id
    rw [IdTable.get_eq_some.mpr ⟨hd, rfl⟩, Option.map_some] at hfound
    exact (IdTable.get_eq_some.mp hfound).1

/-- Among rows of different ids at most one is of an id. -/
theorem filter_id_eq {rows : List Delivery} (hnodup : (rows.map Delivery.id).Nodup) (d : Delivery)
    (hd : ∀ r ∈ rows, r.id = d.id → r = d) :
    (rows.filter fun r => r.id = d.id) = if d ∈ rows then [d] else [] := by
  induction rows with
  | nil => rfl
  | cons r rows ih =>
    obtain ⟨hr, hnodup⟩ := List.nodup_cons.mp hnodup
    have ih := ih hnodup fun r' hr' => hd r' (List.mem_cons_of_mem _ hr')
    by_cases hid : r.id = d.id
    · obtain rfl := hd r List.mem_cons_self hid
      have hout : r ∉ rows := fun hmem => hr (List.mem_map_of_mem hmem)
      rw [if_neg hout] at ih
      simp [ih]
    · have hne : d ≠ r := fun heq => hid (heq ▸ rfl)
      simp [hid, ih, hne]

/-- The calls of a row grow by one exactly when it is due in its cycle. -/
theorem callsOf_tryDue (hd : d ∈ w.deliveries.rows) :
    (w.tryDue g now i (w.cycleQuery c)).callsOf d.id = w.callsOf d.id ++
      if d ∈ w.cycleQuery c ∧ d.isDue now = true
        then [d.call now (deliverRecoveryTarget g d i)] else [] := by
  -- the row takes part in its own attempt only
  have honly := filter_id_eq (cycleQuery_nodup w c) d fun r hr hid =>
    IdTable.eq_of_id (mem_cycleQuery.mp hr).1 hd hid
  unfold World.callsOf
  rw [tryDue_calls, List.filter_append]
  congr 1
  rw [List.filter_map, List.filter_filter]
  have hcomm : ((w.cycleQuery c).filter fun r =>
      ((fun call : Call => decide (call.delivery = d.id)) ∘ fun r : Delivery =>
        r.call now (deliverRecoveryTarget g r i)) r && r.isDue now) =
      ((w.cycleQuery c).filter fun r => r.id = d.id).filter fun r => r.isDue now := by
    rw [List.filter_filter]
    refine List.filter_congr fun r _ => ?_
    show (decide (r.id = d.id) && _) = _
    rw [Bool.and_comm]
  rw [hcomm, honly]
  by_cases hmem : d ∈ w.cycleQuery c
  · cases hdue : d.isDue now <;> simp [hmem, hdue]
  · simp [hmem]

/-! ## The rounds of a cycle -/

def Call.Failed (call : Call) : Prop := ∃ error, call.answer = .error error

/-- The last attempt told the target, or found nothing to tell; those before it failed. -/
def Answered (d : Delivery) (log : List Call) : Prop :=
  ∃ before last sent, log = before ++ [last] ∧ (∀ call ∈ before, call.Failed) ∧
    last.answer = .ok (d.status, sent) ∧ d.deliveredCount = sent.toNat ∧
    d.deliveredAt = if d.status = .sent then some last.time else none

/-- What the attempts on a row say about its status. -/
def Verdict (rounds : List ℕ) (due : ℕ) (d : Delivery) (log : List Call) : Prop :=
  match d.status with
  | .pending => log.map Call.time = rounds ∧ log.length < recoveryMaxAttempts ∧
      (∀ call ∈ log, call.Failed) ∧ d.nextAttemptAt = due
  | .cancelled => log.length < recoveryMaxAttempts ∧ ∀ call ∈ log, call.Failed
  | .failed => log.length = recoveryMaxAttempts ∧ ∀ call ∈ log, call.Failed
  | .sent => Answered d log
  | .skipped => Answered d log

/-- A row says what the attempts on it came to. They were made in the first rounds, in each of
these one. -/
structure Reads (rounds : List ℕ) (due : ℕ) (log : List Call) (d : Delivery) : Prop where
  own : ∀ call ∈ log, call.cycle = d.cycle ∧ call.target = d.target
  attempts : d.attempts = log.length
  times : log.map Call.time <+: rounds
  verdict : Verdict rounds due d log

/-- The time from a round to the next, by the number of the rounds before it. -/
def backoff (n : ℕ) : ℕ := seconds (retrySeconds (n + 1))

/-- The attempts of a cycle were made in rounds, and the rows that are open are due together. -/
structure Rounds (w : World) (c : Cycle) (rounds : List ℕ) (due : ℕ) : Prop where
  few : rounds.length ≤ recoveryMaxAttempts
  spaced : Spaced backoff rounds
  wait : ∀ t ∈ rounds.getLast?, due = t + backoff (rounds.length - 1)
  rows : ∀ d ∈ w.deliveries.rows, d.cycle = c → Reads rounds due (w.callsOf d.id) d

/-- A fresh row reads as no attempt. -/
theorem Reads.fresh (c : Cycle) (now id : ℕ) (target : Target) :
    Reads [] now [] (.fresh c now id target) where
  own := by simp
  attempts := rfl
  times := List.prefix_rfl
  verdict := ⟨rfl, by decide, by simp, rfl⟩

/-- A round that does not try a row. -/
theorem Reads.rested {due' : ℕ} (h : Reads rounds due log d) (hd : d.status ≠ .pending) :
    Reads (rounds ++ [now]) due' log d := by
  refine ⟨h.own, h.attempts, h.times.trans (List.prefix_append _ _), ?_⟩
  have hverdict := h.verdict
  unfold Verdict at hverdict ⊢
  cases hstatus : d.status with
  | pending => exact absurd hstatus hd
  | sent => simpa only [hstatus] using hverdict
  | skipped => simpa only [hstatus] using hverdict
  | failed => simpa only [hstatus] using hverdict
  | cancelled => simpa only [hstatus] using hverdict

/-- A round that tries it. -/
theorem Reads.tried (h : Reads rounds due log d) (hd : d.status = .pending)
    (ha : ∀ status sent, a = .ok (status, sent) → status = .sent ∨ status = .skipped) :
    Reads (rounds ++ [now]) (now + backoff rounds.length) (log ++ [d.call now a])
      (d.tried now a) := by
  have hverdict := h.verdict
  -- the row was pending, so all its attempts failed
  rw [Verdict, hd] at hverdict
  obtain ⟨htimes, hfew, hfailed, -⟩ := hverdict
  have hlength : log.length = rounds.length := by rw [← htimes, List.length_map]
  have hfailed' : ∀ error, a = .error error → ∀ call ∈ log ++ [d.call now a], call.Failed := by
    rintro error rfl call hcall
    rcases List.mem_append.mp hcall with hcall | hcall
    · exact hfailed call hcall
    · obtain rfl := List.mem_singleton.mp hcall
      exact ⟨error, rfl⟩
  have htimes' : (log ++ [d.call now a]).map Call.time = rounds ++ [now] := by
    rw [List.map_append, htimes]
    rfl
  refine ⟨?_, ?_, ?_, ?_⟩
  · intro call hcall
    rw [Delivery.tried_cycle, Delivery.tried_target]
    rcases List.mem_append.mp hcall with hcall | hcall
    · exact h.own call hcall
    · obtain rfl := List.mem_singleton.mp hcall
      exact ⟨rfl, rfl⟩
  · rw [Delivery.tried_attempts, h.attempts, List.length_append, List.length_singleton]
  · exact htimes' ▸ List.prefix_rfl
  · unfold Verdict
    -- the attempt fails, for the last time or not, or it is answered
    cases a with
    | error error =>
      by_cases hlast : recoveryMaxAttempts ≤ d.attempts + 1
      · rw [Delivery.tried_error_last hlast]
        refine ⟨?_, hfailed' error rfl⟩
        rw [List.length_append, List.length_singleton]
        have := h.attempts
        omega
      · rw [Delivery.tried_error (Nat.not_le.mp hlast), hd]
        refine ⟨htimes', ?_, hfailed' error rfl, ?_⟩
        · rw [List.length_append, List.length_singleton, ← h.attempts]
          exact Nat.not_le.mp hlast
        · show now + seconds (retrySeconds (d.attempts + 1)) = now + backoff rounds.length
          rw [h.attempts, hlength]
          rfl
    | ok answer =>
      obtain ⟨status, sent⟩ := answer
      have hanswered : Answered (d.tried now (.ok (status, sent)))
          (log ++ [d.call now (.ok (status, sent))]) :=
        ⟨log, _, sent, rfl, hfailed, rfl, rfl, rfl⟩
      rw [Delivery.tried_ok]
      rcases ha status sent rfl with rfl | rfl
      · exact hanswered
      · exact hanswered

/-- The rows that are open are due together. -/
theorem Reads.isDue_iff (h : Reads rounds due log d) :
    d.isDue now = true ↔ d.status = .pending ∧ due ≤ now := by
  unfold Delivery.isDue
  rw [Bool.and_eq_true, decide_eq_true_iff, decide_eq_true_iff]
  refine and_congr_right fun hd => ?_
  have hverdict := h.verdict
  rw [Verdict, hd] at hverdict
  rw [hverdict.2.2.2]

/-! ## What keeps the rounds -/

/-- A cycle whose rows and attempts stay. -/
theorem Rounds.of_rows (h : Rounds w c rounds due)
    (hrows : ∀ d ∈ w'.deliveries.rows, d.cycle = c →
      d ∈ w.deliveries.rows ∧ w'.callsOf d.id = w.callsOf d.id) : Rounds w' c rounds due := by
  refine ⟨h.few, h.spaced, h.wait, ?_⟩
  intro d hd hc
  obtain ⟨hmem, hcalls⟩ := hrows d hd hc
  rw [hcalls]
  exact h.rows d hmem hc

/-- A run tries all open rows of a cycle that are due, or none of them. -/
theorem Rounds.tryDue (h : Rounds w c rounds due) :
    ∃ rounds' due', Rounds (w.tryDue g now i (w.cycleQuery c)) c rounds' due' := by
  by_cases hdue : ∃ d ∈ w.deliveries.rows, d.cycle = c ∧ d.isDue now = true
  · -- one row is due, so that all that are open are
    obtain ⟨r, hr, hrc, hrdue⟩ := hdue
    have hread := h.rows r hr hrc
    obtain ⟨hpending, hnow⟩ := hread.isDue_iff.mp hrdue
    have hverdict := hread.verdict
    rw [Verdict, hpending] at hverdict
    obtain ⟨htimes, hfew, -, -⟩ := hverdict
    have hlength : rounds.length < recoveryMaxAttempts := by
      rw [← htimes, List.length_map]
      exact hfew
    refine ⟨rounds ++ [now], now + backoff rounds.length, ?_, ?_, ?_, ?_⟩
    · rw [List.length_append, List.length_singleton]
      omega
    · refine h.spaced.concat fun t ht => ?_
      have := h.wait t ht
      omega
    -- the next round waits from this one on
    · intro t ht
      rw [List.getLast?_concat] at ht
      obtain rfl := Option.some.inj ht
      simp
    -- every row that is open is tried in it
    · intro d' hd' hc
      obtain ⟨d, hd, rfl⟩ := mem_tryDue.mp hd'
      by_cases hdc : d ∈ w.cycleQuery c ∧ d.isDue now = true
      · have hsettle : d.settle g now i (w.cycleQuery c) =
            d.tried now (deliverRecoveryTarget g d i) := if_pos hdc
        rw [hsettle, Delivery.tried_id, callsOf_tryDue hd, if_pos hdc]
        have hread := h.rows d hd (mem_cycleQuery.mp hdc.1).2
        exact hread.tried (hread.isDue_iff.mp hdc.2).1 fun _ _ => deliverRecoveryTarget_ok
      · have hsettle : d.settle g now i (w.cycleQuery c) = d := if_neg hdc
        rw [hsettle] at hc ⊢
        rw [callsOf_tryDue hd, if_neg hdc, List.append_nil]
        have hread := h.rows d hd hc
        refine hread.rested fun hstatus => hdc ⟨mem_cycleQuery.mpr ⟨hd, hc⟩, ?_⟩
        exact hread.isDue_iff.mpr ⟨hstatus, hnow⟩
  -- no row is due, so nothing is tried
  · refine ⟨rounds, due, h.of_rows ?_⟩
    intro d' hd' hc
    obtain ⟨d, hd, rfl⟩ := mem_tryDue.mp hd'
    have hdc : ¬(d ∈ w.cycleQuery c ∧ d.isDue now = true) := by
      rintro ⟨hmem, hnow⟩
      exact hdue ⟨d, hd, (mem_cycleQuery.mp hmem).2, hnow⟩
    have hsettle : d.settle g now i (w.cycleQuery c) = d := if_neg hdc
    rw [hsettle, callsOf_tryDue hd, if_neg hdc, List.append_nil]
    exact ⟨hd, rfl⟩

/-- The attempts for another cycle leave the rounds of this one. -/
theorem Rounds.tryDue_other {c' : Cycle} (h : Rounds w c' rounds due) (hne : c' ≠ c) :
    Rounds (w.tryDue g now i (w.cycleQuery c)) c' rounds due := by
  refine h.of_rows ?_
  intro d' hd' hc
  obtain ⟨d, hd, rfl⟩ := mem_tryDue.mp hd'
  have hdc : ¬(d ∈ w.cycleQuery c ∧ d.isDue now = true) := by
    rintro hdc
    have hsettle : d.settle g now i (w.cycleQuery c) =
        d.tried now (deliverRecoveryTarget g d i) := if_pos hdc
    rw [hsettle, Delivery.tried_cycle] at hc
    exact hne (hc.symm.trans (mem_cycleQuery.mp hdc.1).2)
  have hsettle : d.settle g now i (w.cycleQuery c) = d := if_neg hdc
  rw [hsettle, callsOf_tryDue hd, if_neg hdc, List.append_nil]
  exact ⟨hd, rfl⟩

/-- The rows that a snapshot writes. -/
theorem addDelivery_rows (targets : List Target) (t : IdTable Delivery Delivery.id) :
    (targets.foldl (addDelivery c now) t).rows =
      t.rows ++ targets.mapIdx fun k target => .fresh c now (t.next + k) target := by
  induction targets generalizing t with
  | nil => exact (List.append_nil _).symm
  | cons target targets ih =>
    rw [List.foldl_cons, ih, List.mapIdx_cons]
    show (t.rows ++ [_]) ++ _ = t.rows ++ (_ :: _)
    rw [List.append_assoc]
    simp [addDelivery, IdTable.insert, Nat.add_assoc, Nat.add_comm 1]

theorem addDelivery_next (targets : List Target) (t : IdTable Delivery Delivery.id) :
    (targets.foldl (addDelivery c now) t).next = t.next + targets.length := by
  induction targets generalizing t with
  | nil => rfl
  | cons target targets ih =>
    rw [List.foldl_cons, ih, List.length_cons]
    show t.next + 1 + targets.length = _
    omega

/-- A snapshot that is taken writes the targets of a cycle without rows. -/
theorem snapshot_cases (h : w.snapshotRecoveryTargets g now i = some w') :
    w' = w ∨ ∃ resolvedAt, g.resolvedAt = some resolvedAt ∧ w.cycleQuery ⟨g.id, resolvedAt⟩ = [] ∧
      w' = { w with
        deliveries :=
          (recoveryTargets g i).foldl (addDelivery ⟨g.id, resolvedAt⟩ now) w.deliveries } := by
  unfold World.snapshotRecoveryTargets at h
  cases hresolved : g.resolvedAt with
  | none =>
    rw [hresolved] at h
    dsimp only at h
    split_ifs at h
    exact .inl (Option.some.inj h).symm
  | some resolvedAt =>
    rw [hresolved] at h
    dsimp only at h
    split_ifs at h with hrows
    · exact .inl (Option.some.inj h).symm
    · exact .inr ⟨resolvedAt, rfl, not_not.mp hrows, (Option.some.inj h).symm⟩

end IncidentRelay.Recovery
