import IncidentRelay.Auth.LoginThrottle

/-!
# What the throttle bounds

A request is in flight on a key from the moment it passes the check of the key until its
failure is counted, or until its password turns out to be right. Where no more requests are
in flight than failures are left, and nobody writes a row between the moment another request
reads and the moment it writes it (`Orderly`), the failures of a window are bounded, each of
them is counted, and no password is verified against a blocked key (`throttle_bounds`).
-/

namespace IncidentRelay.Auth

/-! ## Requests in flight -/

/-- In flight on the key of the scope. -/
def Pc.holds (scope : Scope) : Pc → Bool
  | .checking _ .account false => scope = .ip
  | .verifying => true
  | .failed => true
  | .recording _ .ip _ => true
  | .recording _ .account _ => scope = .account
  | _ => false

/-- The password was wrong, and this is not counted yet for the key of the scope. -/
def Pc.pends (scope : Scope) : Pc → Bool
  | .failed => true
  | .recording _ .ip _ => true
  | .recording _ .account _ => scope = .account
  | _ => false

def Request.inFlight (k : Key) (r : Request) : Bool := r.key k.scope = k && r.pc.holds k.scope

def Request.isPending (k : Key) (r : Request) : Bool := r.key k.scope = k && r.pc.pends k.scope

namespace State

variable (policy : Scope → Policy) (s : State) (k : Key)

def inFlight : ℕ := s.requests.countP (Request.inFlight k)

def pending : ℕ := s.requests.countP (Request.isPending k)

/-- The row of the key, while its window lasts. -/
def openRow : Option Row :=
  (s.table k).filter fun row => !row.isOver (policy k.scope) s.clock

/-- The failures in the row of the key, while its window lasts. -/
def openCount : ℕ := ((s.openRow policy k).map (·.failureCount)).getD 0

/-- The failed checks in the window of the key since it was last blocked: those that are counted
and those that are not counted yet. -/
def failuresInWindow : ℕ :=
  (if (s.openRow policy k).isSome then s.counted k else 0) + s.pending k

end State

/-! ## What is bounded -/

/-- What the throttle promises of a statement of a request. -/
def BoundedAt (policy : Scope → Policy) (s t : State) (r : Request) (correct : Bool) : Prop :=
  match r.pc with
  | .verifying =>
    -- no password is verified against a blocked key, and a wrong one is within the limit
    ∀ scope, s.blockedUntil (r.key scope) ≤ s.clock ∧
      (correct = false → t.failuresInWindow policy (r.key scope) ≤ (policy scope).maxFailures)
  | .recording _ scope (.fetch _) =>
    -- the row that was in the way of a new one is still there
    ∃ row, s.table (r.key scope) = some row
  | .recording _ scope (.read id) =>
    -- the failure can be counted
    ∃ row, s.table (r.key scope) = some row ∧ row.id = id
  | .recording now scope (.save _) =>
    -- what is there is counted one up
    ∃ row, s.table (r.key scope) = some row ∧
      t.table (r.key scope) = some (row.countFailure (policy scope) now)
  | .purging _ =>
    -- only what is over is deleted
    ∀ k row, s.table k = some row → t.table k = none → row.isOver (policy k.scope) s.clock = true
  | _ => True

def Bounded (policy : Scope → Policy) (s : State) : Label → Prop
  | .advance i correct => ∀ r, s.requests[i]? = some r →
      BoundedAt policy s (step policy s (.advance i correct)) r correct
  | _ => True

/-! ## Orderly runs -/

/-- The request is between finding the row of the key and writing it. -/
def Request.isReading (k : Key) (r : Request) : Bool :=
  r.key k.scope = k &&
    match r.pc with
    | .recording _ scope (.fetch _) => scope = k.scope
    | .recording _ scope (.read _) => scope = k.scope
    | .recording _ scope (.save _) => scope = k.scope
    | _ => false

def Request.isSaving (k : Key) (r : Request) : Bool :=
  r.key k.scope = k &&
    match r.pc with
    | .recording _ scope (.save _) => scope = k.scope
    | _ => false

/-- One more request can fail on the key. -/
def State.HasRoom (policy : Scope → Policy) (s : State) (k : Key) : Prop :=
  s.inFlight k = 0 ∨ s.openCount policy k + s.inFlight k < (policy k.scope).maxFailures

/-- The failure of the request is counted before the window of its row ends, and before a
window has passed. -/
def Punctual (policy : Scope → Policy) (s : State) (clock : ℕ) (r : Request) : Prop :=
  ∀ now scope phase, r.pc = .recording now scope phase → ∀ k, r.isPending k = true →
    clock < now + (policy k.scope).windowSeconds ∧
      ∀ row, s.table k = some row →
        row.isOver (policy k.scope) now = row.isOver (policy k.scope) clock

/-- What the other requests leave alone while a request takes its statement. -/
def OrderlyAt (policy : Scope → Policy) (s : State) (i : ℕ) (r : Request) : Prop :=
  match r.pc with
  | .checking now scope false =>
    (s.table (r.key scope)).any (·.blocks now) = true ∨ s.HasRoom policy (r.key scope)
  | .recording _ scope (.save _) =>
    ∀ j other, j ≠ i → s.requests[j]? = some other → other.isSaving (r.key scope) = false
  | .clearing =>
    (s.table (r.key .account)).any (·.blocks s.clock) = false ∧
      ∀ other ∈ s.requests, other.isReading (r.key .account) = false
  | .purging now =>
    ∀ k row, s.table k = some row → row.updatedAt + retentionSeconds < now →
      row.isOver (policy k.scope) s.clock = true ∧ row.blocks s.clock = false ∧
        ∀ other ∈ s.requests, other.isReading k = false
  | _ => True

def Orderly (policy : Scope → Policy) (s : State) : Label → Prop
  | .tick seconds => ∀ r ∈ s.requests, Punctual policy s (s.clock + seconds) r
  | .start _ _ => True
  | .advance i _ => ∀ r, s.requests[i]? = some r → OrderlyAt policy s i r

/-! ## The invariant -/

/-- What holds of a key. -/
structure KeyInv (policy : Scope → Policy) (s : State) (k : Key) : Prop where
  blocked : s.clock < s.blockedUntil k → s.inFlight k = 0 ∧
    ∃ row, s.table k = some row ∧ row.blockedUntil = some (s.blockedUntil k)
  room : s.openCount policy k + s.inFlight k ≤ (policy k.scope).maxFailures ∨ s.inFlight k ≤ 1
  counted : ∀ row, s.table k = some row → s.counted k ≤ row.failureCount ∧
    ((policy k.scope).maxFailures ≤ row.failureCount → s.counted k = 0)

/-- What holds of a request that counts a failure: it is of this moment, or not older than a
window, and it takes the window of the row for over when it is. -/
structure RecordInv (policy : Scope → Policy) (s : State) (now : ℕ) (k : Key) : Prop where
  past : now ≤ s.clock
  fresh : now = s.clock ∨ s.clock < now + (policy k.scope).windowSeconds
  agrees : ∀ row, s.table k = some row →
    row.isOver (policy k.scope) now = row.isOver (policy k.scope) s.clock

/-- What a request knows of the table. -/
structure RequestInv (policy : Scope → Policy) (s : State) (r : Request) : Prop where
  checking : ∀ now scope retry, r.pc = .checking now scope retry → now ≤ s.clock
  recording : ∀ now scope phase, r.pc = .recording now scope phase →
    ∀ k, r.isPending k = true → RecordInv policy s now k
  fetch : ∀ now scope again, r.pc = .recording now scope (.fetch again) →
    ∃ row, s.table (r.key scope) = some row
  read : ∀ now scope id, r.pc = .recording now scope (.read id) →
    ∃ row, s.table (r.key scope) = some row ∧ row.id = id
  save : ∀ now scope copy, r.pc = .recording now scope (.save copy) →
    s.table (r.key scope) = some copy

structure Inv (policy : Scope → Policy) (s : State) : Prop where
  keys : ∀ k, KeyInv policy s k
  requests : ∀ r ∈ s.requests, RequestInv policy s r

/-! ## Counting requests -/

section Counting

variable {s : State} {i : ℕ} {r : Request}

theorem mem_requests (hr : s.requests[i]? = some r) : r ∈ s.requests := List.mem_of_getElem? hr

/-- A request that is somewhere else is counted there and no longer here. -/
theorem countP_setPc (hr : s.requests[i]? = some r) (pc : Pc) (p : Request → Bool) :
    (s.setPc i r pc).requests.countP p + (p r).toNat =
      s.requests.countP p + (p { r with pc }).toNat := by
  obtain ⟨hi, rfl⟩ := List.getElem?_eq_some_iff.mp hr
  show (s.requests.set i _).countP p + _ = _
  rw [List.countP_set hi]
  cases hold : p s.requests[i] with
  | false => cases p { s.requests[i] with pc } <;> simp
  | true =>
    have hpos : 0 < s.requests.countP p :=
      List.countP_pos_iff.mpr ⟨_, List.getElem_mem hi, hold⟩
    cases p { s.requests[i] with pc } <;> simp <;> omega

theorem inFlight_setPc (hr : s.requests[i]? = some r) (pc : Pc) (k : Key) :
    (s.setPc i r pc).inFlight k + (r.inFlight k).toNat =
      s.inFlight k + (({ r with pc } : Request).inFlight k).toNat := countP_setPc hr pc _

theorem pending_setPc (hr : s.requests[i]? = some r) (pc : Pc) (k : Key) :
    (s.setPc i r pc).pending k + (r.isPending k).toNat =
      s.pending k + (({ r with pc } : Request).isPending k).toNat := countP_setPc hr pc _

theorem inFlight_pos (hr : s.requests[i]? = some r) {k : Key} (h : r.inFlight k = true) :
    1 ≤ s.inFlight k := List.countP_pos_iff.mpr ⟨r, mem_requests hr, h⟩

/-- What is pending is in flight. -/
theorem Pc.holds_of_pends {scope : Scope} {pc : Pc} (h : pc.pends scope = true) :
    pc.holds scope = true := by
  cases pc with
  | recording now at_ phase => cases at_ <;> exact h
  | failed => rfl
  | _ => cases h

/-- What is pending is in flight. -/
theorem Request.inFlight_of_pending {k : Key} (h : r.isPending k = true) : r.inFlight k = true := by
  unfold isPending at h
  unfold inFlight
  rw [Bool.and_eq_true] at h ⊢
  exact ⟨h.1, Pc.holds_of_pends h.2⟩

/-- A request that is in flight and not pending is in flight beside those that are. -/
theorem pending_lt_inFlight (hr : s.requests[i]? = some r) {k : Key} (hflight : r.inFlight k = true)
    (hpending : r.isPending k = false) : s.pending k + 1 ≤ s.inFlight k := by
  have hmoved := pending_setPc hr .failed k
  have hmovedFlight := inFlight_setPc hr .failed k
  have hkey : r.key k.scope = k := of_decide_eq_true (Bool.and_eq_true_iff.mp hflight).1
  have hboth : ({ r with pc := .failed } : Request).isPending k = true ∧
      ({ r with pc := .failed } : Request).inFlight k = true := by
    have hkey' : ({ r with pc := .failed } : Request).key k.scope = k := hkey
    constructor
    · simp [Request.isPending, hkey', Pc.pends]
    · simp [Request.inFlight, hkey', Pc.holds]
  rw [hboth.1, hpending] at hmoved
  rw [hboth.2, hflight] at hmovedFlight
  have hle : (s.setPc i r .failed).pending k ≤ (s.setPc i r .failed).inFlight k :=
    List.countP_mono_left fun other _ => Request.inFlight_of_pending
  simp only [Bool.toNat_true, Bool.toNat_false] at hmoved hmovedFlight
  omega

end Counting

/-! ## Statements that write no row -/

section Reads

variable {policy : Scope → Policy} {s : State} {i : ℕ} {r : Request}

/-- What a request knows depends on the clock and the table. -/
theorem RequestInv.of_eq {t : State} {other : Request} (h : RequestInv policy s other)
    (hclock : t.clock = s.clock) (htable : t.table = s.table) : RequestInv policy t other where
  checking := by
    rw [hclock]
    exact h.checking
  recording now scope phase hpc k hpending := by
    obtain ⟨hpast, hfresh, hagrees⟩ := h.recording now scope phase hpc k hpending
    exact ⟨hclock ▸ hpast, hclock ▸ hfresh, by rw [hclock, htable]; exact hagrees⟩
  fetch := by
    rw [htable]
    exact h.fetch
  read := by
    rw [htable]
    exact h.read
  save := by
    rw [htable]
    exact h.save

/-- After a step each request is the one that moved or one that was there. -/
theorem mem_setPc {pc : Pc} {other : Request} (h : other ∈ (s.setPc i r pc).requests) :
    other = { r with pc } ∨ ∃ j, j ≠ i ∧ s.requests[j]? = some other := by
  obtain ⟨j, hj⟩ := List.mem_iff_getElem?.mp h
  have hset : (s.requests.set i { r with pc })[j]? = some other := hj
  rw [List.getElem?_set] at hset
  split at hset
  · split at hset
    · exact .inl (Option.some.inj hset).symm
    · cases hset
  · next hne => exact .inr ⟨j, fun heq => hne heq.symm, hset⟩

/-- What holds of a key depends on its row and on what is in flight. -/
theorem KeyInv.mono {t : State} {k : Key} (h : KeyInv policy s k) (hclock : t.clock = s.clock)
    (htable : t.table k = s.table k) (huntil : t.blockedUntil k = s.blockedUntil k)
    (hghost : t.counted k = s.counted k) (hle : t.inFlight k ≤ s.inFlight k) :
    KeyInv policy t k := by
  obtain ⟨hblocked, hroom, hcounted⟩ := h
  have hopen : t.openCount policy k = s.openCount policy k := by
    unfold State.openCount State.openRow
    rw [htable, hclock]
  refine ⟨?_, ?_, ?_⟩
  · rw [hclock, huntil, htable]
    intro hlasts
    obtain ⟨hnone, hrow⟩ := hblocked hlasts
    exact ⟨by omega, hrow⟩
  · rw [hopen]
    omega
  · rw [htable, hghost]
    exact hcounted

/-- A request that goes on, on no key that it was not in flight on. -/
theorem Inv.setPc (h : Inv policy s) (hr : s.requests[i]? = some r) {pc : Pc}
    (hle : ∀ k, ({ r with pc } : Request).inFlight k = true → r.inFlight k = true ∨
      (s.blockedUntil k ≤ s.clock ∧ s.HasRoom policy k))
    (hnew : RequestInv policy s { r with pc }) : Inv policy (s.setPc i r pc) where
  keys k := by
    -- how many are let through changes by this request only
    have hcount := inFlight_setPc hr pc k
    cases hflight : ({ r with pc } : Request).inFlight k with
    | false =>
      rw [hflight] at hcount
      exact (h.keys k).mono rfl rfl rfl rfl (by simp only [Bool.toNat_false] at hcount; omega)
    | true =>
      rw [hflight] at hcount
      rcases hle k hflight with hbefore | ⟨hfree, hmore⟩
      · rw [hbefore] at hcount
        exact (h.keys k).mono rfl rfl rfl rfl (by omega)
      · -- it is let through now
        have hone : (r.inFlight k).toNat ≤ 1 := Bool.toNat_le _
        have hsame : (s.setPc i r pc).openCount policy k = s.openCount policy k := rfl
        refine ⟨fun hclock => absurd hclock (Nat.not_lt.mpr hfree), ?_, (h.keys k).counted⟩
        rw [hsame]
        simp only [Bool.toNat_true] at hcount
        unfold State.HasRoom at hmore
        omega
  requests other hother := by
    -- the other requests are as before
    rcases mem_setPc hother with rfl | ⟨j, -, hother⟩
    · exact hnew.of_eq rfl rfl
    · exact (h.requests other (mem_requests hother)).of_eq rfl rfl

end Reads

/-! ## Statements that write a row -/

section Writes

variable {policy : Scope → Policy} {s : State} {i : ℕ} {r : Request} {k : Key}

/-- The count of a row matters as long as its window is open. -/
theorem openCount_of_some {row : Row} (h : s.table k = some row) :
    s.openCount policy k =
      if row.isOver (policy k.scope) s.clock = true then 0 else row.failureCount := by
  unfold State.openCount State.openRow
  rw [h]
  cases hover : row.isOver (policy k.scope) s.clock <;> simp [Option.filter, hover]

theorem openCount_of_none (h : s.table k = none) : s.openCount policy k = 0 := by
  unfold State.openCount State.openRow
  rw [h]
  rfl

/-- A failure is written: the row, what is kept for the record, and where the request goes. -/
def written (p : Policy) (s : State) (i : ℕ) (r : Request) (k : Key) (opened : Bool) (now : ℕ)
    (row : Row) (pc : Pc) : State :=
  ((s.note p k opened now row).setRow k (some row)).setPc i r pc

/-- What is written is a window that begins, or one more failure in the window of the row. -/
structure Counts (policy : Scope → Policy) (s : State) (k : Key) (opened : Bool) (now : ℕ)
    (row : Row) : Prop where
  opens : opened = true → row.failureCount = 1 ∧ row.windowStartedAt = now ∧
    s.openCount policy k = 0
  continues : opened = false → ∃ old, s.table k = some old ∧
    row.failureCount = old.failureCount + 1 ∧ row.windowStartedAt = old.windowStartedAt ∧
    s.openCount policy k = old.failureCount
  blocks : (policy k.scope).maxFailures ≤ row.failureCount →
    row.blockedUntil = some ((policy k.scope).blockEnd now)
  sameId : ∀ old, s.table k = some old → old.id = row.id

/-- The counters of the key, when a request that was in flight has counted its failure. -/
theorem written_key (h : KeyInv policy s k)
    (hr : s.requests[i]? = some r) (hflight : r.inFlight k = true) {opened : Bool} {now : ℕ}
    {row : Row} {pc : Pc} (hpc : ({ r with pc } : Request).inFlight k = false)
    (hcounts : Counts policy s k opened now row) :
    KeyInv policy (written (policy k.scope) s i r k opened now row pc) k := by
  obtain ⟨hblocked, hroom, hcounted⟩ := h
  have hpos := inFlight_pos hr hflight
  have hcount : (written (policy k.scope) s i r k opened now row pc).inFlight k + 1 = s.inFlight k := by
    have hset := inFlight_setPc hr pc k
    rw [hflight, hpc] at hset
    exact hset
  have htable : (written (policy k.scope) s i r k opened now row pc).table k = some row :=
    Function.update_self _ _ _
  have huntil : (written (policy k.scope) s i r k opened now row pc).blockedUntil k =
      if (policy k.scope).maxFailures ≤ row.failureCount then (policy k.scope).blockEnd now
      else s.blockedUntil k := by
    show Function.update s.blockedUntil k _ k = _
    rw [Function.update_self]
    simp
  have hghost : (written (policy k.scope) s i r k opened now row pc).counted k =
      if (policy k.scope).maxFailures ≤ row.failureCount then 0
      else if opened then 1 else s.counted k + 1 := by
    show Function.update s.counted k _ k = _
    rw [Function.update_self]
    simp
  have hopen : (written (policy k.scope) s i r k opened now row pc).openCount policy k ≤
      row.failureCount := by
    rw [openCount_of_some htable]
    split <;> omega
  -- no block lasts while a request is in flight
  have hfree : ¬s.clock < s.blockedUntil k := by
    intro hclock
    have hnone := (hblocked hclock).1
    omega
  have hafter : row.failureCount + (written (policy k.scope) s i r k opened now row pc).inFlight k ≤
      (policy k.scope).maxFailures ∨
      (written (policy k.scope) s i r k opened now row pc).inFlight k = 0 := by
    cases opened with
    | true =>
      obtain ⟨hone, -, hclosed⟩ := hcounts.opens rfl
      omega
    | false =>
      obtain ⟨old, -, hmore, -, hopenOld⟩ := hcounts.continues rfl
      omega
  refine ⟨fun hclock => ?_, ?_, ?_⟩
  · rw [huntil] at hclock ⊢
    split at hclock
    · next hfull => exact ⟨by omega, row, htable, by rw [if_pos hfull, hcounts.blocks hfull]⟩
    · exact absurd hclock hfree
  · omega
  · rintro other hother
    cases htable.symm.trans hother
    rw [hghost]
    split
    · exact ⟨Nat.zero_le _, fun _ => rfl⟩
    · next hroomLeft =>
      refine ⟨?_, fun hfull => absurd hfull hroomLeft⟩
      cases opened with
      | true =>
        have hone := (hcounts.opens rfl).1
        simp [hone]
      | false =>
        obtain ⟨old, hold, hmore, -, -⟩ := hcounts.continues rfl
        have hle := (hcounted old hold).1
        simp only [Bool.false_eq_true, if_false]
        omega

/-- Behind the row of a scope a request holds the scopes that are left. -/
theorem nextRecord_holds {now : ℕ} {scope other : Scope} {phase : Phase}
    (h : (Pc.nextRecord now scope).holds other = true) :
    other ≠ scope ∧ (Pc.recording now scope phase).pends other = true := by
  cases scope with
  | ip =>
    have hother : other = .account := of_decide_eq_true h
    subst hother
    exact ⟨by decide, rfl⟩
  | account => cases h

/-- On to the next key. -/
theorem RequestInv.nextRecord {t : State} {now : ℕ} {scope : Scope}
    (h : ∀ k, ({ r with pc := .nextRecord now scope } : Request).isPending k = true →
      RecordInv policy t now k) : RequestInv policy t { r with pc := .nextRecord now scope } := by
  cases scope with
  | ip =>
    refine ⟨nofun, ?_, nofun, nofun, nofun⟩
    intro now' scope' phase' hpc k hpending
    cases hpc
    exact h k hpending
  | account => exact ⟨nofun, nofun, nofun, nofun, nofun⟩

/-- A row is over by its start. -/
theorem isOver_congr {p : Policy} {x y : Row} (h : x.windowStartedAt = y.windowStartedAt) (now : ℕ) :
    x.isOver p now = y.isOver p now := by
  unfold Row.isOver
  rw [h]

/-- Others that count a failure take a new window for what it is. -/
theorem RecordInv.written {now now' : ℕ} {opened : Bool} {row : Row} {pc : Pc}
    (hcounts : Counts policy s k opened now row) (hwriter : RecordInv policy s now k) {k' : Key}
    (h : RecordInv policy s now' k') :
    RecordInv policy (written (policy k.scope) s i r k opened now row pc) now' k' where
  past := h.past
  fresh := h.fresh
  agrees other hother := by
    have htable : (Auth.written (policy k.scope) s i r k opened now row pc).table k' =
        if k' = k then some row else s.table k' := Function.update_apply _ _ _ _
    rw [htable] at hother
    -- the row that is written is the one of the key, or none
    split at hother
    · next hsame =>
      subst hsame
      cases hother
      -- a window that was open has one failure more, else it begins with this one
      cases opened with
      | false =>
        obtain ⟨old, hold, -, hstart, -⟩ := hcounts.continues rfl
        have hagrees := h.agrees old hold
        rw [isOver_congr hstart, isOver_congr hstart]
        exact hagrees
      | true =>
        obtain ⟨-, hstart, -⟩ := hcounts.opens rfl
        have hpast := h.past
        have hfresh := h.fresh
        have hwriterPast := hwriter.past
        have hwriterFresh := hwriter.fresh
        unfold Row.isOver
        rw [hstart, decide_eq_decide]
        show _ ↔ now + _ ≤ s.clock
        omega
    · exact h.agrees other hother

/-- **A write of a request keeps the invariant**, as long as it counts, and nobody else is about
to save. -/
theorem Inv.written (h : Inv policy s) (hr : s.requests[i]? = some r) {now : ℕ} {phase : Phase}
    (hkey : r.key k.scope = k) (hpc : r.pc = .recording now k.scope phase) {opened : Bool}
    {row : Row} (hcounts : Counts policy s k opened now row)
    (hsaving : ∀ j other, j ≠ i → s.requests[j]? = some other → other.isSaving k = false) :
    Inv policy (written (policy k.scope) s i r k opened now row (.nextRecord now k.scope)) := by
  have hpending : ∀ k', r.key k'.scope = k' → (Pc.recording now k.scope phase).pends k'.scope = true →
      r.isPending k' = true := by
    intro k' hkey' hpends
    unfold Request.isPending
    rw [hkey', hpc, hpends]
    simp
  have hown : r.isPending k = true := by
    refine hpending k hkey ?_
    cases k.scope <;> rfl
  have hrecord := (h.requests r (mem_requests hr)).recording now k.scope phase hpc
  -- the request goes on with the keys that are left
  have hleft : ∀ k', ({ r with pc := .nextRecord now k.scope } : Request).inFlight k' = true →
      k' ≠ k ∧ r.isPending k' = true := by
    intro k' hflight
    obtain ⟨hkey', hholds⟩ := Bool.and_eq_true_iff.mp hflight
    obtain ⟨hne, hpends⟩ := @nextRecord_holds now k.scope k'.scope phase hholds
    exact ⟨fun heq => hne (congrArg Key.scope heq), hpending k' (of_decide_eq_true hkey') hpends⟩
  constructor
  · intro k'
    by_cases hk : k' = k
    · subst hk
      refine written_key (h.keys k') hr (Request.inFlight_of_pending hown) ?_ hcounts
      exact Bool.eq_false_iff.mpr fun hflight => (hleft k' hflight).1 rfl
    · have hcount := inFlight_setPc hr (.nextRecord now k.scope) k'
      have hle : ({ r with pc := .nextRecord now k.scope } : Request).inFlight k' ≤ r.inFlight k' := by
        intro hflight
        exact Request.inFlight_of_pending (hleft k' hflight).2
      refine (h.keys k').mono rfl (Function.update_of_ne hk _ _) (Function.update_of_ne hk _ _)
        (Function.update_of_ne hk _ _) ?_
      have htoNat := Bool.toNat_le_toNat hle
      show (s.setPc i r (.nextRecord now k.scope)).inFlight k' ≤ _
      omega
  · intro other hother
    rcases mem_setPc hother with rfl | ⟨j, hj, hother⟩
    · refine RequestInv.nextRecord fun k' hpending' => ?_
      exact RecordInv.written hcounts (hrecord k hown)
        (hrecord k' (hleft k' (Request.inFlight_of_pending hpending')).2)
    · have hinv := h.requests other (mem_requests hother)
      have htable : ∀ k', (Auth.written (policy k.scope) s i r k opened now row
          (.nextRecord now k.scope)).table k' = if k' = k then some row else s.table k' :=
        fun _ => Function.update_apply _ _ _ _
      refine ⟨hinv.checking, ?_, ?_, ?_, ?_⟩
      · intro now' scope' phase' hpc' k' hpending'
        exact RecordInv.written hcounts (hrecord k hown)
          (hinv.recording now' scope' phase' hpc' k' hpending')
      · intro now' scope' again hpc'
        obtain ⟨found, hfound⟩ := hinv.fetch now' scope' again hpc'
        rw [htable]
        split
        · exact ⟨row, rfl⟩
        · exact ⟨found, hfound⟩
      · intro now' scope' id hpc'
        obtain ⟨found, hfound, hid⟩ := hinv.read now' scope' id hpc'
        rw [htable]
        split
        · next hsame =>
          rw [hsame] at hfound
          exact ⟨row, rfl, (hcounts.sameId found hfound).symm.trans hid⟩
        · exact ⟨found, hfound, hid⟩
      · intro now' scope' copy hpc'
        rw [htable]
        split
        · next hsame =>
          -- nobody else is about to write the row
          have hquiet := hsaving j other hj hother
          have hscope : k.scope = scope' := by rw [← hsame, Request.key_scope]
          unfold Request.isSaving at hquiet
          rw [hscope, hsame, hpc'] at hquiet
          simp at hquiet
        · exact hinv.save now' scope' copy hpc'

/-! ## Statements that delete rows -/

/-- Rows are deleted that are over for everybody. -/
theorem Inv.delete (h : Inv policy s) {t : State} (hclock : t.clock = s.clock)
    (hrequests : t.requests = s.requests) (huntil : t.blockedUntil = s.blockedUntil)
    (hrows : ∀ k, t.table k = s.table k ∧ t.counted k = s.counted k ∨
      t.table k = none ∧ (∀ row, s.table k = some row → row.blocks s.clock = false) ∧
        ∀ other ∈ s.requests, other.isReading k = false) : Inv policy t := by
  have hflight : ∀ k, t.inFlight k = s.inFlight k := by
    intro k
    unfold State.inFlight
    rw [hrequests]
  constructor
  · intro k
    rcases hrows k with ⟨htable, hcounted⟩ | ⟨htable, hfree, -⟩
    · exact (h.keys k).mono hclock htable (congrFun huntil k) hcounted (hflight k).le
    · refine ⟨?_, ?_, ?_⟩
      · rw [hclock, huntil]
        intro hlasts
        obtain ⟨-, row, hrow, hblocked⟩ := (h.keys k).blocked hlasts
        have hblocks := hfree row hrow
        unfold Row.blocks at hblocks
        rw [hblocked] at hblocks
        exact absurd hlasts (of_decide_eq_false hblocks)
      · have hroom := (h.keys k).room
        rw [openCount_of_none htable, hflight]
        omega
      · intro row hrow
        cases htable.symm.trans hrow
  · intro other hother
    rw [hrequests] at hother
    have hinv := h.requests other hother
    -- a row that a request relies on stays
    have hkept : ∀ scope, other.isReading (other.key scope) = true →
        t.table (other.key scope) = s.table (other.key scope) := by
      intro scope hreading
      rcases hrows (other.key scope) with ⟨htable, -⟩ | ⟨-, -, hquiet⟩
      · exact htable
      · rw [hquiet other hother] at hreading
        cases hreading
    refine ⟨?_, ?_, ?_, ?_, ?_⟩
    · rw [hclock]
      exact hinv.checking
    · intro now scope phase hpc k hpending
      obtain ⟨hpast, hfresh, hagrees⟩ := hinv.recording now scope phase hpc k hpending
      refine ⟨hclock ▸ hpast, hclock ▸ hfresh, ?_⟩
      intro row hrow
      rw [hclock]
      rcases hrows k with ⟨htable, -⟩ | ⟨htable, -, -⟩
      · exact hagrees row (htable ▸ hrow)
      · cases htable.symm.trans hrow
    · intro now scope again hpc
      rw [hkept scope (by simp [Request.isReading, hpc])]
      exact hinv.fetch now scope again hpc
    · intro now scope id hpc
      rw [hkept scope (by simp [Request.isReading, hpc])]
      exact hinv.read now scope id hpc
    · intro now scope copy hpc
      rw [hkept scope (by simp [Request.isReading, hpc])]
      exact hinv.save now scope copy hpc

end Writes

/-! ## One statement -/

section Statements

variable {policy : Scope → Policy} {s : State} {i : ℕ} {r : Request}

/-- A row that does not block a check says that no block lasts. -/
theorem unblocked_of_check {k : Key} {now : ℕ} (h : KeyInv policy s k) (hnow : now ≤ s.clock)
    (hpasses : (s.table k).any (·.blocks now) = false) : s.blockedUntil k ≤ s.clock := by
  by_contra hlasts
  obtain ⟨-, row, hrow, hblocked⟩ := h.blocked (Nat.lt_of_not_le hlasts)
  rw [hrow] at hpasses
  have hpast : ¬now < s.blockedUntil k := by simpa [Row.blocks, hblocked] using hpasses
  omega

/-- A request that knows nothing of the table. -/
theorem RequestInv.idle {pc : Pc} (hchecking : ∀ now scope retry, pc = .checking now scope retry →
    now ≤ s.clock) (hrecording : ∀ now scope phase, pc ≠ .recording now scope phase) :
    RequestInv policy s { r with pc } where
  checking := hchecking
  recording now scope phase hpc := absurd hpc (hrecording now scope phase)
  fetch now scope _ hpc := absurd hpc (hrecording now scope _)
  read now scope _ hpc := absurd hpc (hrecording now scope _)
  save now scope _ hpc := absurd hpc (hrecording now scope _)

/-- The check of the address keeps the invariant. -/
theorem checkIp_inv (h : Inv policy s) (hr : s.requests[i]? = some r) {now : ℕ} {retry : Bool}
    (hpc : r.pc = .checking now .ip retry) (horderly : OrderlyAt policy s i r) :
    Inv policy (s.setPc i r (.checking now .account
      (retry || (s.table (r.key .ip)).any (·.blocks now)))) := by
  have hnow := (h.requests r (mem_requests hr)).checking now .ip retry hpc
  refine h.setPc hr ?_ (.idle (fun now' _ _ heq => by cases heq; exact hnow) nofun)
  intro k hflight
  obtain ⟨hkey, hholds⟩ := Bool.and_eq_true_iff.mp hflight
  -- the address blocks, and the request goes no further for it
  cases hstops : retry || (s.table (r.key .ip)).any (·.blocks now) with
  | true =>
    rw [hstops] at hholds
    cases hholds
  -- or it has room for one request more
  | false =>
    rw [hstops] at hholds
    obtain ⟨hretry, hpasses⟩ := Bool.or_eq_false_iff.mp hstops
    subst hretry
    have hk : r.key .ip = k := by
      rw [← of_decide_eq_true hkey, of_decide_eq_true hholds]
      rfl
    unfold OrderlyAt at horderly
    rw [hpc] at horderly
    dsimp only at horderly
    rw [hpasses, hk] at horderly
    rw [hk] at hpasses
    exact .inr ⟨unblocked_of_check (h.keys k) hnow hpasses, horderly.resolve_left Bool.false_ne_true⟩

/-- And so does that of the account, behind which the password is verified. -/
theorem checkAccount_inv (h : Inv policy s) (hr : s.requests[i]? = some r) {now : ℕ} {retry : Bool}
    (hpc : r.pc = .checking now .account retry) (horderly : OrderlyAt policy s i r) :
    Inv policy (s.setPc i r
      (if retry || (s.table (r.key .account)).any (·.blocks now) then .done else .verifying)) := by
  have hnow := (h.requests r (mem_requests hr)).checking now .account retry hpc
  cases hstops : retry || (s.table (r.key .account)).any (·.blocks now) with
  | true =>
    refine h.setPc hr (fun k hflight => ?_) (.idle nofun nofun)
    obtain ⟨-, hholds⟩ := Bool.and_eq_true_iff.mp hflight
    cases hholds
  | false =>
    obtain ⟨hretry, hpasses⟩ := Bool.or_eq_false_iff.mp hstops
    subst hretry
    refine h.setPc hr (fun k hflight => ?_) (.idle nofun nofun)
    have hkey : r.key k.scope = k := of_decide_eq_true (Bool.and_eq_true_iff.mp hflight).1
    cases hscope : k.scope with
    | ip =>
      -- it was let through before
      refine .inl ?_
      unfold Request.inFlight
      rw [hkey, hpc, hscope]
      simp [Pc.holds]
    | account =>
      rw [hscope] at hkey
      unfold OrderlyAt at horderly
      rw [hpc] at horderly
      dsimp only at horderly
      rw [hpasses, hkey] at horderly
      rw [hkey] at hpasses
      exact .inr ⟨unblocked_of_check (h.keys k) hnow hpasses,
        horderly.resolve_left Bool.false_ne_true⟩

/-- The password is verified: the request is in flight on both keys. -/
theorem verify_bounded (hon : ∀ scope, 0 < (policy scope).maxFailures) (h : Inv policy s)
    (hr : s.requests[i]? = some r) (hpc : r.pc = .verifying) (scope : Scope) :
    s.blockedUntil (r.key scope) ≤ s.clock ∧
      (s.setPc i r .failed).failuresInWindow policy (r.key scope) ≤ (policy scope).maxFailures := by
  have hkey : r.key (r.key scope).scope = r.key scope := by rw [Request.key_scope]
  have hflight : r.inFlight (r.key scope) = true := by
    unfold Request.inFlight
    rw [hkey, hpc]
    simp [Pc.holds]
  have hwaits : r.isPending (r.key scope) = false := by
    unfold Request.isPending
    rw [hpc]
    simp [Pc.pends]
  have hpos := inFlight_pos hr hflight
  obtain ⟨hblocked, hroom, hcounted⟩ := h.keys (r.key scope)
  -- the key blocks nobody that was let through
  constructor
  · by_contra hlasts
    have hnone := (hblocked (Nat.lt_of_not_le hlasts)).1
    omega
  -- those that are let through and those that wait to be counted fit into the limit
  · have hothers := pending_lt_inFlight hr hflight hwaits
    have hmore := pending_setPc hr .failed (r.key scope)
    have hmax := hon scope
    rw [hwaits] at hmore
    have hone : (({ r with pc := .failed } : Request).isPending (r.key scope)).toNat ≤ 1 :=
      Bool.toNat_le _
    rw [Request.key_scope] at hroom hcounted
    show (if (s.openRow policy (r.key scope)).isSome then s.counted (r.key scope) else 0) +
      (s.setPc i r .failed).pending (r.key scope) ≤ _
    simp only [Bool.toNat_false] at hmore
    -- without a row nothing was counted
    cases hrow : s.table (r.key scope) with
    | none =>
      have hclosed : s.openRow policy (r.key scope) = none := by
        unfold State.openRow
        rw [hrow]
        rfl
      rw [hclosed]
      simp only [Option.isSome_none, Bool.false_eq_true, if_false]
      omega
    | some row =>
      obtain ⟨hle, hfull⟩ := hcounted row hrow
      have hopen := @openCount_of_some policy s (r.key scope) row hrow
      unfold State.openRow
      rw [hrow]
      -- a row whose window is over counts nothing either
      cases hover : row.isOver (policy (r.key scope).scope) s.clock with
      | true =>
        rw [hover, if_pos rfl] at hopen
        simp only [Option.filter, hover, Bool.not_true, Bool.false_eq_true, if_false,
          Option.isSome_none]
        omega
      | false =>
        rw [hover, if_neg Bool.false_ne_true] at hopen
        simp only [Option.filter, hover, Bool.not_false, if_true, Option.isSome_some]
        by_cases hlimit : (policy scope).maxFailures ≤ row.failureCount
        · have hzero := hfull hlimit
          omega
        · omega

/-- A request that goes on with the row of the scope that it is at. -/
theorem Inv.setPhase (h : Inv policy s) (hr : s.requests[i]? = some r) {now : ℕ} {scope : Scope}
    {phase phase' : Phase} (hpc : r.pc = .recording now scope phase)
    (hfetch : ∀ again, phase' = .fetch again → ∃ row, s.table (r.key scope) = some row)
    (hread : ∀ id, phase' = .read id → ∃ row, s.table (r.key scope) = some row ∧ row.id = id)
    (hsave : ∀ copy, phase' = .save copy → s.table (r.key scope) = some copy) :
    Inv policy (s.setPc i r (.recording now scope phase')) := by
  have hrecord := (h.requests r (mem_requests hr)).recording now scope phase hpc
  -- the request stays in the same phase as far as the counts go
  have hholds : ∀ other, (Pc.recording now scope phase').holds other = r.pc.holds other := by
    intro other
    rw [hpc]
    cases scope <;> rfl
  have hpends : ∀ other, (Pc.recording now scope phase').pends other = r.pc.pends other := by
    intro other
    rw [hpc]
    cases scope <;> rfl
  refine h.setPc hr (fun k hflight => .inl ?_) ⟨nofun, ?_, ?_, ?_, ?_⟩
  · obtain ⟨hkey, hflying⟩ := Bool.and_eq_true_iff.mp hflight
    rw [hholds] at hflying
    exact Bool.and_eq_true_iff.mpr ⟨hkey, hflying⟩
  · intro now' scope' phase'' hpc' k hpending
    cases hpc'
    obtain ⟨hkey, hwaits⟩ := Bool.and_eq_true_iff.mp hpending
    rw [hpends] at hwaits
    exact hrecord k (Bool.and_eq_true_iff.mpr ⟨hkey, hwaits⟩)
  · intro now' scope' again hpc'
    cases hpc'
    exact hfetch again rfl
  · intro now' scope' id hpc'
    cases hpc'
    exact hread id rfl
  · intro now' scope' copy hpc'
    cases hpc'
    exact hsave copy rfl

/-- The failure is of this moment. -/
theorem failed_inv (h : Inv policy s) (hr : s.requests[i]? = some r) (hpc : r.pc = .failed) :
    Inv policy (s.setPc i r (.recording s.clock .ip .lookup)) := by
  refine h.setPc hr (fun k hflight => .inl ?_) ⟨nofun, ?_, nofun, nofun, nofun⟩
  · obtain ⟨hkey, -⟩ := Bool.and_eq_true_iff.mp hflight
    exact Bool.and_eq_true_iff.mpr ⟨hkey, by rw [hpc]; rfl⟩
  · intro now scope phase hpc' k _
    cases hpc'
    exact ⟨le_rfl, .inl rfl, fun _ _ => rfl⟩

/-- A new row counts one failure. -/
theorem counts_newRow {k : Key} (hnone : s.table k = none) (id now : ℕ) :
    Counts policy s k true now (newRow (policy k.scope) id now) where
  opens _ := ⟨rfl, rfl, openCount_of_none hnone⟩
  continues := nofun
  blocks hfull := if_pos hfull
  sameId old hold := by cases hnone.symm.trans hold

/-- A failure is counted in the window that is open, or opens one. -/
theorem counts_countFailure {k : Key} {now : ℕ} {copy : Row} (hcopy : s.table k = some copy)
    (hagrees : copy.isOver (policy k.scope) now = copy.isOver (policy k.scope) s.clock) :
    Counts policy s k (copy.isOver (policy k.scope) now) now
      (copy.countFailure (policy k.scope) now) := by
  have hopen := @openCount_of_some policy s k copy hcopy
  rw [← hagrees] at hopen
  refine ⟨fun hover => ?_, fun hover => ?_, fun hfull => if_pos hfull, fun old hold => ?_⟩
  · rw [if_pos hover] at hopen
    exact ⟨by simp [Row.countFailure, Row.nextWindow, hover],
      by simp [Row.countFailure, Row.nextWindow, hover], hopen⟩
  · rw [hover, if_neg Bool.false_ne_true] at hopen
    exact ⟨copy, hcopy, by simp [Row.countFailure, Row.nextWindow, hover],
      by simp [Row.countFailure, Row.nextWindow, hover], hopen⟩
  · cases hcopy.symm.trans hold
    unfold Row.countFailure Row.nextWindow
    split <;> rfl

/-- A statement of `record_login_failure` on the row of a key. -/
theorem recordStep_inv (hon : ∀ scope, 0 < (policy scope).maxFailures) (h : Inv policy s)
    (hr : s.requests[i]? = some r) {now : ℕ} {phase : Phase} {k : Key} (hkey : r.key k.scope = k)
    (hpc : r.pc = .recording now k.scope phase) (horderly : OrderlyAt policy s i r) :
    Inv policy (recordStep policy s i r now k.scope phase) := by
  have hinv := h.requests r (mem_requests hr)
  have hown : r.isPending k = true := by
    unfold Request.isPending
    rw [hkey, hpc]
    cases k.scope <;> simp [Pc.pends]
  have hrecord := hinv.recording now k.scope phase hpc k hown
  cases phase with
  | lookup =>
    unfold recordStep
    dsimp only
    rw [hkey, if_neg (hon k.scope).ne']
    split
    · next row hrow =>
      refine h.setPhase hr hpc nofun (fun id hid => ?_) nofun
      cases hid
      exact ⟨row, hkey.symm ▸ hrow, rfl⟩
    · exact h.setPhase hr hpc nofun nofun nofun
  | insert =>
    unfold recordStep
    dsimp only
    rw [hkey]
    split
    · next row hrow => exact h.setPhase hr hpc (fun _ _ => ⟨row, hkey.symm ▸ hrow⟩) nofun nofun
    · next hnone =>
      -- nobody is about to write a row that is not there
      have hquiet : ∀ j other, j ≠ i → s.requests[j]? = some other → other.isSaving k = false := by
        intro j other _ hother
        refine Bool.eq_false_iff.mpr fun hsaving => ?_
        obtain ⟨hsame, hphase⟩ := Bool.and_eq_true_iff.mp hsaving
        split at hphase
        · next now' scope' copy hpc' =>
          have hscope : scope' = k.scope := of_decide_eq_true hphase
          have hsaved := (h.requests other (mem_requests hother)).save now' scope' copy hpc'
          rw [hscope, of_decide_eq_true hsame] at hsaved
          cases hnone.symm.trans hsaved
        · cases hphase
      exact (h.written hr hkey hpc (counts_newRow hnone s.nextId now) hquiet).delete rfl rfl rfl
        fun _ => .inl ⟨rfl, rfl⟩
  | fetch again =>
    obtain ⟨row, hrow⟩ := hinv.fetch now k.scope again hpc
    unfold recordStep
    dsimp only
    rw [hrow]
    dsimp only
    refine h.setPhase hr hpc nofun (fun id hid => ?_) nofun
    cases hid
    exact ⟨row, hrow, rfl⟩
  | read id =>
    obtain ⟨row, hrow, hid⟩ := hinv.read now k.scope id hpc
    unfold recordStep
    dsimp only
    rw [hrow]
    dsimp only
    rw [if_pos hid]
    exact h.setPhase hr hpc nofun nofun fun copy hcopy => by cases hcopy; exact hrow
  | save copy =>
    have hcopy := hinv.save now k.scope copy hpc
    unfold recordStep
    dsimp only
    rw [hkey] at hcopy ⊢
    rw [hcopy, if_pos (by simp)]
    unfold OrderlyAt at horderly
    rw [hpc] at horderly
    dsimp only at horderly
    rw [hkey] at horderly
    exact h.written hr hkey hpc (counts_countFailure hcopy (hrecord.agrees copy hcopy)) horderly

/-- A request that is done. -/
theorem done_inv (h : Inv policy s) (hr : s.requests[i]? = some r) :
    Inv policy (s.setPc i r .done) := by
  refine h.setPc hr (fun k hflight => ?_) (.idle nofun nofun)
  obtain ⟨-, hholds⟩ := Bool.and_eq_true_iff.mp hflight
  cases hholds

/-- The purge leaves the rows that are not old. -/
theorem purge_kept {now : ℕ}
    (hnew : ∀ row, s.table k = some row → ¬row.updatedAt + retentionSeconds < now) :
    (purge s now).table k = s.table k ∧ (purge s now).counted k = s.counted k := by
  have hkept : ¬((s.table k).any fun row => row.updatedAt + retentionSeconds < now) = true := by
    intro hany
    obtain ⟨row, hrow, hold⟩ := (Option.any_eq_true _ _).mp hany
    rw [decide_eq_true_eq] at hold
    exact hnew row hrow hold
  unfold purge
  dsimp only
  rw [if_neg hkept, if_neg hkept]
  exact ⟨rfl, rfl⟩

/-- What is purged has no row any more. -/
theorem purge_gone {now : ℕ} {row : Row} (hrow : s.table k = some row)
    (hold : row.updatedAt + retentionSeconds < now) : (purge s now).table k = none := by
  have hany : ((s.table k).any fun row => row.updatedAt + retentionSeconds < now) = true := by
    rw [hrow, Option.any_some, decide_eq_true_eq]
    exact hold
  unfold purge
  dsimp only
  rw [if_pos hany]

/-- A purge keeps the invariant if it comes when nothing it takes is in use. -/
theorem purging_inv (h : Inv policy s) (hr : s.requests[i]? = some r) {now : ℕ}
    (hpc : r.pc = .purging now) (horderly : OrderlyAt policy s i r) :
    Inv policy ((purge s now).setPc i r .done) := by
  unfold OrderlyAt at horderly
  rw [hpc] at horderly
  refine done_inv (h.delete rfl rfl rfl fun k => ?_) hr
  by_cases hold : ∃ row, s.table k = some row ∧ row.updatedAt + retentionSeconds < now
  · obtain ⟨row, hrow, hold⟩ := hold
    obtain ⟨-, hfree, hquiet⟩ := horderly k row hrow hold
    refine .inr ⟨purge_gone hrow hold, fun other hother => ?_, hquiet⟩
    cases hrow.symm.trans hother
    exact hfree
  · exact .inl (purge_kept fun row hrow hlt => hold ⟨row, hrow, hlt⟩)

/-- A success clears its account. -/
theorem clearing_inv (h : Inv policy s) (hr : s.requests[i]? = some r) (hpc : r.pc = .clearing)
    (horderly : OrderlyAt policy s i r) :
    Inv policy ((s.forget (r.key .account)).setPc i r .done) := by
  unfold OrderlyAt at horderly
  rw [hpc] at horderly
  obtain ⟨hfree, hquiet⟩ := horderly
  refine done_inv (h.delete rfl rfl rfl fun k => ?_) hr
  generalize r.key .account = own at hfree hquiet ⊢
  -- only the account is cleared, for which nobody is let through
  by_cases hk : k = own
  · -- the row of the account is deleted, and it does not block
    have hgone : (s.forget own).table k = none := by
      rw [hk]
      exact Function.update_self own none s.table
    rw [← hk] at hfree hquiet
    refine .inr ⟨hgone, fun row hrow => ?_, hquiet⟩
    rw [hrow] at hfree
    exact hfree
  · have htable : (s.forget own).table k = s.table k := by
      show Function.update s.table own none k = _
      rw [Function.update_of_ne hk]
    have hghost : (s.forget own).counted k = s.counted k := by
      show Function.update s.counted own 0 k = _
      rw [Function.update_of_ne hk]
    exact .inl ⟨htable, hghost⟩

/-- Each statement of a request. -/
theorem advance_inv (hon : ∀ scope, 0 < (policy scope).maxFailures) (h : Inv policy s)
    (hr : s.requests[i]? = some r) (correct : Bool) (horderly : OrderlyAt policy s i r) :
    Inv policy (advance policy s i r correct) := by
  unfold advance
  split
  · next hpc => exact checkIp_inv h hr hpc horderly
  · next hpc => exact checkAccount_inv h hr hpc horderly
  -- a correct password clears, a wrong one is recorded
  · next hpc =>
    refine h.setPc hr (fun k hflight => .inl ?_) (.idle (by cases correct <;> nofun)
      (by cases correct <;> nofun))
    obtain ⟨hkey, -⟩ := Bool.and_eq_true_iff.mp hflight
    exact Bool.and_eq_true_iff.mpr ⟨hkey, by rw [hpc]; rfl⟩
  · next hpc => exact failed_inv h hr hpc
  · next now scope phase hpc =>
    have hkey : r.key (r.key scope).scope = r.key scope := by rw [Request.key_scope]
    have hrecorded := @recordStep_inv policy s i r hon h hr now phase (r.key scope) hkey
      (by rw [Request.key_scope]; exact hpc) horderly
    rw [Request.key_scope] at hrecorded
    exact hrecorded
  · next hpc => exact purging_inv h hr hpc horderly
  · next hpc => exact clearing_inv h hr hpc horderly
  · exact h

/-- What is promised of a statement follows from the invariant before it. -/
theorem advance_bounded (hon : ∀ scope, 0 < (policy scope).maxFailures) (h : Inv policy s)
    (hr : s.requests[i]? = some r) (correct : Bool) (horderly : OrderlyAt policy s i r) :
    BoundedAt policy s (advance policy s i r correct) r correct := by
  have hinv := h.requests r (mem_requests hr)
  unfold BoundedAt
  split
  · next hpc =>
    intro scope
    obtain ⟨hfree, hlimit⟩ := verify_bounded hon h hr hpc scope
    refine ⟨hfree, fun hwrong => ?_⟩
    subst hwrong
    unfold advance
    rw [hpc]
    exact hlimit
  · next now scope again hpc => exact hinv.fetch now scope again hpc
  · next now scope id hpc => exact hinv.read now scope id hpc
  · next now scope copy hpc =>
    have hcopy := hinv.save now scope copy hpc
    refine ⟨copy, hcopy, ?_⟩
    unfold advance
    rw [hpc]
    unfold recordStep
    dsimp only
    rw [hcopy, if_pos (by simp)]
    exact Function.update_self _ _ _
  · next now hpc =>
    unfold OrderlyAt at horderly
    rw [hpc] at horderly
    intro k row hrow hgone
    refine (horderly k row hrow ?_).1
    -- the row is one of those that are deleted
    unfold advance at hgone
    rw [hpc] at hgone
    by_contra hnew
    have hkept : (purge s now).table k = s.table k := by
      refine (purge_kept fun other hother => ?_).1
      cases hrow.symm.trans hother
      exact hnew
    cases hrow.symm.trans (hkept.symm.trans hgone)
  · trivial

end Statements

/-! ## Runs -/

section Runs

variable {policy : Scope → Policy} {s : State}

/-- The clock may go on as long as the requests in flight are punctual. -/
theorem tick_inv (h : Inv policy s) {seconds : ℕ}
    (horderly : ∀ r ∈ s.requests, Punctual policy s (s.clock + seconds) r) :
    Inv policy { s with clock := s.clock + seconds } where
  keys k := by
    obtain ⟨hblocked, hroom, hcounted⟩ := h.keys k
    refine ⟨fun hlasts => hblocked (Nat.lt_of_le_of_lt (Nat.le_add_right _ _) hlasts), ?_, hcounted⟩
    have hopen : ({ s with clock := s.clock + seconds } : State).openCount policy k ≤
        s.openCount policy k := by
      cases hrow : s.table k with
      | none =>
        rw [@openCount_of_none policy { s with clock := s.clock + seconds } k hrow]
        exact Nat.zero_le _
      | some row =>
        rw [@openCount_of_some policy { s with clock := s.clock + seconds } k row hrow,
          openCount_of_some hrow]
        unfold Row.isOver
        simp only [decide_eq_true_eq]
        -- a window that is over stays over
        split_ifs <;> omega
    show _ + s.inFlight k ≤ _ ∨ s.inFlight k ≤ 1
    omega
  requests r hr := by
    have hinv := h.requests r hr
    refine ⟨fun now scope retry hpc => ?_, fun now scope phase hpc k hpending => ?_, hinv.fetch,
      hinv.read, hinv.save⟩
    · exact (hinv.checking now scope retry hpc).trans (Nat.le_add_right _ _)
    · obtain ⟨hsoon, hagrees⟩ := horderly r hr now scope phase hpc k hpending
      exact ⟨(hinv.recording now scope phase hpc k hpending).past.trans (Nat.le_add_right _ _),
        .inr hsoon, hagrees⟩

/-- A new request has read nothing yet. -/
theorem start_inv (h : Inv policy s) (username address : String) :
    Inv policy (step policy s (.start username address)) where
  keys k := by
    refine (h.keys k).mono rfl rfl rfl rfl ?_
    show (s.requests ++ [_]).countP _ ≤ _
    rw [List.countP_append]
    simp [State.inFlight, Request.inFlight, Pc.holds]
  requests r hr := by
    rcases List.mem_append.mp hr with hr | hr
    · exact (h.requests r hr).of_eq rfl rfl
    · obtain rfl := List.mem_singleton.mp hr
      exact ⟨fun now _ _ heq => by cases heq; exact le_rfl, nofun, nofun, nofun, nofun⟩

theorem initial_inv (clock : ℕ) : Inv policy (.initial clock) where
  keys _ := ⟨fun hlasts => absurd hlasts (Nat.not_lt_zero _), .inr (Nat.zero_le _), nofun⟩
  requests _ hr := absurd hr List.not_mem_nil

/-- One step of an orderly run. -/
theorem step_bounded (hon : ∀ scope, 0 < (policy scope).maxFailures) (s : State) (l : Label)
    (h : Inv policy s) (horderly : Orderly policy s l) :
    Bounded policy s l ∧ Inv policy (step policy s l) := by
  cases l with
  | tick seconds => exact ⟨trivial, tick_inv h horderly⟩
  | start username address => exact ⟨trivial, start_inv h username address⟩
  -- the bounds are what the failure of the request left
  | advance i correct =>
    constructor
    · intro r hr
      have hstep : step policy s (.advance i correct) = advance policy s i r correct := by
        unfold step
        dsimp only
        rw [hr]
      rw [hstep]
      exact advance_bounded hon h hr correct (horderly r hr)
    · unfold step
      dsimp only
      split
      · next r hr => exact advance_inv hon h hr correct (horderly r hr)
      · exact h

/-- **In an orderly run the throttle bounds guessing**: no password is verified against a
blocked key, the failed checks of a window are within the limit, and every failure is counted. -/
theorem throttle_bounds (policy : Scope → Policy) (hon : ∀ scope, 0 < (policy scope).maxFailures)
    (clock : ℕ) (ls : List Label) (h : Along (step policy) (Orderly policy) (.initial clock) ls) :
    Along (step policy) (Bounded policy) (.initial clock) ls :=
  along_of (step_bounded hon) (initial_inv clock) h

/-! ## Runs without a purge -/

/-- `OrderlyAt`, as it is tested of a statement that is not a purge. -/
def testsOrderly (policy : Scope → Policy) (s : State) (i : ℕ) (r : Request) : Bool :=
  match r.pc with
  | .checking now scope false =>
    (s.table (r.key scope)).any (·.blocks now) || s.inFlight (r.key scope) = 0 ||
      s.openCount policy (r.key scope) + s.inFlight (r.key scope) < (policy scope).maxFailures
  | .recording _ scope (.save _) =>
    (List.range s.requests.length).all fun j =>
      j = i || (s.requests[j]?).all fun other => !other.isSaving (r.key scope)
  | .clearing =>
    !(s.table (r.key .account)).any (·.blocks s.clock) &&
      s.requests.all fun other => !other.isReading (r.key .account)
  | .purging _ => false
  | _ => true

/-- The tests decide whether a step is orderly. -/
theorem orderlyAt_of_tests {i : ℕ} {r : Request} (h : testsOrderly policy s i r = true) :
    OrderlyAt policy s i r := by
  unfold testsOrderly at h
  unfold OrderlyAt State.HasRoom
  split at h
  · rw [Request.key_scope]
    simpa [or_assoc] using h
  · intro j other hj hother
    have hlt : j < s.requests.length := (List.getElem?_eq_some_iff.mp hother).1
    have htest := List.all_eq_true.mp h j (List.mem_range.mpr hlt)
    simpa [hj, hother] using htest
  · simpa using h
  · cases h
  · trivial

/-- A run of requests at one moment that is tested step by step. -/
def TestsAlong (policy : Scope → Policy) (s : State) : Label → Prop
  | .tick _ => False
  | .start _ _ => True
  | .advance i _ => ∀ r ∈ s.requests[i]?, testsOrderly policy s i r = true

instance (policy : Scope → Policy) (s : State) : (l : Label) → Decidable (TestsAlong policy s l)
  | .tick _ => inferInstanceAs (Decidable False)
  | .start _ _ => inferInstanceAs (Decidable True)
  | .advance i _ => inferInstanceAs (Decidable (∀ r ∈ s.requests[i]?, testsOrderly policy s i r = true))

theorem orderly_of_tests {l : Label} (h : TestsAlong policy s l) : Orderly policy s l := by
  cases l with
  | tick seconds => cases h
  | start username address => trivial
  | advance i correct => exact fun r hr => orderlyAt_of_tests (h r hr)

/-- Three failures block. -/
def threeAllowed : Scope → Policy := fun _ => ⟨3, 60, 300⟩

/-- Two requests for one account are verified together; both find no row of the address, and
the second one, which cannot create it, counts on in the row of the first. -/
def failedLogin : List Label :=
  [.start "alice" "10.0.0.1", .start "alice" "10.0.0.1"] ++
    (List.replicate 5 [.advance 0 false, .advance 1 false]).flatten ++
    [.advance 0 false, .advance 1 false, .advance 1 false, .advance 1 false, .advance 1 false]

theorem failedLogin_bounded :
    ((failedLogin.foldl (step threeAllowed) (.initial 0)).table ⟨.ip, "10.0.0.1"⟩).map
        (·.failureCount) = some 2 ∧
      Along (step threeAllowed) (Bounded threeAllowed) (.initial 0) failedLogin := by
  refine ⟨by decide +kernel, throttle_bounds threeAllowed (fun _ => Nat.succ_pos 2) 0 failedLogin ?_⟩
  exact along_mono (fun s l => orderly_of_tests) (by decide +kernel)

/-- One failure blocks. -/
def strictPolicy : Scope → Policy := fun _ => ⟨1, 60, 300⟩

/-- Two requests pass the checks together. -/
def bothChecked : List Label :=
  [.start "alice" "10.0.0.1", .start "alice" "10.0.0.1", .advance 0 false, .advance 1 false,
    .advance 0 false, .advance 1 false, .advance 0 false]

/-- Both are verified, though one failure blocks: nothing stands between the check of a key and
the failure that is counted for it. -/
theorem parallel_guesses_unbounded :
    ¬∀ policy : Scope → Policy, (∀ scope, 0 < (policy scope).maxFailures) → ∀ clock ls,
      Along (step policy) (Bounded policy) (.initial clock) ls := by
  intro hbounded
  have hrun := hbounded strictPolicy (fun _ => Nat.one_pos) 0 (bothChecked ++ [.advance 1 false])
  obtain ⟨hlast, -⟩ := (along_append.mp hrun).2
  have hwrong := (hlast ⟨"alice", "10.0.0.1", .verifying⟩ rfl .ip).2 rfl
  -- nothing is written yet, and both are to be counted
  have htwo : State.failuresInWindow strictPolicy ⟨0, fun _ => none, 1,
      [⟨"alice", "10.0.0.1", .failed⟩, ⟨"alice", "10.0.0.1", .failed⟩], fun _ => 0, fun _ => 0⟩
      (Request.key ⟨"alice", "10.0.0.1", .verifying⟩ .ip) = 2 := by
    simp [State.failuresInWindow, State.openRow, State.pending, Request.isPending, Request.key,
      Pc.pends]
  exact absurd (htwo.symm.le.trans hwrong) (by decide)

end Runs

end IncidentRelay.Auth
