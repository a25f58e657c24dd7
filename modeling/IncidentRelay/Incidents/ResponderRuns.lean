import IncidentRelay.Incidents.Responders
import IncidentRelay.Lib.Run

/-!
# Runs of responder requests

An operation that is written later than it is read may write on a row that another one has
changed. What was read is compared with the row that is written.

 * `Legal`: a step changes a status along the transitions and keeps one open request for a
   target of an incident.
 * `responders_legal_iff`: a run is legal if and only if no write is disturbed.
-/

namespace IncidentRelay.Responders

/-! ## Statuses -/

namespace ResponderStatus

/-- The statuses that a row can have later. -/
def followers : ResponderStatus → List ResponderStatus
  | .requested => [.requested, .accepted, .declined, .expired, .resolved]
  | .accepted => [.accepted, .resolved]
  | .declined => [.declined]
  | .expired => [.expired]
  | .resolved => [.resolved]

variable {a b c : ResponderStatus}

theorem mem_followers_self : a ∈ a.followers := by
  cases a <;> decide

theorem followers_step (h : b ∈ a.followers) (hstep : c = b ∨ c ∈ b.transitions) : c ∈ a.followers := by
  cases a <;> cases b <;> cases c <;> revert h hstep <;> decide

/-- A status that is not open is the last one. -/
theorem eq_of_closed (ha : a ∉ openStatuses) (h : b ∈ a.followers) : b = a := by
  cases a with
  | requested => exact absurd (by decide) ha
  | accepted => exact absurd (by decide) ha
  | declined => exact List.mem_singleton.mp h
  | expired => exact List.mem_singleton.mp h
  | resolved => exact List.mem_singleton.mp h

/-- What is open was open before. -/
theorem open_of_step (hstep : b = a ∨ b ∈ a.transitions) (hb : b ∈ openStatuses) : a ∈ openStatuses := by
  cases a with
  | requested => decide
  | accepted => decide
  | declined => rcases hstep with rfl | h; exacts [hb, absurd h List.not_mem_nil]
  | expired => rcases hstep with rfl | h; exacts [hb, absurd h List.not_mem_nil]
  | resolved => rcases hstep with rfl | h; exacts [hb, absurd h List.not_mem_nil]

/-- A write that was an edge for the row that was read is one for a later row only where the
row still has the status, or has the new one already. -/
theorem undisturbed_of_edge {read current next : ResponderStatus}
    (hread : next = read ∨ next ∈ read.transitions) (hnext : next ≠ .requested)
    (hlater : current ∈ read.followers) (hedge : next = current ∨ next ∈ current.transitions) :
    current = read ∨ current = next := by
  cases read <;> cases current <;> cases next <;> revert hread hnext hlater hedge <;> decide

end ResponderStatus

/-! ## Steps -/

/-- Each incident has one open request for a target at most. -/
def OneOpen (rows : List Responder) : Prop :=
  ∀ group target, ∀ r ∈ rows, ∀ r' ∈ rows, r.openFor group target = true →
    r'.openFor group target = true → r = r'

/-- A status that changes is changed along the transitions. -/
def Edges (rows rows' : List Responder) : Prop :=
  ∀ r ∈ rows, ∀ r' ∈ rows', r'.id = r.id → r'.status = r.status ∨ r'.status ∈ r.status.transitions

/-- **A legal step.** -/
def Legal (dir : Directory) (d : Desk) (action : Action) : Prop :=
  Edges d.responders.rows (d.next dir action).responders.rows ∧
    OneOpen (d.next dir action).responders.rows

/-- The write of the operation meets the table as it was read: an answer finds the status of
the row that was read, or its own; a request finds no open row for its target but rows that
were there when it was checked. -/
def Operation.Undisturbed (rows : List Responder) : Operation → Prop
  | .create order checked => ∀ r ∈ rows, r.openFor order.group order.target = true →
      ∃ r' ∈ checked, r'.id = r.id
  | .setStatus change read => ∀ r ∈ rows, r.id = change.responder →
      r.status = read.status ∨ r.status = change.status
  | .expire _ => True

/-- A step that is no write, or an undisturbed one. -/
def Undisturbed (d : Desk) : Action → Prop
  | .proceed index _ => ∀ operation ∈ d.operations[index]?, operation.Undisturbed d.responders.rows
  | _ => True

/-! ## The invariant -/

/-- The row is the other one, later. -/
structure Follows (r r' : Responder) : Prop where
  id_eq : r'.id = r.id
  group_eq : r'.group = r.group
  target_eq : r'.target = r.target
  status : r'.status ∈ r.status.followers

/-- What an operation has read still says what can have become of it. -/
def Operation.Sound (rows : List Responder) : Operation → Prop
  | .create order checked => ∀ r ∈ checked, r.openFor order.group order.target = false ∧
      ∃ r' ∈ rows, Follows r r'
  | .setStatus change read =>
      (change.status = read.status ∨ change.status ∈ read.status.transitions) ∧
        change.status ≠ .requested ∧
          ∃ r ∈ rows, r.id = change.responder ∧ r.status ∈ read.status.followers
  | .expire _ => True

structure Desk.Sound (d : Desk) : Prop where
  oneOpen : OneOpen d.responders.rows
  operations : ∀ operation ∈ d.operations, operation.Sound d.responders.rows

/-- Every row is still there, later. -/
def Later (rows rows' : List Responder) : Prop :=
  ∀ r ∈ rows, ∃ r' ∈ rows', Follows r r'

theorem Follows.refl (r : Responder) : Follows r r :=
  ⟨rfl, rfl, rfl, ResponderStatus.mem_followers_self⟩

theorem followers_trans {a b c : ResponderStatus} (h : b ∈ a.followers) (h' : c ∈ b.followers) :
    c ∈ a.followers := by
  cases a <;> cases b <;> cases c <;> revert h h' <;> decide

theorem Follows.trans {r r' r'' : Responder} (h : Follows r r') (h' : Follows r' r'') : Follows r r'' :=
  ⟨h'.id_eq.trans h.id_eq, h'.group_eq.trans h.group_eq, h'.target_eq.trans h.target_eq,
    followers_trans h.status h'.status⟩

/-- What was read stays sound while the rows follow their edges. -/
theorem Operation.Sound.later {rows rows' : List Responder} {operation : Operation}
    (h : operation.Sound rows) (hlater : Later rows rows') : operation.Sound rows' := by
  cases operation with
  | create order checked =>
    intro r hr
    obtain ⟨hclosed, r', hr', hfollows⟩ := h r hr
    obtain ⟨r'', hr'', hnext⟩ := hlater r' hr'
    exact ⟨hclosed, r'', hr'', hfollows.trans hnext⟩
  | setStatus change read =>
    obtain ⟨hedge, hnew, r, hr, hid, hstatus⟩ := h
    obtain ⟨r', hr', hfollows⟩ := hlater r hr
    exact ⟨hedge, hnew, r', hr', hfollows.id_eq.trans hid, followers_trans hstatus hfollows.status⟩
  | expire due => trivial

/-! ## One write -/

theorem Responder.openFor_iff {group : ℕ} {target : Target} {r : Responder} :
    r.openFor group target = true ↔
      (r.group = group ∧ r.target = target) ∧ r.status ∈ ResponderStatus.openStatuses := by
  simp only [Responder.openFor, Bool.and_eq_true, decide_eq_true_eq]

/-- It finds none exactly when no responder is open for the target. -/
theorem findOpen_eq_none {rows : List Responder} {group : ℕ} {target : Target}
    (h : (findOpenIncidentResponder rows group target).isSome = false) :
    ∀ r ∈ rows, r.openFor group target = false := by
  unfold findOpenIncidentResponder at h
  rw [Option.isSome_eq_false_iff, Option.isNone_iff_eq_none, List.head?_eq_none_iff] at h
  intro r hr
  refine Bool.eq_false_iff.mpr fun hopen => ?_
  have hmem := (List.mem_insertionSort (r := fun r r' : Responder => r'.createdAt ≤ r.createdAt)).mpr
    (List.mem_filter.mpr ⟨hr, hopen⟩)
  rw [h] at hmem
  exact List.not_mem_nil hmem

/-- Rows that are written where they are: each one stands for one that was there, one status
further at most. -/
structure Rewritten (rows rows' : List Responder) : Prop where
  forward : ∀ r ∈ rows, ∃ r' ∈ rows', (r'.id = r.id ∧ r'.group = r.group ∧ r'.target = r.target) ∧
    (r'.status = r.status ∨ r'.status ∈ r.status.transitions)
  back : ∀ r' ∈ rows', ∃ r ∈ rows, (r'.id = r.id ∧ r'.group = r.group ∧ r'.target = r.target) ∧
    (r'.status = r.status ∨ r'.status ∈ r.status.transitions)

/-- A row that was rewritten along an edge is later. -/
theorem Rewritten.later {rows rows' : List Responder} (h : Rewritten rows rows') : Later rows rows' := by
  intro r hr
  obtain ⟨r', hr', ⟨hid, hgroup, htarget⟩, hstatus⟩ := h.forward r hr
  exact ⟨r', hr', hid, hgroup, htarget,
    ResponderStatus.followers_step ResponderStatus.mem_followers_self hstatus⟩

/-- What is open behind a write was open before. -/
theorem Rewritten.oneOpen {rows : List Responder} {t' : ResponderTable} (h : Rewritten rows t'.rows)
    (hone : OneOpen rows) : OneOpen t'.rows := by
  intro group target r hr r' hr' hopen hopen'
  have hback : ∀ r ∈ t'.rows, r.openFor group target = true →
      ∃ r₀ ∈ rows, r.id = r₀.id ∧ r₀.openFor group target = true := by
    intro r hr hopen
    obtain ⟨r₀, hr₀, ⟨hid, hgroup, htarget⟩, hstatus⟩ := h.back r hr
    obtain ⟨⟨hg, ht⟩, hs⟩ := Responder.openFor_iff.mp hopen
    exact ⟨r₀, hr₀, hid, Responder.openFor_iff.mpr
      ⟨⟨hgroup.symm.trans hg, htarget.symm.trans ht⟩, ResponderStatus.open_of_step hstatus hs⟩⟩
  obtain ⟨r₀, hr₀, hid, hopen₀⟩ := hback r hr hopen
  obtain ⟨r₁, hr₁, hid', hopen₁⟩ := hback r' hr' hopen'
  have hsame := hone group target r₀ hr₀ r₁ hr₁ hopen₀ hopen₁
  exact IdTable.eq_of_id hr hr' (by rw [hid, hid', hsame])

/-- An update of rows that each take one step. -/
theorem rewritten_update (t : ResponderTable) {guard : Responder → Bool} {set : Responder → Responder}
    {hset : ∀ r, (set r).id = r.id} (hkeep : ∀ r, (set r).group = r.group ∧ (set r).target = r.target)
    (hstep : ∀ r ∈ t.rows, guard r = true →
      (set r).status = r.status ∨ (set r).status ∈ r.status.transitions) :
    Rewritten t.rows (t.update guard set hset).rows := by
  constructor
  · intro r hr
    refine ⟨_, IdTable.updated_mem hset hr, ?_⟩
    split_ifs with hguard
    · exact ⟨⟨hset r, hkeep r⟩, hstep r hr hguard⟩
    · exact ⟨⟨rfl, rfl, rfl⟩, .inl rfl⟩
  · intro r' hr'
    obtain ⟨r, hr, ⟨hguard, rfl⟩ | ⟨-, rfl⟩⟩ := IdTable.mem_update.mp hr'
    · exact ⟨r, hr, ⟨hset r, hkeep r⟩, hstep r hr hguard⟩
    · exact ⟨r', hr, ⟨rfl, rfl, rfl⟩, .inl rfl⟩

/-- **The scheduler expires what is still requested.** -/
theorem rewritten_expire (t : ResponderTable) (id : ℕ) (now : Instant) :
    Rewritten t.rows (expireIncidentResponder t id now).rows := by
  refine rewritten_update t (fun _ => ⟨rfl, rfl⟩) fun r _ hguard => .inr ?_
  simp only [Responder.due, Bool.and_eq_true, decide_eq_true_eq] at hguard
  rw [hguard.2.1]
  show ResponderStatus.expired ∈ ResponderStatus.requested.transitions
  decide

theorem Rewritten.edges {t : ResponderTable} {rows' : List Responder} (h : Rewritten t.rows rows') :
    Edges t.rows rows' := by
  intro r hr r' hr' hsame
  obtain ⟨r₀, hr₀, ⟨hid₀, -, -⟩, hstep⟩ := h.back r' hr'
  obtain rfl := IdTable.eq_of_id hr₀ hr (hid₀.symm.trans hsame)
  exact hstep

/-- An answer rewrites one row, along the edge that was checked, if nobody did so before. -/
theorem rewritten_answer {t : ResponderTable} {change : StatusChange} {read : Responder} {now : Instant}
    (h : (Operation.setStatus change read).Sound t.rows)
    (hundisturbed : (Operation.setStatus change read).Undisturbed t.rows) :
    Rewritten t.rows (updateIncidentResponderStatus t change now).rows := by
  refine rewritten_update t (fun _ => ⟨rfl, rfl⟩) fun r hr hguard => ?_
  rcases hundisturbed r hr (of_decide_eq_true hguard) with hread | hsame
  · rw [hread]
    exact h.1
  · exact .inl hsame.symm

/-- **An answer is an edge**, if and only if the row has the status that was read or the new
one. -/
theorem legal_answer_iff {t : ResponderTable} {change : StatusChange} {read : Responder} {now : Instant}
    (h : (Operation.setStatus change read).Sound t.rows) (hone : OneOpen t.rows) :
    (Edges t.rows (updateIncidentResponderStatus t change now).rows ∧
      OneOpen (updateIncidentResponderStatus t change now).rows) ↔
      (Operation.setStatus change read).Undisturbed t.rows := by
  constructor
  · rintro ⟨hlegal, -⟩ r hr hrid
    obtain ⟨hedge, hnew, row, hrow, hid, hstatus⟩ := h
    obtain rfl : r = row := IdTable.eq_of_id hr hrow (hrid.trans hid.symm)
    have hwritten : change.apply now r ∈ (updateIncidentResponderStatus t change now).rows :=
      IdTable.mem_update.mpr ⟨r, hr, .inl ⟨decide_eq_true hrid, rfl⟩⟩
    exact ResponderStatus.undisturbed_of_edge hedge hnew hstatus (hlegal r hr _ hwritten rfl)
  · intro hundisturbed
    have hrewritten : Rewritten t.rows (updateIncidentResponderStatus t change now).rows :=
      rewritten_answer h hundisturbed
    exact ⟨hrewritten.edges, hrewritten.oneOpen hone⟩

/-- A request adds one row. -/
theorem mem_insertResponder {t : ResponderTable} {order : ResponderOrder} {now : Instant}
    {r : Responder} (h : r ∈ (insertResponder t order now).rows) :
    r ∈ t.rows ∨ (r.id = t.next ∧ r.group = order.group ∧ r.target = order.target ∧
      r.status = .requested) := by
  rcases IdTable.mem_insert.mp h with hr | rfl
  · exact .inl hr
  · exact .inr ⟨rfl, rfl, rfl, rfl⟩

/-- The new row of a request. -/
theorem exists_inserted (t : ResponderTable) (order : ResponderOrder) (now : Instant) :
    ∃ row ∈ (insertResponder t order now).rows, row.id = t.next ∧
      row.openFor order.group order.target = true :=
  ⟨_, IdTable.mem_insert.mpr (.inr rfl), rfl, Responder.openFor_iff.mpr ⟨⟨rfl, rfl⟩, List.mem_cons_self⟩⟩

/-- **A request keeps one open request for its target**, if and only if the open rows for the
target were there when it was checked. -/
theorem legal_request_iff {t : ResponderTable} {order : ResponderOrder} {checked : List Responder}
    {now : Instant} (h : (Operation.create order checked).Sound t.rows) (hone : OneOpen t.rows) :
    (Edges t.rows (insertResponder t order now).rows ∧ OneOpen (insertResponder t order now).rows) ↔
      (Operation.create order checked).Undisturbed t.rows := by
  have hsame : ∀ r ∈ t.rows, ∀ r' ∈ (insertResponder t order now).rows, r'.id = r.id → r' = r := by
    intro r hr r' hr' hid
    rcases mem_insertResponder hr' with hmem | ⟨hnew, -⟩
    · exact IdTable.eq_of_id hmem hr hid
    · exact absurd (t.lt r hr) (by rw [← hid, hnew]; exact lt_irrefl _)
  constructor
  · rintro ⟨-, hlegal⟩ r hr hopen
    -- the new row would be a second one
    obtain ⟨row, hrow, hid, hnew⟩ := exists_inserted t order now
    have htwo := hlegal order.group order.target r (IdTable.mem_insert.mpr (.inl hr)) row hrow hopen hnew
    exact absurd (t.lt r hr) (by rw [htwo, hid]; exact lt_irrefl _)
  · intro hundisturbed
    -- a row that was closed when it was checked is closed
    have hclosed : ∀ r ∈ t.rows, r.openFor order.group order.target = false := by
      refine fun r hr => Bool.eq_false_iff.mpr fun hopen => ?_
      obtain ⟨r', hr', hid⟩ := hundisturbed r hr hopen
      obtain ⟨hwas, now', hnow, hfollows⟩ := h r' hr'
      obtain rfl : now' = r := IdTable.eq_of_id hnow hr (hfollows.id_eq.trans hid)
      obtain ⟨⟨hgroup, htarget⟩, hstatus⟩ := Responder.openFor_iff.mp hopen
      have hnot : r'.status ∉ ResponderStatus.openStatuses := fun hs =>
        Bool.eq_false_iff.mp hwas (Responder.openFor_iff.mpr
          ⟨⟨hfollows.group_eq.symm.trans hgroup, hfollows.target_eq.symm.trans htarget⟩, hs⟩)
      exact hnot (ResponderStatus.eq_of_closed hnot hfollows.status ▸ hstatus)
    refine ⟨fun r hr r' hr' hid => .inl (congrArg _ (hsame r hr r' hr' hid)), ?_⟩
    intro group target r hr r' hr' hopen hopen'
    -- an old open row is for another target than the new one
    have hother : ∀ r ∈ t.rows, r.openFor group target = true →
        ¬(order.group = group ∧ order.target = target) := by
      rintro r hr hopen ⟨rfl, rfl⟩
      rw [hclosed r hr] at hopen
      cases hopen
    rcases mem_insertResponder hr with hold | ⟨hid, hgroup, htarget, -⟩
    · rcases mem_insertResponder hr' with hold' | ⟨-, hgroup, htarget, -⟩
      · exact hone group target r hold r' hold' hopen hopen'
      · obtain ⟨⟨hg, ht⟩, -⟩ := Responder.openFor_iff.mp hopen'
        exact absurd ⟨hgroup.symm.trans hg, htarget.symm.trans ht⟩ (hother r hold hopen)
    · rcases mem_insertResponder hr' with hold' | ⟨hid', -⟩
      · obtain ⟨⟨hg, ht⟩, -⟩ := Responder.openFor_iff.mp hopen
        exact absurd ⟨hgroup.symm.trans hg, htarget.symm.trans ht⟩ (hother r' hold' hopen')
      · exact IdTable.eq_of_id hr hr' (hid.trans hid'.symm)

theorem later_insert (t : ResponderTable) (order : ResponderOrder) (now : Instant) :
    Later t.rows (insertResponder t order now).rows :=
  fun r hr => ⟨r, IdTable.mem_insert.mpr (.inl hr), .refl r⟩

/-! ## Runs -/

section Runs

variable {dir : Directory} {d : Desk}

/-- What a check has read is sound at once. -/
theorem sound_of_checkOrder {order : ResponderOrder} (h : checkOrder dir d.responders.rows order = .ok ()) :
    (Operation.create order d.responders.rows).Sound d.responders.rows := by
  unfold checkOrder at h
  split_ifs at h with hgroup hopen
  · split at h <;> cases h
  · intro r hr
    exact ⟨findOpen_eq_none (Bool.eq_false_iff.mpr hopen) r hr, r, hr, .refl r⟩

/-- An answer that passes its check has an edge to go. -/
theorem sound_of_checkChange {group : ℕ} {change : StatusChange} {read : Responder}
    (h : checkChange dir d.responders group change = .ok read) :
    (Operation.setStatus change read).Sound d.responders.rows := by
  unfold checkChange at h
  split_ifs at h with _ hvalid
  -- the responder that was read is one of the group
  split at h
  · cases h
  · rename_i responder hfound
    split_ifs at h
    unfold validateResponderStatusTransition at h
    obtain ⟨hget, -⟩ := Option.filter_eq_some_iff.mp hfound
    obtain ⟨hmem, hid⟩ := IdTable.get_eq_some.mp hget
    have hnew : change.status ≠ .requested := by
      intro hrequested
      rw [hrequested] at hvalid
      exact absurd hvalid (by decide)
    -- the change is an edge from its status
    split_ifs at h with hsame hedge
    · cases h
      exact ⟨.inl hsame.symm, hnew, _, hmem, hid, ResponderStatus.mem_followers_self⟩
    · cases h
      exact ⟨.inr hedge, hnew, _, hmem, hid, ResponderStatus.mem_followers_self⟩
    · cases h

/-- A check either refuses the operation or starts a sound one; nothing is written. -/
theorem next_begin (action : Action) (h : ∀ index now, action ≠ .proceed index now) :
    d.next dir action = d ∨ ∃ operation, operation.Sound d.responders.rows ∧
      d.next dir action = d.start operation := by
  cases action with
  | beginCreate order =>
    cases hcheck : checkOrder dir d.responders.rows order with
    | error e => exact .inl (by simp only [Desk.next, hcheck])
    | ok u => exact .inr ⟨_, sound_of_checkOrder hcheck, by simp only [Desk.next, hcheck]⟩
  | beginStatus group change =>
    cases hcheck : checkChange dir d.responders group change with
    | error e => exact .inl (by simp only [Desk.next, hcheck])
    | ok read => exact .inr ⟨_, sound_of_checkChange hcheck, by simp only [Desk.next, hcheck]⟩
  | beginExpiry now limit => exact .inr ⟨.expire _, trivial, rfl⟩
  | proceed index now => exact absurd rfl (h index now)

/-- Rows that stay as they are. -/
theorem edges_refl (t : ResponderTable) : Edges t.rows t.rows :=
  fun _ hr _ hr' hid => .inl (by rw [IdTable.eq_of_id hr' hr hid])

/-- **One write.** It is legal, if and only if nothing disturbed what was checked for it. -/
theorem legal_write_iff {operation : Operation} (hone : OneOpen d.responders.rows)
    (h : operation.Sound d.responders.rows) (index : ℕ) (now : Instant) :
    (Edges d.responders.rows (d.write index now operation).responders.rows ∧
      OneOpen (d.write index now operation).responders.rows) ↔
      operation.Undisturbed d.responders.rows := by
  cases operation with
  | create order checked => exact legal_request_iff h hone
  | setStatus change read => exact legal_answer_iff h hone
  | expire due =>
    refine iff_of_true ?_ trivial
    cases due with
    | nil => exact ⟨edges_refl _, hone⟩
    | cons id due =>
      have hrewritten := rewritten_expire d.responders id now
      exact ⟨hrewritten.edges, hrewritten.oneOpen hone⟩

/-- What is written is a later table for the operations that wait. -/
theorem later_write {operation : Operation} (h : operation.Sound d.responders.rows)
    (hundisturbed : operation.Undisturbed d.responders.rows) (index : ℕ) (now : Instant) :
    Later d.responders.rows (d.write index now operation).responders.rows := by
  cases operation with
  | create order checked => exact later_insert d.responders order now
  | setStatus change read => exact (rewritten_answer h hundisturbed).later
  | expire due =>
    cases due with
    | nil => exact fun r hr => ⟨r, hr, .refl r⟩
    | cons id due => exact (rewritten_expire d.responders id now).later

/-- The operations behind a write: one that waited, or the rest of an expiry. -/
theorem mem_write {operation waiting : Operation} {index : ℕ} {now : Instant}
    (h : waiting ∈ (d.write index now operation).operations) :
    waiting ∈ d.operations ∨ ∃ due, waiting = .expire due := by
  cases operation with
  | create order checked => exact .inl (List.mem_of_mem_eraseIdx h)
  | setStatus change read => exact .inl (List.mem_of_mem_eraseIdx h)
  | expire due =>
    cases due with
    | nil => exact .inl (List.mem_of_mem_eraseIdx h)
    | cons id due =>
      rcases List.mem_or_eq_of_mem_set h with hold | hrest
      · exact .inl hold
      · exact .inr ⟨due, hrest⟩

/-- **A step is legal if and only if it is undisturbed.** -/
theorem legal_iff (h : d.Sound) (action : Action) : Legal dir d action ↔ Undisturbed d action := by
  -- beginning an operation writes nothing
  have hbegin (hnot : ∀ index now, action ≠ .proceed index now) : Legal dir d action := by
    unfold Legal
    rcases @next_begin dir d action hnot with hsame | ⟨operation, -, hstart⟩
    · rw [hsame]
      exact ⟨edges_refl _, h.oneOpen⟩
    · rw [hstart]
      exact ⟨edges_refl _, h.oneOpen⟩
  cases action with
  | beginCreate order => exact iff_of_true (hbegin (by simp)) trivial
  | beginStatus group change => exact iff_of_true (hbegin (by simp)) trivial
  | beginExpiry now limit => exact iff_of_true (hbegin (by simp)) trivial
  | proceed index now =>
    unfold Legal Undisturbed
    -- an operation that goes on writes what it checked, or what is due
    cases hoperation : d.operations[index]? with
    | none =>
      simp only [Desk.next, hoperation]
      exact iff_of_true ⟨edges_refl _, h.oneOpen⟩ (by simp)
    | some operation =>
      have hsound := h.operations operation (List.mem_of_getElem? hoperation)
      simp only [Desk.next, hoperation, Option.mem_some, forall_eq']
      exact legal_write_iff h.oneOpen hsound index now

theorem sound_next (h : d.Sound) {action : Action} (hundisturbed : Undisturbed d action) :
    (d.next dir action).Sound := by
  have hone : OneOpen (d.next dir action).responders.rows := ((legal_iff h action).mpr hundisturbed).2
  refine ⟨hone, ?_⟩
  have hbegin (hnot : ∀ index now, action ≠ .proceed index now) :
      ∀ operation ∈ (d.next dir action).operations,
        operation.Sound (d.next dir action).responders.rows := by
    rcases @next_begin dir d action hnot with hsame | ⟨started, hstarted, hstart⟩
    · rw [hsame]
      exact h.operations
    · rw [hstart]
      intro operation hoperation
      -- an operation is an old one, or the new one as it begins
      rcases List.mem_append.mp hoperation with hold | hnew
      · exact h.operations operation hold
      · rw [List.mem_singleton.mp hnew]
        exact hstarted
  cases action with
  | beginCreate order => exact hbegin (by simp)
  | beginStatus group change => exact hbegin (by simp)
  | beginExpiry now limit => exact hbegin (by simp)
  | proceed index now =>
    cases hoperation : d.operations[index]? with
    | none =>
      simp only [Desk.next, hoperation]
      exact h.operations
    | some operation =>
      simp only [Desk.next, hoperation]
      have hsound := h.operations operation (List.mem_of_getElem? hoperation)
      -- what was read stays legal behind the write
      have hlater := later_write hsound (hundisturbed operation hoperation) index now
      intro waiting hwaiting
      rcases mem_write hwaiting with hold | ⟨due, rfl⟩
      · exact (h.operations waiting hold).later hlater
      · trivial

/-- A desk at which nothing is under way. -/
structure Desk.Fresh (d : Desk) : Prop where
  operations : d.operations = []
  oneOpen : OneOpen d.responders.rows

/-- **A run is legal if and only if no write of it is disturbed.** -/
theorem responders_legal_iff (dir : Directory) (d : Desk) (h : d.Fresh) (actions : List Action) :
    Along (Desk.next dir) (Legal dir) d actions ↔ Along (Desk.next dir) Undisturbed d actions :=
  along_iff (I := Desk.Sound) (fun _ action hs => legal_iff hs action) (fun _ _ hs hu => sound_next hs hu)
    ⟨h.oneOpen, by simp [h.operations]⟩ actions

end Runs

/-! ## Two runs -/

/-- Every group is there, every target is in order, and everyone may answer. -/
def openDirectory : Directory where
  hasGroup := fun _ => true
  targetError := fun _ _ => none
  mayUpdate := fun _ _ _ _ => true

def emptyDesk : Desk := ⟨.empty, []⟩

def helpOrder : ResponderOrder where
  group := 1
  target := ⟨.user, 7⟩
  requestedBy := none
  message := none
  expiresAfterMinutes := 1

def acceptance : StatusChange where
  responder := 1
  status := .accepted
  user := some 7
  responseMessage := none

theorem responders_legal_answered :
    emptyDesk.Fresh ∧ Along (Desk.next openDirectory) (Legal openDirectory) emptyDesk
      [.beginCreate helpOrder, .proceed 0 0, .beginStatus 1 acceptance, .proceed 0 5] := by
  have hfresh : emptyDesk.Fresh := ⟨rfl, fun _ _ _ hr => absurd hr List.not_mem_nil⟩
  refine ⟨hfresh, (responders_legal_iff openDirectory emptyDesk hfresh _).mpr ⟨trivial, ?_, trivial, ?_, trivial⟩⟩
  · rintro operation hoperation
    obtain rfl := Option.some.inj hoperation
    exact fun r hr => absurd hr List.not_mem_nil
  · rintro operation hoperation
    obtain rfl := Option.some.inj hoperation
    intro r hr _
    obtain rfl := List.mem_singleton.mp hr
    exact .inl rfl

/-- The acceptance was checked before the request expired and is written after it. -/
def lateAcceptance : List Action :=
  [.beginCreate helpOrder, .proceed 0 0, .beginStatus 1 acceptance, .beginExpiry (seconds 90) 100,
    .proceed 1 (seconds 90), .proceed 0 (seconds 91)]

/-- Both requests were checked before one of them was inserted. -/
def doubleRequest : List Action :=
  [.beginCreate helpOrder, .beginCreate helpOrder, .proceed 0 0, .proceed 0 0]

instance (rows rows' : List Responder) : Decidable (Edges rows rows') :=
  inferInstanceAs (Decidable (∀ r ∈ rows, ∀ r' ∈ rows', r'.id = r.id →
    r'.status = r.status ∨ r'.status ∈ r.status.transitions))

theorem expired_then_accepted : emptyDesk.Fresh ∧
    ¬Along (Desk.next openDirectory) (Legal openDirectory) emptyDesk lateAcceptance ∧
    ¬Along (Desk.next openDirectory) (Legal openDirectory) emptyDesk doubleRequest := by
  refine ⟨⟨rfl, fun _ _ _ hr => absurd hr List.not_mem_nil⟩, ?_, ?_⟩
  · rintro ⟨-, -, -, -, -, ⟨hedges, -⟩, -⟩
    -- the row is expired before the last step and accepted behind it
    exact absurd hedges (by decide +kernel)
  · rintro ⟨-, -, -, ⟨-, hone⟩, -⟩
    have hrows : ((doubleRequest.foldl (Desk.next openDirectory) emptyDesk).responders.rows).map
        (fun r => (r.id, r.openFor helpOrder.group helpOrder.target)) = [(1, true), (2, true)] := by
      decide +kernel
    obtain ⟨r, hr, hfirst⟩ := List.mem_map.mp (hrows ▸ List.mem_cons_self)
    obtain ⟨r', hr', hsecond⟩ := List.mem_map.mp (hrows ▸ List.mem_cons_of_mem _ List.mem_cons_self)
    obtain ⟨hid, hopen⟩ := Prod.mk.inj hfirst
    obtain ⟨hid', hopen'⟩ := Prod.mk.inj hsecond
    have hsame := hone helpOrder.group helpOrder.target r hr r' hr' hopen hopen'
    rw [hsame, hid'] at hid
    exact absurd hid (by decide)

end IncidentRelay.Responders
