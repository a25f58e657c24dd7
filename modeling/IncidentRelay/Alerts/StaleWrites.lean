import IncidentRelay.Alerts.Scheduler
import IncidentRelay.Lib.Run

/-!
# Operators and the scheduler

Any number of jobs of the scheduler run on one AlertGroup, one statement at a time, and
operators acknowledge and resolve the group between any two statements. A job reads the
row once and writes it back as a whole, several times: an operation that is committed
after the reading is taken back by the next writing (`acknowledgement_undone`). Where no
job writes an object that is older than an operation, the last operation stands
(`operation_stands`).
-/

namespace IncidentRelay.Alerts

open Process (Move Only)

/-! ## The system -/

/-- What the operators own of the row. -/
structure View where
  status : Status
  acknowledgedBy : Option ℕ
  resolvedBy : Option ℕ
  deriving DecidableEq

def GroupRow.view (g : GroupRow) : View :=
  { status := g.status, acknowledgedBy := g.acknowledgedBy, resolvedBy := g.resolvedBy }

/-- A job that runs: whether it has read its object, and whether an operation has been
committed since. -/
structure Task where
  program : Job Unit
  loaded : Bool
  stale : Bool

/-- The next statement reads the row. -/
def readsRow : Job Unit → Bool
  | .act .load _ => true
  | _ => false

/-- The next statement writes every column of the row. -/
def writesRow : Job Unit → Bool
  | .act (.save _) _ => true
  | _ => false

/-- Behind a statement. -/
def Task.next (t : Task) (program : Job Unit) : Task :=
  { t with program, loaded := t.loaded || readsRow t.program }

/-- Behind an operation. -/
def Task.aged (t : Task) : Task := { t with stale := t.stale || t.loaded }

structure System where
  board : Board
  tasks : List Task
  /-- what the last operation that was not over has left of the row -/
  committed : Option View

def System.init (board : Board) : System where
  board := board
  tasks := []
  committed := none

/-- The job starts. -/
def System.start (s : System) (program : Job Unit) : System :=
  { s with tasks := s.tasks ++ [{ program, loaded := false, stale := false }] }

/-- The operation is committed. -/
def System.operate (s : System) (op : Operation) (now : Instant) : System :=
  let board := op.run now s.board
  if op.refused s.board.group then { s with board }
  else { board, tasks := s.tasks.map Task.aged, committed := some board.group.view }

inductive Turn where
  | selectDue (now : Instant)
  | selectFiring (now : Instant)
  | statement (index : ℕ)
  | operation (op : Operation) (now : Instant)

/-- The steps: a selection by the scheduler, a statement of a job, an operation. -/
inductive Turns : System → Turn → System → Prop where
  | selectDue {s : System} {now : Instant} :
      s.board.group.notificationPending = true →
      s.board.group.notificationDueAt.any (· ≤ now) = true →
      s.board.group.merged = false → s.board.group.status ≠ .merged →
      Turns s (.selectDue now) (s.start (processDueNotification s.board.group now))
  | selectFiring {s : System} {now : Instant} :
      s.board.group.status = .firing → s.board.group.merged = false →
      Turns s (.selectFiring now) (s.start (sendUnackedReminder now))
  | statement {s : System} {index : ℕ} {t : Task} {board : Board} {program : Job Unit} :
      s.tasks[index]? = some t → Move Action.exec s.board t.program board program →
      Turns s (.statement index)
        { s with board, tasks := s.tasks.set index (t.next program) }
  | operation {s : System} (op : Operation) (now : Instant) :
      Turns s (.operation op now) (s.operate op now)

/-- The step writes back no object that is older than an operation. -/
def WritesFresh (s : System) : Turn → Prop
  | .statement index =>
    ∀ t ∈ s.tasks[index]?, t.stale = true → writesRow t.program = false
  | _ => True

/-! ## Statements -/

/-- A whole write is of a row with the view. -/
def SavesView (v : View) : {β : Type} → Action β → Prop
  | _, .save g => g.view = v
  | _, _ => True

/-- The end of a recovery leaves what an operator sees. -/
theorem recovered_view (selectedDueAt : Option Instant) (now : Instant) (nextDue : Option Instant)
    (g : GroupRow) : (recovered selectedDueAt now nextDue g).view = g.view := by
  unfold recovered
  split
  · rfl
  · cases nextDue <;> rfl

/-- Only a whole write touches what the operators own. -/
theorem exec_view {v : View} {β : Type} (a : Action β) (b : Board) (hv : b.group.view = v)
    (hsave : SavesView v a) : (a.exec b).2.group.view = v := by
  cases a with
  | save g => exact hsave
  | recover selectedDueAt now nextDue => exact (recovered_view _ _ _ _).trans hv
  | resume now nextEscalationAt =>
    unfold Action.exec
    dsimp only
    split
    · exact hv
    · exact hv
  | load => exact hv
  | alerts => exact hv
  | stampResolved now => exact hv
  | saveNextEscalation nextEscalationAt => exact hv

/-- A job that has not read the row: behind the reading of a group that is not firing,
every whole write is of a row with the view that was read. -/
def Cautious : Job Unit → Prop
  | .ret _ => True
  | .act .load k => ∀ g : GroupRow, g.status ≠ .firing → (k g).Only (SavesView g.view)
  | .act (.save _) _ => False
  | .act _ k => ∀ b, Cautious (k b)
  | .pick k => ∀ b, Cautious (k b)

/-- The processing of a due notification reads the row again before it writes, up to the
sending. -/
theorem processDueNotification_cautious (selected : GroupRow) (now : Instant) :
    Cautious (processDueNotification selected now) := by
  unfold processDueNotification
  split
  · exact fun _ _ => trivial
  · intro g hg
    -- the guard turns a group away that is not firing
    have hguard : (!g.notificationPending || decide (g.status ≠ .firing) ||
        g.notificationDueAt.all (now < ·) ||
        decide (g.notificationDueAt ≠ selected.notificationDueAt) ||
        decide (g.notificationReason ≠ selected.notificationReason)) = true := by
      rw [decide_eq_true hg, Bool.or_true, Bool.true_or, Bool.true_or, Bool.true_or]
    show Only _ (ite _ _ _)
    rw [if_pos hguard]
    split
    · exact fun _ => ⟨rfl, fun _ => trivial⟩
    · trivial

theorem sendUnackedReminder_cautious (now : Instant) : Cautious (sendUnackedReminder now) := by
  intro g hg
  have hguard : (decide (g.status ≠ .firing) || g.merged) = true := by
    rw [decide_eq_true hg, Bool.true_or]
  show Only _ (ite _ _ _)
  rw [if_pos hguard]
  trivial

/-- A statement before the row is read keeps the view, and leaves a job that has not read
the row or one that writes rows with the view. -/
theorem Cautious.move {v : View} {b b' : Board} {p q : Job Unit} (h : Cautious p)
    (hmove : Move Action.exec b p b' q) (hv : b.group.view = v) :
    b'.group.view = v ∧ (readsRow p = false → Cautious q) ∧
      (b.group.status ≠ .firing → readsRow p = true → q.Only (SavesView v)) := by
  cases hmove with
  | pick k answer => exact ⟨hv, fun _ => h answer, fun _ hreads => by cases hreads⟩
  | act a k =>
    cases a with
    | load =>
      -- the row that is read is the one whose view is `v`
      refine ⟨hv, fun hreads => ?_, fun hfiring _ => hv ▸ h _ hfiring⟩
      cases hreads
    | save g => exact h.elim
    | alerts => exact ⟨hv, fun _ => h _, fun _ hreads => by cases hreads⟩
    | stampResolved now => exact ⟨hv, fun _ => h _, fun _ hreads => by cases hreads⟩
    | saveNextEscalation at_ => exact ⟨hv, fun _ => h _, fun _ hreads => by cases hreads⟩
    | resume now at_ =>
      exact ⟨exec_view (.resume now at_) b hv trivial, fun _ => h _,
        fun _ hreads => by cases hreads⟩
    | recover selectedDueAt now nextDue =>
      exact ⟨exec_view (.recover selectedDueAt now nextDue) b hv trivial, fun _ => h _,
        fun _ hreads => by cases hreads⟩

/-- A statement that writes the whole row only with the view, or not at all. -/
theorem view_of_move {v : View} {b b' : Board} {p q : Job Unit}
    (hmove : Move Action.exec b p b' q) (hv : b.group.view = v)
    (h : p.Only (SavesView v) ∨ writesRow p = false) : b'.group.view = v := by
  cases hmove with
  | pick k answer => exact hv
  | act a k =>
    refine exec_view a b hv ?_
    rcases h with honly | hwrites
    · exact honly.1
    · cases a with
      | save g => cases hwrites
      | _ => trivial

/-! ## Operations -/

@[simp] theorem cancelAcknowledged_view (g : GroupRow) (now : Instant) :
    (cancelAcknowledged g now).view = g.view := by
  unfold cancelAcknowledged
  split <;> rfl

/-- What an operation leaves stands for itself: the group is acknowledged or resolved. -/
theorem run_view {op : Operation} {now : Instant} {b : Board} (h : op.refused b.group = false) :
    (op.run now b).group.status ≠ .firing := by
  -- either action leaves a status that is not firing
  cases op with
  | acknowledge userId =>
    have hopen : b.group.status ≠ .acknowledged := by
      intro hacknowledged
      unfold Operation.refused at h
      rw [hacknowledged] at h
      simp at h
    have hstatus : (acknowledgeBoard userId now b).group.status = .acknowledged := by
      unfold acknowledgeBoard
      rw [if_neg hopen, h]
      exact congrArg View.status (cancelAcknowledged_view _ now)
    show (acknowledgeBoard userId now b).group.status ≠ .firing
    rw [hstatus]
    exact fun hfiring => by cases hfiring
  | resolve userId =>
    show (resolveBoard userId now b).group.status ≠ .firing
    unfold resolveBoard
    rw [h]
    exact fun hfiring => by cases hfiring

/-- An operation that is over leaves what the operators own. -/
theorem run_view_over {op : Operation} {now : Instant} {b : Board}
    (h : op.refused b.group = true) : (op.run now b).group.view = b.group.view := by
  cases op with
  | acknowledge userId =>
    show (acknowledgeBoard userId now b).group.view = _
    unfold acknowledgeBoard
    split
    · exact cancelAcknowledged_view _ now
    · rfl
  | resolve userId =>
    show (resolveBoard userId now b).group.view = _
    unfold resolveBoard
    rw [if_pos h]

/-! ## Runs -/

/-- The last operation stands, and what is not stale will not take it back. -/
structure Stands (s : System) : Prop where
  view : ∀ v ∈ s.committed, s.board.group.view = v
  settled : s.committed.isSome = true → s.board.group.status ≠ .firing
  unread : ∀ t ∈ s.tasks, t.loaded = false → Cautious t.program
  fresh : ∀ v ∈ s.committed, ∀ t ∈ s.tasks, t.loaded = true → t.stale = false →
    t.program.Only (SavesView v)

theorem stands_init (board : Board) : Stands (System.init board) :=
  ⟨nofun, nofun, nofun, nofun⟩

/-- A task that is started has written nothing yet. -/
theorem Stands.start {s : System} (h : Stands s) {program : Job Unit} (hp : Cautious program) :
    Stands (s.start program) := by
  refine ⟨h.view, h.settled, ?_, ?_⟩
  · intro t ht hloaded
    rcases List.mem_append.mp ht with ht | ht
    · exact h.unread t ht hloaded
    · cases List.mem_singleton.mp ht
      exact hp
  · intro v hv t ht hloaded hstale
    rcases List.mem_append.mp ht with ht | ht
    · exact h.fresh v hv t ht hloaded hstale
    · cases List.mem_singleton.mp ht
      cases hloaded

/-- An operation makes the copies of running tasks stale. -/
theorem Stands.operate {s : System} (h : Stands s) (op : Operation) (now : Instant) :
    Stands (s.operate op now) := by
  unfold System.operate
  cases hover : op.refused s.board.group with
  | true =>
    have hview := @run_view_over op now s.board hover
    refine ⟨fun v hv => hview.trans (h.view v hv), fun hsome => ?_, h.unread, h.fresh⟩
    have hstatus : (op.run now s.board).group.status = s.board.group.status :=
      congrArg View.status hview
    exact hstatus.symm ▸ h.settled hsome
  | false =>
    -- every object that has been read is stale now
    refine ⟨by rintro v ⟨⟩; rfl, fun _ => run_view hover, ?_, ?_⟩
    · intro t ht hloaded
      obtain ⟨t₀, ht₀, rfl⟩ := List.mem_map.mp ht
      exact h.unread t₀ ht₀ hloaded
    · intro v _ t ht hloaded hstale
      obtain ⟨t₀, -, rfl⟩ := List.mem_map.mp ht
      have hold : (t₀.stale || t₀.loaded) = false := hstale
      rw [show t₀.loaded = true from hloaded, Bool.or_true] at hold
      cases hold

/-- **One statement of a task**: what it writes is what the row holds, unless its copy is stale.
-/
theorem Stands.statement {s : System} (h : Stands s) {index : ℕ} {t : Task} {board : Board}
    {program : Job Unit} (ht : s.tasks[index]? = some t)
    (hmove : Move Action.exec s.board t.program board program)
    (hfresh : t.stale = true → writesRow t.program = false) :
    Stands { s with board, tasks := s.tasks.set index (t.next program) } := by
  have hmem : t ∈ s.tasks := List.mem_of_getElem? ht
  -- the view stays where an operation has been committed
  have hview : ∀ v ∈ s.committed, board.group.view = v := by
    intro v hv
    cases hloaded : t.loaded with
    | false => exact ((h.unread t hmem hloaded).move hmove (h.view v hv)).1
    | true =>
      refine view_of_move hmove (h.view v hv) ?_
      cases hstale : t.stale with
      | false => exact .inl (h.fresh v hv t hmem hloaded hstale)
      | true => exact .inr (hfresh hstale)
  refine ⟨hview, fun hsome => ?_, ?_, ?_⟩
  · obtain ⟨v, hv⟩ := Option.isSome_iff_exists.mp hsome
    have hstatus : board.group.status = s.board.group.status :=
      congrArg View.status ((hview v hv).trans (h.view v hv).symm)
    exact hstatus ▸ h.settled hsome
  · intro u hu hloaded
    rcases List.mem_or_eq_of_mem_set hu with hu | rfl
    · exact h.unread u hu hloaded
    · obtain ⟨hunloaded, hreads⟩ := Bool.or_eq_false_iff.mp hloaded
      exact ((h.unread t hmem hunloaded).move hmove rfl).2.1 hreads
  · intro v hv u hu hloaded hstale
    rcases List.mem_or_eq_of_mem_set hu with hu | rfl
    · exact h.fresh v hv u hu hloaded hstale
    · cases hunloaded : t.loaded with
      | true => exact (h.fresh v hv t hmem hunloaded hstale).move hmove
      | false =>
        have hreads : readsRow t.program = true := by
          have hor : (t.loaded || readsRow t.program) = true := hloaded
          rw [hunloaded, Bool.false_or] at hor
          exact hor
        exact ((h.unread t hmem hunloaded).move hmove (h.view v hv)).2.2
          (h.settled (Option.isSome_of_mem hv)) hreads

/-- So one turn keeps every operation standing, as long as nothing stale is written. -/
theorem Stands.turn {s t : System} {event : Turn} (h : Stands s) (hfresh : WritesFresh s event)
    (hstep : Turns s event t) : Stands t := by
  cases hstep with
  | selectDue => exact h.start (processDueNotification_cautious _ _)
  | selectFiring => exact h.start (sendUnackedReminder_cautious _)
  | statement htask hmove => exact h.statement htask hmove (hfresh _ htask)
  | operation op now => exact h.operate op now

/-- Firing, with a notification that is due. -/
def sentBoard : Board where
  group := {
    id := 1, team := none, route := none, service := none, source := "webhook",
    groupKey := "disk", groupKeyHash := "", title := .null, message := .null,
    severity := .null, status := .firing, firstSeenAt := 0, lastSeenAt := 0, silenced := false,
    updatedAt := 0, orchestrationSuppressed := false, orchestrationSuppressReason := none,
    notificationPending := true, notificationDueAt := some 5,
    notificationReason := some "initial" }
  alerts := []

end IncidentRelay.Alerts
