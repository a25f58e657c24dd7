import IncidentRelay.Incidents.Workflow

/-!
# Links between incidents and groups of alerts

`link_alert_group` holds a lock on the incident and on the group while it looks for other
links and inserts its own, so the calls for one group or one incident come one after the
other. The status of another incident is not under these locks: what opens a closed
incident again can leave a group with two open ones (`link_reopened_twice`), and nothing
else can (`links_exclusive`).
-/

namespace IncidentRelay.Incidents

open Json

/-! ## The system -/

inductive RelationType where
  | primary
  | related
  deriving DecidableEq, Repr

def RelationType.text : RelationType → String
  | .primary => "primary"
  | .related => "related"

/-- `IncidentAlertGroupLink` -/
structure Link where
  id : ℕ
  incident : Id
  alertGroup : Id
  relationType : RelationType
  linkedBy : Option Id
  removedBy : Option Id
  removedAt : Option Instant
  deriving DecidableEq

/-- `removed_at IS NULL` -/
def Link.unremoved (link : Link) : Bool := link.removedAt.isNone

/-- A call of `link_alert_group`, with what it has behind it. -/
structure LinkCall where
  incident : Id
  alertGroup : Id
  relationType : RelationType
  user : Option Id
  /-- the rows of the incident and the group are locked -/
  locked : Bool := false
  /-- `active_link(incident_id, alert_group_id)` found none -/
  unlinked : Bool := false
  /-- `active_link_for_group(alert_group_id)` found no other incident -/
  unclaimed : Bool := false
  /-- `active_primary_link(incident_id)` found none, where the link is to be the primary one -/
  sole : Bool := false
  deriving DecidableEq

/-- What is read of an `AlertGroup`. -/
structure GroupRow where
  id : Id
  team : Option Id
  service : Option Id
  title : String

structure LinkDesk where
  desk : Desk
  links : List Link
  calls : List LinkCall

def LinkDesk.init : LinkDesk := { desk := Desk.init, links := [], calls := [] }

/-- The incident is there, and neither closed nor cancelled. -/
def LinkDesk.opened (s : LinkDesk) (id : Id) : Bool :=
  (s.desk.incidents id).any fun i => !i.workflowStatus.terminal

/-- `active_link(incident_id, alert_group_id)` -/
def activeLink (s : LinkDesk) (incident alertGroup : Id) : Option Link :=
  s.links.reverse.find? fun link =>
    link.unremoved && link.incident = incident && link.alertGroup = alertGroup

/-- `active_link_for_group(alert_group_id)` -/
def activeLinkForGroup (s : LinkDesk) (alertGroup : Id) : Option Link :=
  s.links.reverse.find? fun link =>
    link.unremoved && link.alertGroup = alertGroup && s.opened link.incident

/-- `active_primary_link(incident_id)` -/
def activePrimaryLink (s : LinkDesk) (incident : Id) : Option Link :=
  s.links.reverse.find? fun link =>
    link.unremoved && link.incident = incident && link.relationType = .primary

/-- The row that a call inserts. -/
def LinkCall.link (c : LinkCall) (id : ℕ) : Link where
  id := id
  incident := c.incident
  alertGroup := c.alertGroup
  relationType := c.relationType
  linkedBy := c.user
  removedBy := none
  removedAt := none

/-- `create_link(…)`, with its event. -/
def LinkDesk.insert (s : LinkDesk) (c : LinkCall) : LinkDesk :=
  { s with
    links := s.links.concat (c.link s.links.length)
    desk := s.desk.log c.incident "incident_group_linked" c.user
      (.obj [("alert_group_id", .int (c.alertGroup : ℕ)),
        ("relation_type", .str c.relationType.text)]) }

/-- `remove_link(link_id)`, with its event. -/
def LinkDesk.remove (s : LinkDesk) (link : Link) (user : Option Id) (now : Instant) : LinkDesk :=
  { s with
    links := s.links.map fun l =>
      if l.id = link.id ∧ l.unremoved = true
      then { l with removedBy := user, removedAt := some now } else l
    desk := s.desk.log link.incident "incident_group_unlinked" user
      (.obj [("alert_group_id", .int (link.alertGroup : ℕ)),
        ("relation_type", .str link.relationType.text)]) }

def LinkDesk.setCalls (s : LinkDesk) (calls : List LinkCall) : LinkDesk := { s with calls }

inductive LinkLabel where
  | workflow (l : Label)
  | link (incident alertGroup : Id)
  | createFrom (incident alertGroup : Id)
  | check (c : LinkCall)
  | insert (c : LinkCall)
  | leave (c : LinkCall)
  | unlink (incident alertGroup : Id)

/-- The calls hold no lock that the call needs. -/
def Unlocked (calls : List LinkCall) (c : LinkCall) : Prop :=
  ∀ d ∈ calls, d.locked = true → d.incident ≠ c.incident ∧ d.alertGroup ≠ c.alertGroup

/-- A query of a call, and what the call has behind it then. -/
inductive Check (s : LinkDesk) : List LinkCall → LinkCall → LinkCall → Prop where
  | lock {others : List LinkCall} {c : LinkCall} : Unlocked others c →
      Check s others c { c with locked := true }
  | unlinked {others : List LinkCall} {c : LinkCall} : c.locked = true →
      activeLink s c.incident c.alertGroup = none → Check s others c { c with unlinked := true }
  | unclaimed {others : List LinkCall} {c : LinkCall} : c.unlinked = true → c.locked = true →
      (∀ link, activeLinkForGroup s c.alertGroup = some link → link.incident = c.incident) →
      Check s others c { c with unclaimed := true }
  | sole {others : List LinkCall} {c : LinkCall} : c.unclaimed = true → c.locked = true →
      (c.relationType = .primary → activePrimaryLink s c.incident = none) →
      Check s others c { c with sole := true }

/-- A step of the system. -/
inductive LinkStep : LinkDesk → LinkLabel → LinkDesk → Prop where
  /-- a step of the workflow; the lock of a call may hold up a commit, but need not -/
  | workflow {s : LinkDesk} {l : Label} {d : Desk} : Step s.desk l d →
      LinkStep s (.workflow l) { s with desk := d }
  /-- `link_alert_group(…)` up to its transaction -/
  | link {s : LinkDesk} {incident : Id} {i : Incident} {group : GroupRow}
      {relationType : RelationType} {user : Option Id} : s.desk.incidents incident = some i →
      i.workflowStatus.terminal = false → group.team = i.team →
      LinkStep s (.link incident group.id)
        (s.setCalls ({ incident, alertGroup := group.id, relationType, user } :: s.calls))
  /-- `create_incident_from_alert_group(…)` up to its link: nobody else sees the incident
  before the link is there, and where it is not the transaction is rolled back -/
  | createFrom {s : LinkDesk} {incident : Id} {group : GroupRow} {d : Desk} {user : Option Id} :
      Step s.desk (.declare incident) d →
      LinkStep s (.createFrom incident group.id)
        { s with
          desk := d
          calls := { incident, alertGroup := group.id, relationType := .primary, user } :: s.calls }
  | check {s : LinkDesk} {before behind : List LinkCall} {c c' : LinkCall} :
      s.calls = before ++ c :: behind → Check s (before ++ behind) c c' →
      LinkStep s (.check c) (s.setCalls (before ++ c' :: behind))
  | insert {s : LinkDesk} {before behind : List LinkCall} {c : LinkCall} :
      s.calls = before ++ c :: behind → c.sole = true → c.unclaimed = true → c.unlinked = true →
      c.locked = true → LinkStep s (.insert c) ((s.insert c).setCalls (before ++ behind))
  /-- the call returns a link that is there, or fails, or is rolled back -/
  | leave {s : LinkDesk} {before behind : List LinkCall} {c : LinkCall} :
      s.calls = before ++ c :: behind → LinkStep s (.leave c) (s.setCalls (before ++ behind))
  /-- `unlink_alert_group(…)` -/
  | unlink {s : LinkDesk} {incident alertGroup : Id} {link : Link} {user : Option Id}
      {now : Instant} : activeLink s incident alertGroup = some link →
      LinkStep s (.unlink incident alertGroup) (s.remove link user now)

/-! ## The invariant -/

/-- A group has one link to an open incident at most, and an incident one primary link. -/
structure LinkDesk.Exclusive (s : LinkDesk) : Prop where
  oneOpen : ∀ l ∈ s.links, ∀ l' ∈ s.links, l.unremoved = true → l'.unremoved = true →
    l.alertGroup = l'.alertGroup → s.opened l.incident = true → s.opened l'.incident = true → l = l'
  onePrimary : ∀ l ∈ s.links, ∀ l' ∈ s.links, l.unremoved = true → l'.unremoved = true →
    l.incident = l'.incident → l.relationType = .primary → l'.relationType = .primary → l = l'

/-- What a call has behind it still holds. -/
structure LinkCall.Sound (s : LinkDesk) (c : LinkCall) : Prop where
  known : (s.desk.incidents c.incident).isSome
  held : c.unlinked = true ∨ c.unclaimed = true ∨ c.sole = true → c.locked = true
  unlinked : c.unlinked = true → ∀ l ∈ s.links, l.unremoved = true →
    l.alertGroup = c.alertGroup → l.incident ≠ c.incident
  unclaimed : c.unclaimed = true → ∀ l ∈ s.links, l.unremoved = true →
    l.alertGroup = c.alertGroup → l.incident ≠ c.incident → s.opened l.incident = false
  sole : c.sole = true → c.relationType = .primary → ∀ l ∈ s.links,
    l.unremoved = true → l.relationType = .primary → l.incident ≠ c.incident

/-- Two calls do not hold one lock. -/
def Apart (c d : LinkCall) : Prop :=
  c.locked = true → d.locked = true → c.incident ≠ d.incident ∧ c.alertGroup ≠ d.alertGroup

structure LinkDesk.Inv (s : LinkDesk) : Prop where
  exclusive : s.Exclusive
  onePair : ∀ l ∈ s.links, ∀ l' ∈ s.links, l.unremoved = true → l'.unremoved = true →
    l.alertGroup = l'.alertGroup → l.incident = l'.incident → l = l'
  known : ∀ l ∈ s.links, (s.desk.incidents l.incident).isSome
  sound : ∀ c ∈ s.calls, c.Sound s
  apart : s.calls.Pairwise Apart

theorem Apart.symm {c d : LinkCall} (h : Apart c d) : Apart d c := fun hd hc =>
  ⟨(h hc hd).1.symm, (h hc hd).2.symm⟩

/-- The call in the middle holds no lock of the others. -/
theorem apart_middle {before behind : List LinkCall} {c : LinkCall} :
    (before ++ c :: behind).Pairwise Apart ↔
      (before ++ behind).Pairwise Apart ∧ ∀ d ∈ before ++ behind, Apart c d := by
  rw [List.pairwise_middle Apart.symm, List.pairwise_cons, and_comm]

/-- There are no links at first. -/
theorem links_init : LinkDesk.init.Inv where
  exclusive := ⟨fun _ h => absurd h (List.not_mem_nil), fun _ h => absurd h (List.not_mem_nil)⟩
  onePair := fun _ h => absurd h (List.not_mem_nil)
  known := fun _ h => absurd h (List.not_mem_nil)
  sound := fun _ h => absurd h (List.not_mem_nil)
  apart := List.Pairwise.nil

/-! ## Steps of the workflow -/

/-- The commit opens an incident that was closed. -/
def Opens (s : LinkDesk) (a : Attempt) : Prop :=
  s.opened a.incident = false ∧
    ∃ i now, s.desk.incidents a.incident = some i ∧
      (a.write.changes.apply now i).workflowStatus.terminal = false

/-- No group of the incident has a link to another open incident, or a call that is about
to insert one. -/
structure OpensAlone (s : LinkDesk) (incident : Id) : Prop where
  link : ∀ l ∈ s.links, l.unremoved = true → l.incident = incident → ∀ l' ∈ s.links,
    l'.unremoved = true → l'.alertGroup = l.alertGroup → l'.incident ≠ incident →
    s.opened l'.incident = false
  call : ∀ l ∈ s.links, l.unremoved = true → l.incident = incident → ∀ c ∈ s.calls,
    c.alertGroup = l.alertGroup → c.incident ≠ incident → c.unclaimed = false

/-- A desk whose incidents are those of the old one, with none opened again. -/
structure Milder (s : LinkDesk) (d : Desk) : Prop where
  known : ∀ id, (s.desk.incidents id).isSome → (d.incidents id).isSome
  opened : ∀ id, (s.desk.incidents id).isSome → s.opened id = false →
    LinkDesk.opened { s with desk := d } id = false

/-- A desk that closes incidents only keeps the links as they should be. -/
theorem Milder.inv {s : LinkDesk} {d : Desk} (h : s.Inv) (hd : Milder s d) :
    LinkDesk.Inv { s with desk := d } where
  exclusive :=
    { oneOpen := by
        intro l hl l' hl' hu hu' hgroup hopen hopen'
        have hwas (l : Link) (hl : l ∈ s.links)
            (ho : LinkDesk.opened { s with desk := d } l.incident = true) :
            s.opened l.incident = true := by
          by_contra hno
          rw [hd.opened _ (h.known l hl) (by simpa using hno)] at ho
          cases ho
        exact h.exclusive.oneOpen l hl l' hl' hu hu' hgroup (hwas l hl hopen) (hwas l' hl' hopen')
      onePrimary := h.exclusive.onePrimary }
  onePair := h.onePair
  known := fun l hl => hd.known _ (h.known l hl)
  sound := fun c hc =>
    { known := hd.known _ (h.sound c hc).known
      unlinked := (h.sound c hc).unlinked
      held := (h.sound c hc).held
      unclaimed := fun hunclaimed l hl hu hgroup hne =>
        hd.opened _ (h.known l hl) ((h.sound c hc).unclaimed hunclaimed l hl hu hgroup hne)
      sole := (h.sound c hc).sole }
  apart := h.apart

/-- The rows that a step of the workflow leaves: those of a commit apart, all of them. -/
theorem workflow_rows {s t : Desk} {l : Label} (hstep : Step s l t) :
    (∀ id, (s.incidents id).isSome → t.incidents id = s.incidents id) ∨
    ∃ a i now, l = .commit a ∧ s.incidents a.incident = some i ∧
      t.incidents = Function.update s.incidents a.incident
        (some (a.write.changes.apply now i)) := by
  cases hstep with
  | @declare _ new _ _ _ _ _ _ _ _ k hnew _ =>
    refine .inl fun id hid => ?_
    have hne : id ≠ new := by
      rintro rfl
      rw [hnew] at hid
      cases hid
    exact Function.update_of_ne hne ..
  | read _ => exact .inl fun _ _ => rfl
  | call _ _ _ _ => exact .inl fun _ _ => rfl
  | reopen _ _ => exact .inl fun _ _ => rfl
  | drop _ => exact .inl fun _ _ => rfl
  | @commit a before behind i now _ hrow _ => exact .inr ⟨a, i, now, rfl, hrow, rfl⟩

theorem milder_of_same {s : LinkDesk} {d : Desk}
    (h : ∀ id, (s.desk.incidents id).isSome → d.incidents id = s.desk.incidents id) :
    Milder s d where
  known := fun id hid => by rw [h id hid]; exact hid
  opened := fun id hid hclosed => by
    show (d.incidents id).any _ = false
    rw [h id hid]
    exact hclosed

/-- A commit that opens an incident alone keeps the invariant. -/
theorem opens_inv {s : LinkDesk} {d : Desk} {id : Id} {i : Incident} (h : s.Inv)
    (hd : d.incidents = Function.update s.desk.incidents id (some i))
    (halone : OpensAlone s id) : LinkDesk.Inv { s with desk := d } := by
  have hother (o : Id) (ho : o ≠ id) : LinkDesk.opened { s with desk := d } o = s.opened o := by
    show (d.incidents o).any _ = (s.desk.incidents o).any _
    rw [hd, Function.update_of_ne ho]
  have hknown (o : Id) (ho : (s.desk.incidents o).isSome) : (d.incidents o).isSome := by
    rw [hd]
    by_cases heq : o = id
    · rw [heq, Function.update_self]
      rfl
    · rwa [Function.update_of_ne heq]
  -- a link to the incident is the only open one of its group
  have hfirst (l : Link) (hl : l ∈ s.links) (hu : l.unremoved = true) (heq : l.incident = id)
      (l' : Link) (hl' : l' ∈ s.links) (hu' : l'.unremoved = true)
      (hgroup : l.alertGroup = l'.alertGroup)
      (hopen : LinkDesk.opened { s with desk := d } l'.incident = true) : l = l' := by
    by_cases heq' : l'.incident = id
    · exact h.onePair l hl l' hl' hu hu' hgroup (heq.trans heq'.symm)
    · rw [hother _ heq', halone.link l hl hu heq l' hl' hu' hgroup.symm heq'] at hopen
      cases hopen
  refine ⟨⟨?_, h.exclusive.onePrimary⟩, h.onePair, fun l hl => hknown _ (h.known l hl), ?_, h.apart⟩
  · intro l hl l' hl' hu hu' hgroup hopen hopen'
    by_cases heq : l.incident = id
    · exact hfirst l hl hu heq l' hl' hu' hgroup hopen'
    · by_cases heq' : l'.incident = id
      · exact (hfirst l' hl' hu' heq' l hl hu hgroup.symm hopen).symm
      · exact h.exclusive.oneOpen l hl l' hl' hu hu' hgroup ((hother _ heq) ▸ hopen)
          ((hother _ heq') ▸ hopen')
  · intro c hc
    refine ⟨hknown _ (h.sound c hc).known, (h.sound c hc).held, (h.sound c hc).unlinked, ?_,
      (h.sound c hc).sole⟩
    intro hunclaimed l hl hu hgroup hne
    by_cases heq : l.incident = id
    · -- the call would not be behind its query
      have hfalse := halone.call l hl hu heq c hc hgroup.symm (fun hci => hne (heq.trans hci.symm))
      rw [hunclaimed] at hfalse
      cases hfalse
    · rw [hother _ heq]
      exact (h.sound c hc).unclaimed hunclaimed l hl hu hgroup hne

/-- **A step of the workflow keeps the invariant, unless it opens an incident of a group
with another one.** -/
theorem workflow_inv {s : LinkDesk} {l : Label} {d : Desk} (h : s.Inv) (hstep : Step s.desk l d)
    (hsafe : ∀ a, l = .commit a → Opens s a → OpensAlone s a.incident) :
    LinkDesk.Inv { s with desk := d } := by
  -- the request rewrites incidents only, and perhaps opens one
  rcases workflow_rows hstep with hsame | ⟨a, i, now, rfl, hrow, hd⟩
  · exact (milder_of_same hsame).inv h
  · by_cases hopens : Opens s a
    · exact opens_inv h hd (hsafe a rfl hopens)
    -- an incident that is not opened keeps its links
    · refine Milder.inv h ⟨fun o ho => ?_, fun o ho hclosed => ?_⟩
      · rw [hd]
        by_cases heq : o = a.incident
        · rw [heq, Function.update_self]
          rfl
        · rwa [Function.update_of_ne heq]
      · show (d.incidents o).any _ = false
        rw [hd]
        by_cases heq : o = a.incident
        · subst heq
          rw [Function.update_self]
          have hterminal : (a.write.changes.apply now i).workflowStatus.terminal = true := by
            by_contra hno
            exact hopens ⟨hclosed, i, now, hrow, by simpa using hno⟩
          show (!(a.write.changes.apply now i).workflowStatus.terminal) = false
          rw [hterminal]
          rfl
        · rw [Function.update_of_ne heq]
          exact hclosed

/-! ## Steps of the links -/

/-- What a call has behind it does not depend on the other calls. -/
theorem setCalls_inv {s : LinkDesk} (h : s.Inv) {calls : List LinkCall}
    (hsound : ∀ c ∈ calls, c.Sound s) (hapart : calls.Pairwise Apart) : (s.setCalls calls).Inv where
  exclusive := ⟨h.exclusive.oneOpen, h.exclusive.onePrimary⟩
  onePair := h.onePair
  known := h.known
  sound := fun c hc =>
    { known := (hsound c hc).known
      held := (hsound c hc).held
      unlinked := (hsound c hc).unlinked
      unclaimed := (hsound c hc).unclaimed
      sole := (hsound c hc).sole }
  apart := hapart

/-- A call that begins has nothing behind it. -/
structure LinkCall.New (c : LinkCall) : Prop where
  unlocked : c.locked = false
  unlinked : c.unlinked = false
  unclaimed : c.unclaimed = false
  sole : c.sole = false

/-- A call that begins has read nothing yet. -/
theorem LinkCall.New.sound {s : LinkDesk} {c : LinkCall} (h : c.New)
    (hknown : (s.desk.incidents c.incident).isSome) : c.Sound s where
  known := hknown
  held := by
    rw [h.unlinked, h.unclaimed, h.sole]
    simp
  unlinked := fun hc => by
    rw [h.unlinked] at hc
    cases hc
  unclaimed := fun hc => by
    rw [h.unclaimed] at hc
    cases hc
  sole := fun hc => by
    rw [h.sole] at hc
    cases hc

/-- A call may begin. -/
theorem begin_inv {s : LinkDesk} (h : s.Inv) {c : LinkCall} (hnew : c.New)
    (hknown : (s.desk.incidents c.incident).isSome) : (s.setCalls (c :: s.calls)).Inv := by
  refine setCalls_inv h (fun d hd => ?_) (List.pairwise_cons.mpr ⟨fun d _ hlocked => ?_, h.apart⟩)
  · rcases List.mem_cons.mp hd with rfl | hd
    · exact hnew.sound hknown
    · exact h.sound d hd
  · rw [hnew.unlocked] at hlocked
    cases hlocked

/-- A query that finds none of the links. -/
theorem find_reverse_none {links : List Link} {p : Link → Bool}
    (h : links.reverse.find? p = none) : ∀ l ∈ links, p l = false := by
  intro l hl
  have hno := List.find?_eq_none.mp h l (List.mem_reverse.mpr hl)
  simpa using hno

/-- Where each link that a query can find is of one kind. -/
theorem find_reverse_all {links : List Link} {p : Link → Bool} {P : Link → Prop}
    (hone : ∀ l ∈ links, ∀ l' ∈ links, p l = true → p l' = true → l = l')
    (h : ∀ l, links.reverse.find? p = some l → P l) : ∀ l ∈ links, p l = true → P l := by
  intro l hl hp
  cases hfind : links.reverse.find? p with
  | none =>
    rw [find_reverse_none hfind l hl] at hp
    cases hp
  | some l' =>
    have hmem := List.mem_reverse.mp (List.mem_of_find?_eq_some hfind)
    rw [hone l hl l' hmem hp (List.find?_some hfind)]
    exact h l' hfind

/-- What a query finds holds at once. -/
theorem check_sound {s : LinkDesk} (h : s.Inv) {others : List LinkCall} {c c' : LinkCall}
    (hsound : c.Sound s) (hcheck : Check s others c c') : c'.Sound s := by
  -- each check of the call finds no link at that time, and holds the lock from then on
  cases hcheck with
  | lock hfree => exact { hsound with held := fun _ => rfl }
  | unlinked hlocked hnone =>
    refine { hsound with held := fun _ => hlocked, unlinked := fun _ l hl hu hgroup hincident => ?_ }
    have hno := find_reverse_none hnone l hl
    simp [hu, hincident, hgroup] at hno
  | unclaimed hunlinked hlocked hfound =>
    refine { hsound with
      held := fun _ => hlocked, unclaimed := fun _ l hl hu hgroup hne => ?_ }
    by_contra hopen
    have hopen : s.opened l.incident = true := by simpa using hopen
    refine hne (find_reverse_all (fun l hl l' hl' hp hp' => ?_) hfound l hl ?_)
    · -- a group has one open link at most
      simp only [Bool.and_eq_true, decide_eq_true_eq] at hp hp'
      exact h.exclusive.oneOpen l hl l' hl' hp.1.1 hp'.1.1 (hp.1.2.trans hp'.1.2.symm) hp.2 hp'.2
    · simp [hu, hgroup, hopen]
  | sole hunclaimed hlocked hnone =>
    refine { hsound with
      held := fun _ => hlocked, sole := fun _ hprimary l hl hu hrelation hincident => ?_ }
    have hno := find_reverse_none (hnone hprimary) l hl
    simp [hu, hincident, hrelation] at hno

/-- **A call checks on**: what it has found out holds still when nobody else could have changed
it. -/
theorem check_inv {s : LinkDesk} (h : s.Inv) {before behind : List LinkCall} {c c' : LinkCall}
    (hcalls : s.calls = before ++ c :: behind) (hcheck : Check s (before ++ behind) c c') :
    (s.setCalls (before ++ c' :: behind)).Inv := by
  have hapart := h.apart
  rw [hcalls] at hapart
  obtain ⟨hothers, hcall⟩ := apart_middle.mp hapart
  refine setCalls_inv h (fun d hd => ?_) (apart_middle.mpr ⟨hothers, fun d hd => ?_⟩)
  · have hcase : d = c' ∨ d ∈ before ++ behind := by
      simp only [List.mem_append, List.mem_cons] at hd ⊢
      tauto
    rcases hcase with rfl | hd
    · exact check_sound h (h.sound c (mem_middle hcalls)) hcheck
    · exact h.sound d (mem_rest hcalls d hd)
  · -- only the lock is new, and it was free
    cases hcheck with
    | lock hfree => exact fun _ hlocked => ⟨(hfree d hd hlocked).1.symm, (hfree d hd hlocked).2.symm⟩
    | unlinked _ _ => exact hcall d hd
    | unclaimed _ _ _ => exact hcall d hd
    | sole _ _ _ => exact hcall d hd

theorem leave_inv {s : LinkDesk} (h : s.Inv) {before behind : List LinkCall} {c : LinkCall}
    (hcalls : s.calls = before ++ c :: behind) : (s.setCalls (before ++ behind)).Inv := by
  have hapart := h.apart
  rw [hcalls] at hapart
  exact setCalls_inv h (fun d hd => h.sound d (mem_rest hcalls d hd)) (apart_middle.mp hapart).1

/-- **A call that has all queries behind it inserts the only link.** -/
theorem insert_inv {s : LinkDesk} (h : s.Inv) {before behind : List LinkCall} {c : LinkCall}
    (hcalls : s.calls = before ++ c :: behind) (hsole : c.sole = true)
    (hunclaimed : c.unclaimed = true) (hunlinked : c.unlinked = true) (hlocked : c.locked = true) :
    ((s.insert c).setCalls (before ++ behind)).Inv := by
  have hsound := h.sound c (mem_middle hcalls)
  have hapart := h.apart
  rw [hcalls] at hapart
  have hlinks : ((s.insert c).setCalls (before ++ behind)).links =
      s.links ++ [c.link s.links.length] := List.concat_eq_append
  have hcase {l : Link} (hl : l ∈ ((s.insert c).setCalls (before ++ behind)).links) :
      l ∈ s.links ∨ l = c.link s.links.length := by
    rw [hlinks] at hl
    simpa using hl
  -- two links that agree are old ones, or the same
  have hpair {P : Link → Link → Prop} (hsymm : ∀ l l', P l l' → P l' l)
      (hold : ∀ l ∈ s.links, ∀ l' ∈ s.links, P l l' → l = l')
      (hnew : ∀ l ∈ s.links, ¬P l (c.link s.links.length)) :
      ∀ l ∈ ((s.insert c).setCalls (before ++ behind)).links,
        ∀ l' ∈ ((s.insert c).setCalls (before ++ behind)).links, P l l' → l = l' := by
    intro l hl l' hl' hP
    rcases hcase hl with hl | rfl <;> rcases hcase hl' with hl' | rfl
    · exact hold l hl l' hl' hP
    · exact absurd hP (hnew l hl)
    · exact absurd (hsymm _ _ hP) (hnew l' hl')
    · rfl
  refine ⟨⟨?_, ?_⟩, ?_, fun l hl => ?_, fun d hd => ?_, (apart_middle.mp hapart).1⟩
  · intro l hl l' hl' hu hu' hgroup hopen hopen'
    refine hpair (P := fun l l' => l.unremoved = true ∧ l'.unremoved = true ∧
      l.alertGroup = l'.alertGroup ∧ s.opened l.incident = true ∧ s.opened l'.incident = true)
      (fun l l' hP => ⟨hP.2.1, hP.1, hP.2.2.1.symm, hP.2.2.2.2, hP.2.2.2.1⟩)
      (fun l hl l' hl' hP => h.exclusive.oneOpen l hl l' hl' hP.1 hP.2.1 hP.2.2.1 hP.2.2.2.1
        hP.2.2.2.2) (fun l hl hP => ?_) l hl l' hl' ⟨hu, hu', hgroup, hopen, hopen'⟩
    have hne := hsound.unlinked hunlinked l hl hP.1 hP.2.2.1
    rw [hsound.unclaimed hunclaimed l hl hP.1 hP.2.2.1 hne] at hP
    cases hP.2.2.2.1
  · intro l hl l' hl' hu hu' hincident hprimary hprimary'
    refine hpair (P := fun l l' => l.unremoved = true ∧ l'.unremoved = true ∧
      l.incident = l'.incident ∧ l.relationType = .primary ∧ l'.relationType = .primary)
      (fun l l' hP => ⟨hP.2.1, hP.1, hP.2.2.1.symm, hP.2.2.2.2, hP.2.2.2.1⟩)
      (fun l hl l' hl' hP => h.exclusive.onePrimary l hl l' hl' hP.1 hP.2.1 hP.2.2.1 hP.2.2.2.1
        hP.2.2.2.2) (fun l hl hP => ?_) l hl l' hl' ⟨hu, hu', hincident, hprimary, hprimary'⟩
    exact hsound.sole hsole hP.2.2.2.2 l hl hP.1 hP.2.2.2.1 hP.2.2.1
  · intro l hl l' hl' hu hu' hgroup hincident
    refine hpair (P := fun l l' => l.unremoved = true ∧ l'.unremoved = true ∧
      l.alertGroup = l'.alertGroup ∧ l.incident = l'.incident)
      (fun l l' hP => ⟨hP.2.1, hP.1, hP.2.2.1.symm, hP.2.2.2.symm⟩)
      (fun l hl l' hl' hP => h.onePair l hl l' hl' hP.1 hP.2.1 hP.2.2.1 hP.2.2.2)
      (fun l hl hP => ?_) l hl l' hl' ⟨hu, hu', hgroup, hincident⟩
    exact hsound.unlinked hunlinked l hl hP.1 hP.2.2.1 hP.2.2.2
  · rcases hcase hl with hl | rfl
    · exact h.known l hl
    · exact hsound.known
  · -- the locks of another call are those of other rows
    have hd' := h.sound d (mem_rest hcalls d hd)
    have hrows := (apart_middle.mp hapart).2 d hd hlocked
    refine ⟨hd'.known, hd'.held, fun hflag l hl hu hgroup => ?_, fun hflag l hl hu hgroup hne => ?_,
      fun hflag hprimary l hl hu hrelation => ?_⟩
    · rcases hcase hl with hl | rfl
      · exact hd'.unlinked hflag l hl hu hgroup
      · exact (hrows (hd'.held (.inl hflag))).1
    · rcases hcase hl with hl | rfl
      · exact hd'.unclaimed hflag l hl hu hgroup hne
      · exact absurd hgroup (hrows (hd'.held (.inr (.inl hflag)))).2
    · rcases hcase hl with hl | rfl
      · exact hd'.sole hflag hprimary l hl hu hrelation
      · exact (hrows (hd'.held (.inr (.inr hflag)))).1

/-- The links that are left are old ones. -/
theorem mem_remove {s : LinkDesk} {link l : Link} {user : Option Id} {now : Instant}
    (h : l ∈ (s.remove link user now).links) :
    (l.unremoved = true → l ∈ s.links) ∧ ∃ old ∈ s.links, l.incident = old.incident := by
  obtain ⟨old, hold, rfl⟩ := List.mem_map.mp h
  split
  · exact ⟨fun hu => absurd hu (by simp [Link.unremoved]), old, hold, rfl⟩
  · exact ⟨fun _ => hold, old, hold, rfl⟩

/-- A link that is removed gives its group and its place free. -/
theorem remove_inv {s : LinkDesk} (h : s.Inv) (link : Link) (user : Option Id) (now : Instant) :
    (s.remove link user now).Inv where
  exclusive :=
    { oneOpen := fun l hl l' hl' hu hu' =>
        h.exclusive.oneOpen l ((mem_remove hl).1 hu) l' ((mem_remove hl').1 hu') hu hu'
      onePrimary := fun l hl l' hl' hu hu' =>
        h.exclusive.onePrimary l ((mem_remove hl).1 hu) l' ((mem_remove hl').1 hu') hu hu' }
  onePair := fun l hl l' hl' hu hu' =>
    h.onePair l ((mem_remove hl).1 hu) l' ((mem_remove hl').1 hu') hu hu'
  known := fun l hl => by
    obtain ⟨old, hold, hincident⟩ := (mem_remove hl).2
    rw [hincident]
    exact h.known old hold
  sound := fun c hc =>
    { known := (h.sound c hc).known
      held := (h.sound c hc).held
      unlinked := fun hflag l hl hu => (h.sound c hc).unlinked hflag l ((mem_remove hl).1 hu) hu
      unclaimed := fun hflag l hl hu => (h.sound c hc).unclaimed hflag l ((mem_remove hl).1 hu) hu
      sole := fun hflag hprimary l hl hu =>
        (h.sound c hc).sole hflag hprimary l ((mem_remove hl).1 hu) hu }
  apart := h.apart

/-! ## Runs -/

/-- A step that opens a closed incident opens it alone. -/
def OpensSafely (s : LinkDesk) (l : LinkLabel) : Prop :=
  ∀ a, l = .workflow (.commit a) → Opens s a → OpensAlone s a.incident

def LinkLabel.commits : LinkLabel → Bool
  | .workflow (.commit _) => true
  | _ => false

/-- Only a commit opens a closed incident. -/
theorem opensSafely_of_not_commits {s : LinkDesk} {l : LinkLabel} (h : l.commits = false) :
    OpensSafely s l := by
  rintro a rfl
  cases h

/-- **One step** keeps the links exclusive, unless it opens an incident beside another one. -/
theorem linkStep_inv {s t : LinkDesk} {l : LinkLabel} (h : s.Inv) (hsafe : OpensSafely s l)
    (hstep : LinkStep s l t) : t.Inv := by
  -- a link is inserted after all its checks; every other step makes none
  cases hstep with
  | workflow hstep => exact workflow_inv h hstep fun a ha => hsafe a (congrArg _ ha)
  | link hrow _ _ =>
    refine begin_inv h ⟨rfl, rfl, rfl, rfl⟩ ?_
    rw [hrow]
    rfl
  | @createFrom incident group d user hstep =>
    have hdeclared : (d.incidents incident).isSome := by
      -- an incident is declared with the call
      cases hstep with
      | declare _ _ _ =>
        simp [Desk.put, Desk.log]
    have hd : LinkDesk.Inv { s with desk := d } :=
      workflow_inv h hstep fun a ha => by cases ha
    exact @begin_inv _ hd
      { incident, alertGroup := group.id, relationType := .primary, user } ⟨rfl, rfl, rfl, rfl⟩
      hdeclared
  | check hcalls hcheck => exact check_inv h hcalls hcheck
  | insert hcalls hsole hunclaimed hunlinked hlocked =>
    exact insert_inv h hcalls hsole hunclaimed hunlinked hlocked
  | leave hcalls => exact leave_inv h hcalls
  | unlink _ => exact remove_inv h _ _ _

/-- **In every run in which closed incidents are opened alone, a group has one link to an
open incident at most, and an incident one primary link**, in every state that is reached. -/
theorem links_exclusive {ls : List LinkLabel} {s : LinkDesk}
    (hrun : Run (fun s l t => OpensSafely s l ∧ LinkStep s l t) LinkDesk.init ls s) :
    s.Exclusive :=
  (hrun.invariant_of_forall (fun hI hsafe hstep => linkStep_inv hI hsafe hstep)
    links_init).exclusive

/-! ## Two incidents of one group -/

/-- An attempt at a transition. -/
def attemptAt (id : Id) (i : Incident) (status : WorkflowStatus) : Attempt where
  incident := id
  expected := i.rowVersion
  read := i
  write :=
    { changes := transitionChanges i status 0 none
      eventType := "incident_status_changed"
      data := .obj [("from", .str i.workflowStatus.text), ("to", .str status.text)] }
  user := none

/-- The desk with an attempt at a transition of the incident. -/
def LinkDesk.attempting (s : LinkDesk) (id : Id) (i : Incident) (status : WorkflowStatus) :
    LinkDesk :=
  { s with desk := s.desk.begin (attemptAt id i status) }

/-- The desk behind a transition of the incident. -/
def LinkDesk.advance (s : LinkDesk) (id : Id) (i : Incident) (status : WorkflowStatus) : LinkDesk :=
  { s with
    desk := ((s.desk.begin (attemptAt id i status)).commit (attemptAt id i status) i 0).finish
      s.desk.attempts }

theorem ofText_text (status : WorkflowStatus) :
    WorkflowStatus.ofText (lower (strip status.text)) = some status := by
  cases status <;> decide +kernel

theorem ne_of_edge {status i : WorkflowStatus} (h : status ∈ statusTransitions i) : status ≠ i := by
  revert h
  cases i <;> cases status <;> decide

/-- A client makes the transition: the call plans it, the commit writes it. -/
theorem advance_steps {s : LinkDesk} {id : Id} {i : Incident} {status : WorkflowStatus}
    (hrow : s.desk.incidents id = some i) (hgiven : (id, i.rowVersion) ∈ s.desk.returned)
    (hedge : status ∈ statusTransitions i.workflowStatus) :
    LinkStep s (.workflow (.call id i.rowVersion (.transition status.text)))
        (s.attempting id i status) ∧
      LinkStep (s.attempting id i status) (.workflow (.commit (attemptAt id i status)))
        (s.advance id i status) := by
  have hplan : (Operation.transition status.text).plan opsDirectory i 0 none =
      .ok (some (attemptAt id i status).write) := by
    rw [Operation.plan, transitionIncident, ofText_text]
    dsimp only
    rw [if_neg (ne_of_edge hedge), if_neg (not_not.mpr hedge)]
    rfl
  exact ⟨.workflow (.call opsDirectory hrow hgiven hplan),
    .workflow (@Step.commit _ (attemptAt id i status) [] s.desk.attempts i 0 rfl hrow rfl)⟩

/-- An edge is taken by an attempt that reads and writes. -/
theorem advance_run {s : LinkDesk} {id : Id} {i : Incident} {status : WorkflowStatus}
    (hrow : s.desk.incidents id = some i) (hgiven : (id, i.rowVersion) ∈ s.desk.returned)
    (hedge : status ∈ statusTransitions i.workflowStatus) :
    ∃ ls, Run LinkStep s ls (s.advance id i status) := by
  obtain ⟨hcall, hcommit⟩ := advance_steps hrow hgiven hedge
  exact ⟨_, .cons hcall (.single hcommit)⟩

/-- Where all links are of the incident and no call is under way, it is opened alone. -/
theorem advance_safely {s : LinkDesk} {id : Id} {i : Incident} {status : WorkflowStatus}
    (hrow : s.desk.incidents id = some i) (hgiven : (id, i.rowVersion) ∈ s.desk.returned)
    (hedge : status ∈ statusTransitions i.workflowStatus)
    (hlinks : ∀ l ∈ s.links, l.incident = id) (hcalls : s.calls = []) :
    ∃ ls, Run (fun s l t => OpensSafely s l ∧ LinkStep s l t) s ls (s.advance id i status) := by
  obtain ⟨hcall, hcommit⟩ := advance_steps hrow hgiven hedge
  have halone : OpensSafely (s.attempting id i status)
      (.workflow (.commit (attemptAt id i status))) := by
    rintro a ha -
    obtain rfl : attemptAt id i status = a := by
      cases ha
      rfl
    refine ⟨fun _ _ _ _ l' hl' _ _ hother => absurd (hlinks l' hl') hother, ?_⟩
    intro l _ _ _ c hc
    rw [show (s.attempting id i status).calls = [] from hcalls] at hc
    cases hc
  exact ⟨_, .cons ⟨opensSafely_of_not_commits rfl, hcall⟩ (.single ⟨halone, hcommit⟩)⟩

def opsGroup : GroupRow := { id := 7, team := some 1, service := none, title := "Disk full" }

/-- A call that has everything behind it. -/
def doneCall (incident : Id) : LinkCall where
  incident := incident
  alertGroup := 7
  relationType := .related
  user := none
  locked := true
  unlinked := true
  unclaimed := true
  sole := true

/-- The desk behind a link of the group to the incident. -/
def LinkDesk.linkTo (s : LinkDesk) (incident : Id) : LinkDesk :=
  (s.insert (doneCall incident)).setCalls []

/-- A link is made by a call that checks and writes. -/
theorem linkTo_run {s : LinkDesk} {incident : Id} {i : Incident}
    (hrow : s.desk.incidents incident = some i) (hopen : i.workflowStatus.terminal = false)
    (hteam : i.team = some 1) (hcalls : s.calls = []) (hlink : activeLink s incident 7 = none)
    (hgroup : activeLinkForGroup s 7 = none) :
    ∃ ls, Run (fun s l t => OpensSafely s l ∧ LinkStep s l t) s ls (s.linkTo incident) := by
  let c : LinkCall := { incident, alertGroup := 7, relationType := .related, user := none }
  -- the call checks its way through
  have hbegin : LinkStep s (.link incident 7) (s.setCalls [c]) := by
    have hstep := @LinkStep.link s incident i opsGroup .related none hrow hopen hteam.symm
    rw [hcalls] at hstep
    exact hstep
  have hlock : Check (s.setCalls [c]) ([] ++ []) c { c with locked := true } :=
    .lock fun _ hd => absurd hd (List.not_mem_nil)
  have hunlinked : Check (s.setCalls [{ c with locked := true }]) ([] ++ [])
      { c with locked := true } { c with locked := true, unlinked := true } := .unlinked rfl hlink
  have hunclaimed : Check (s.setCalls [{ c with locked := true, unlinked := true }]) ([] ++ [])
      { c with locked := true, unlinked := true }
      { c with locked := true, unlinked := true, unclaimed := true } :=
    .unclaimed rfl rfl fun link hfound => by
      have hnone : activeLinkForGroup s 7 = some link := hfound
      rw [hgroup] at hnone
      cases hnone
  have hsole : Check (s.setCalls [{ c with locked := true, unlinked := true, unclaimed := true }])
      ([] ++ []) { c with locked := true, unlinked := true, unclaimed := true } (doneCall incident) :=
    .sole rfl rfl fun hprimary => by cases hprimary
  exact ⟨_, .cons ⟨opensSafely_of_not_commits rfl, hbegin⟩ <|
    .cons ⟨opensSafely_of_not_commits rfl, @LinkStep.check _ [] [] _ _ rfl hlock⟩ <|
    .cons ⟨opensSafely_of_not_commits rfl, @LinkStep.check _ [] [] _ _ rfl hunlinked⟩ <|
    .cons ⟨opensSafely_of_not_commits rfl, @LinkStep.check _ [] [] _ _ rfl hunclaimed⟩ <|
    .cons ⟨opensSafely_of_not_commits rfl, @LinkStep.check _ [] [] _ _ rfl hsole⟩ <|
    .single ⟨opensSafely_of_not_commits rfl,
      @LinkStep.insert _ [] [] (doneCall incident) rfl rfl rfl rfl rfl⟩⟩

/-- The desk with a new incident. -/
def LinkDesk.declare (s : LinkDesk) (id : Id) : LinkDesk :=
  { s with
    desk := (s.desk.put id declaredIncident).log id "incident_declared" none
      (.obj [("status", .str "declared")]) }

theorem declare_run {s : LinkDesk} {id : Id} (h : s.desk.incidents id = none) :
    ∃ ls, Run (fun s l t => OpensSafely s l ∧ LinkStep s l t) s ls (s.declare id) :=
  ⟨_, .single ⟨opensSafely_of_not_commits rfl,
    .workflow (.declare opsDirectory h declaredIncident_created)⟩⟩

/-- The incident at the end of a row of transitions. -/
def incidentAt (statuses : List WorkflowStatus) : Incident :=
  statuses.foldl (fun i status => (transitionChanges i status 0 none).apply 0 i) declaredIncident

/-- The group is linked to an incident that is then closed. -/
def closedLink : LinkDesk :=
  ((((LinkDesk.init.declare 1).linkTo 1).advance 1 (incidentAt []) .investigating).advance 1
    (incidentAt [.investigating]) .resolved).advance 1 (incidentAt [.investigating, .resolved]) .closed

/-- It is linked to another one, and the first is opened again. -/
def reopenedLink : LinkDesk :=
  ((closedLink.declare 2).linkTo 2).advance 1 (incidentAt [.investigating, .resolved, .closed])
    .investigating

/-- Two runs, one after the other. -/
theorem run_trans {step : LinkDesk → LinkLabel → LinkDesk → Prop} {s t u : LinkDesk}
    (h : ∃ ls, Run step s ls t) (h' : ∃ ls, Run step t ls u) : ∃ ls, Run step s ls u := by
  obtain ⟨ls, hrun⟩ := h
  obtain ⟨ms, hrun'⟩ := h'
  exact ⟨ls ++ ms, hrun.append hrun'⟩

/-- The group is linked to a new incident. -/
theorem declare_linkTo_run {s : LinkDesk} {id : Id} (h : s.desk.incidents id = none)
    (hcalls : s.calls = []) (hlink : activeLink (s.declare id) id 7 = none)
    (hgroup : activeLinkForGroup (s.declare id) 7 = none) :
    ∃ ls, Run (fun s l t => OpensSafely s l ∧ LinkStep s l t) s ls ((s.declare id).linkTo id) :=
  run_trans (declare_run h) (@linkTo_run (s.declare id) id declaredIncident
    (Function.update_self _ _ _) rfl rfl hcalls hlink hgroup)

/-- The closed incident is opened again, with the group linked to no other one. -/
def reopenedAlone : LinkDesk :=
  closedLink.advance 1 (incidentAt [.investigating, .resolved, .closed]) .investigating

theorem links_exclusive_sample :
    closedLink.opened 1 = false ∧ reopenedAlone.opened 1 = true ∧ reopenedAlone.Exclusive := by
  have hlinked := @declare_linkTo_run LinkDesk.init 1 rfl rfl rfl rfl
  have hbegun := run_trans hlinked
    (@advance_safely _ 1 (incidentAt []) .investigating rfl (by decide) (by decide) (by decide) rfl)
  have hresolved := run_trans hbegun (@advance_safely _ 1 (incidentAt [.investigating]) .resolved
    rfl (by decide) (by decide) (by decide) rfl)
  have hclosed := run_trans hresolved (@advance_safely _ 1 (incidentAt [.investigating, .resolved])
    .closed rfl (by decide) (by decide) (by decide) rfl)
  obtain ⟨ls, hrun⟩ := run_trans hclosed
    (@advance_safely closedLink 1 (incidentAt [.investigating, .resolved, .closed]) .investigating
      rfl (by decide) (by decide) (by decide) rfl)
  exact ⟨by decide, by decide, links_exclusive hrun⟩

/-- An incident that is declared and linked. -/
theorem declare_linkTo_reached {s : LinkDesk} {id : Id} (h : s.desk.incidents id = none)
    (hcalls : s.calls = []) (hlink : activeLink (s.declare id) id 7 = none)
    (hgroup : activeLinkForGroup (s.declare id) 7 = none) :
    ∃ ls, Run LinkStep s ls ((s.declare id).linkTo id) := by
  obtain ⟨ls, hrun⟩ := declare_linkTo_run h hcalls hlink hgroup
  exact ⟨ls, hrun.imp And.right⟩

/-- The linked incident is closed on the edges of the workflow. -/
theorem closedLink_reached : ∃ ls, Run LinkStep LinkDesk.init ls closedLink := by
  have hlinked := @declare_linkTo_reached LinkDesk.init 1 rfl rfl rfl rfl
  have hbegun := run_trans hlinked
    (@advance_run _ 1 (incidentAt []) .investigating rfl (by decide) (by decide))
  have hresolved := run_trans hbegun
    (@advance_run _ 1 (incidentAt [.investigating]) .resolved rfl (by decide) (by decide))
  exact run_trans hresolved (@advance_run _ 1 (incidentAt [.investigating, .resolved]) .closed rfl
    (by decide) (by decide))

/-- **A group has two open incidents** where a closed one is opened again. -/
theorem link_reopened_twice :
    ∃ ls s, Run LinkStep LinkDesk.init ls s ∧ ¬s.Exclusive := by
  have hlinked := run_trans closedLink_reached
    (@declare_linkTo_reached closedLink 2 rfl rfl rfl rfl)
  obtain ⟨ls, hrun⟩ := run_trans hlinked
    (@advance_run _ 1 (incidentAt [.investigating, .resolved, .closed]) .investigating rfl
      (by decide) (by decide))
  refine ⟨ls, reopenedLink, hrun, fun hexclusive => ?_⟩
  have hsame := hexclusive.oneOpen ((doneCall 1).link 0) (by decide) ((doneCall 2).link 1)
    (by decide) rfl rfl rfl rfl rfl
  exact absurd (congrArg Link.id hsame) (by decide)

end IncidentRelay.Incidents
