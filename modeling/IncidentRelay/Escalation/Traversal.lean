import IncidentRelay.Escalation.Tick
import IncidentRelay.Lib.Timed

/-!
# The traversal of a policy

The group walks over the rules of the policy, once and then as often as the policy repeats:
a tick of the reminder job is a look at a timed walk over them (`tick_looks`).
-/

namespace IncidentRelay.Escalation

section Stages

/-- The rule of a stage is found by its place in the cycle. -/
theorem replicate_getElem? {α : Type} (xs : List α) (m k : ℕ) :
    (List.replicate m xs).flatten[k]? = if k < xs.length * m then xs[k % xs.length]? else none := by
  induction m generalizing k with
  | zero => simp
  | succ m ih =>
    rw [List.replicate_succ, List.flatten_cons, List.getElem?_append, Nat.mul_succ]
    by_cases hk : k < xs.length
    · rw [if_pos hk, if_pos (by omega), Nat.mod_eq_of_lt hk]
    · have hmod : (k - xs.length) % xs.length = k % xs.length := by
        rw [Nat.mod_eq_sub_mod (by omega : k ≥ xs.length)]
      rw [if_neg hk, ih, hmod]
      by_cases hlt : k < xs.length * m + xs.length
      · rw [if_pos hlt, if_pos (by omega)]
      · rw [if_neg hlt, if_neg (by omega)]

theorem length_stages (policy : Policy) (rules : List Rule) :
    (stages policy rules).length = rules.length * (policy.repeatCount.toNat + 1) := by
  unfold stages
  simp [Nat.mul_comm]

/-- The policy is enabled and has these rules. -/
structure HasRules (db : Policies) (policy : Policy) (rules : List Rule) : Prop where
  found : findPolicy db policy.id = some policy
  enabled : policy.enabled = true
  listed : listEnabledRules db policy = rules
  distinct : (db.rules.map Rule.id).Nodup
  nonempty : rules ≠ []

variable {db : Policies} {policy : Policy} {rules : List Rule}

/-- The rules are told apart by their ids. -/
theorem HasRules.ids (h : HasRules db policy rules) : (rules.map Rule.id).Nodup := by
  have hperm : rules.Perm (db.rules.filter fun rule =>
      rule.policy = policy.id ∧ rule.enabled = true) := by
    rw [← h.listed]
    exact List.perm_insertionSort _ _
  have hsub : ((db.rules.filter fun rule =>
      rule.policy = policy.id ∧ rule.enabled = true).map Rule.id).Sublist (db.rules.map Rule.id) :=
    List.filter_sublist.map Rule.id
  exact ((hperm.map Rule.id).nodup_iff).mpr (h.distinct.sublist hsub)

/-- The rule that comes next is that of the next stage. -/
theorem next_stage (h : HasRules db policy rules) {place : Place} {k : ℕ}
    (hpolicy : place.escalationPolicy = some policy.id)
    (hrule : place.escalationRule = rules[k % rules.length]?.map Rule.id)
    (hrepeat : place.escalationRepeatCount = ((k / rules.length : ℕ) : Int))
    (hk : k < (stages policy rules).length) :
    getNextRuleForAlert db place =
      match (stages policy rules)[k + 1]? with
      | some next => (some next, (((k + 1) / rules.length : ℕ) : Int))
      | none => (none, ((k / rules.length : ℕ) : Int)) := by
  have hpos : 0 < rules.length := List.length_pos_of_ne_nil h.nonempty
  have hmod : k % rules.length < rules.length := Nat.mod_lt _ hpos
  -- the rule that was escalated to last is the one at the remainder
  have hcurrent : rules[k % rules.length]? = some rules[k % rules.length] :=
    List.getElem?_eq_getElem hmod
  have hdiv := Nat.div_add_mod k rules.length
  rw [length_stages] at hk
  have hcycle : k / rules.length < policy.repeatCount.toNat + 1 := Nat.div_lt_of_lt_mul hk
  obtain ⟨first, rest, hlist⟩ : ∃ first rest, rules = first :: rest :=
    List.exists_cons_of_ne_nil h.nonempty
  have hnext : getNextRuleForAlert db place =
      nextInCycle policy.repeatCount ((k / rules.length : ℕ) : Int) rules[k % rules.length].id first
        rules := by
    unfold getNextRuleForAlert
    rw [hpolicy, Option.bind_some, h.found, hrule, hcurrent, hrepeat, Option.map_some]
    dsimp only
    rw [if_pos h.enabled]
    subst hlist
    rw [h.listed]
  rw [hnext, nextInCycle_at h.ids hcurrent]
  unfold stages
  rw [replicate_getElem?]
  -- by whether there is another rule in this cycle
  by_cases hinner : k % rules.length + 1 < rules.length
  · -- within a cycle
    have hmodnext : (k + 1) % rules.length = k % rules.length + 1 := by
      rw [Nat.add_mod, Nat.mod_eq_of_lt (by omega : 1 < rules.length), Nat.mod_eq_of_lt hinner]
    have hdivnext : (k + 1) / rules.length = k / rules.length := by
      rw [Nat.succ_div, if_neg, Nat.add_zero]
      intro hdvd
      have hzero := Nat.mod_eq_zero_of_dvd hdvd
      omega
    have hlt : k + 1 < rules.length * (policy.repeatCount.toNat + 1) := by
      have hmul : rules.length * (k / rules.length + 1) ≤
          rules.length * (policy.repeatCount.toNat + 1) := Nat.mul_le_mul_left _ hcycle
      rw [Nat.mul_succ] at hmul
      omega
    rw [if_pos hlt, hmodnext, hdivnext, List.getElem?_eq_getElem hinner]
  · -- at the last rule of a cycle
    have hlast : k % rules.length + 1 = rules.length := by omega
    have hdvd : rules.length ∣ k + 1 := by
      refine ⟨k / rules.length + 1, ?_⟩
      rw [Nat.mul_succ]
      omega
    have hmodnext : (k + 1) % rules.length = 0 := Nat.mod_eq_zero_of_dvd hdvd
    have hdivnext : (k + 1) / rules.length = k / rules.length + 1 := by
      rw [Nat.succ_div, if_pos hdvd]
    rw [List.getElem?_eq_none (by omega), hmodnext, hdivnext]
    dsimp only
    have hfirst : rules[0]? = some first := by rw [hlist]; rfl
    have hmul : rules.length * (k / rules.length + 1) = k + 1 := by
      rw [Nat.mul_succ]
      omega
    have hcount : ((k / rules.length : ℕ) : Int) < policy.repeatCount ↔
        k / rules.length < policy.repeatCount.toNat := by
      generalize k / rules.length = cycles
      omega
    -- by whether there is another cycle
    by_cases hmore : k / rules.length < policy.repeatCount.toNat
    · have hlt : k + 1 < rules.length * (policy.repeatCount.toNat + 1) := by
        rw [← hmul]
        exact Nat.mul_lt_mul_of_pos_left (by omega) hpos
      rw [if_pos (hcount.mpr hmore), if_pos hlt, hfirst]
      rfl
    · have hge : ¬k + 1 < rules.length * (policy.repeatCount.toNat + 1) := by
        have heq : k / rules.length = policy.repeatCount.toNat := by omega
        rw [← hmul, heq]
        exact lt_irrefl _
      rw [if_neg (fun h => hmore (hcount.mp h)), if_neg hge]

end Stages

/-! ## What a tick does to the course of a group -/

/-- Nothing pauses the group during the tick, and its team is there. -/
structure Tick.Quiet (t : Tick) : Prop where
  live : t.live = true
  shelved : t.shelved = false
  suppressed : t.suppressed = false
  paused : t.paused = false

/-- The number of times that the group was escalated. -/
def escalations (g : AlertGroup) : ℕ := g.events.countP (·.1 = "escalated")

/-- What the escalation of a group depends on, and the number of its escalations. -/
structure Course where
  status : GroupStatus
  mergedInto : Option Id
  maintenanceSuppressed : Bool
  place : Place
  nextEscalationAt : Option Instant
  count : ℕ

def AlertGroup.course (g : AlertGroup) : Course where
  status := g.status
  mergedInto := g.mergedInto
  maintenanceSuppressed := g.maintenanceSuppressed
  place := g.place
  nextEscalationAt := g.nextEscalationAt
  count := escalations g

section Ticks

variable {db : Policies} {t : Tick}

theorem course_withEvent {g : AlertGroup} {eventType message : String}
    (h : eventType ≠ "escalated") : (g.withEvent eventType message).course = g.course := by
  unfold AlertGroup.withEvent AlertGroup.course escalations
  simp [List.countP_append, h, AlertGroup.place]

/-- Delivering a notification leaves the course. -/
theorem course_deliver (g : AlertGroup) :
    (deliverEscalationNotification t g).course = g.course := by
  unfold deliverEscalationNotification
  split
  · unfold notified
    split <;> rfl
  · split
    · exact course_withEvent (by decide)
    · exact course_withEvent (by decide)

theorem course_sendReminder (g : AlertGroup) : (sendReminder t g).1.course = g.course := by
  unfold sendReminder
  split
  · rw [course_withEvent (by decide)]
    unfold notified
    split <;> rfl
  · rfl

/-- A reminder is not an escalation, where the group has a policy. -/
theorem course_remind {g : AlertGroup} (h : g.escalationPolicy.isSome) :
    (remind db t g).1.course = g.course := by
  unfold remind
  cases g.lastNotificationAt with
  | none => rfl
  | some last =>
    dsimp only
    split
    · rfl
    · rw [Option.isNone_eq_false_iff.mpr h]
      exact course_sendReminder g

/-- The course behind the next rule. -/
def Course.to (c : Course) (rule : Rule) (repeatCount : Int) (now : Instant) : Course :=
  { c with
    place := { c.place with escalationRule := some rule.id, escalationRepeatCount := repeatCount }
    nextEscalationAt := some (getNextEscalationAt rule now)
    count := c.count + 1 }

/-- An escalation moves the course on. -/
theorem course_escalateTo (g : AlertGroup) (rule : Rule) (repeatCount : Int) :
    (escalateTo t rule repeatCount g).course = g.course.to rule repeatCount t.now := by
  unfold escalateTo
  rw [course_deliver]
  unfold AlertGroup.withEvent AlertGroup.course escalations Course.to assignRule
  simp [List.countP_append, AlertGroup.place]

/-- The course of a group behind a tick in which nothing pauses it. -/
def Course.tick (db : Policies) (now : Instant) (c : Course) : Course :=
  match c.nextEscalationAt with
  | none => c
  | some due =>
    if now < due then c
    else match getNextRuleForAlert db c.place with
      | (none, _) => { c with nextEscalationAt := none }
      | (some rule, repeatCount) => c.to rule repeatCount now

/-- **What a tick does to a group with a policy** is the tick of its course. -/
theorem policy_course (hquiet : t.Quiet) {g : AlertGroup} (hpolicy : g.escalationPolicy.isSome)
    (hresumed : g.maintenanceSuppressed = false) :
    (maybeEscalateAlert db t g).1.course = g.course.tick db t.now ∧
      ((maybeEscalateAlert db t g).2 = false →
        (maybeEscalateAlert db t g).1.escalationPolicy.isSome) := by
  have hresume : resumeNotificationLifecycle db t g = (g, false) := by
    unfold resumeNotificationLifecycle
    rw [hresumed]
    rfl
  have hnone : g.escalationPolicy ≠ none := Option.isSome_iff_ne_none.mp hpolicy
  -- a quiet tick is not paused or suppressed, so the policy is looked at
  unfold maybeEscalateAlert maybeEscalateAlertByPolicy Course.tick
  rw [hquiet.suppressed, hquiet.paused, hresume]
  simp only [Bool.false_eq_true, if_false, hpolicy, if_true, hresume, hnone]
  have hcourse : g.course.nextEscalationAt = g.nextEscalationAt := rfl
  rw [hcourse]
  cases hnext : g.nextEscalationAt with
  | none => exact ⟨rfl, fun _ => hpolicy⟩
  | some due =>
    dsimp only
    -- the tick is early, or it looks for the next rule
    by_cases hnow : t.now < due
    · rw [if_pos hnow, if_pos hnow]
      exact ⟨rfl, fun _ => hpolicy⟩
    · rw [if_neg hnow, if_neg hnow]
      have hplace : g.course.place = g.place := rfl
      rw [hplace]
      obtain ⟨next, repeatCount⟩ := getNextRuleForAlert db g.place
      cases next with
      | none => exact ⟨course_withEvent (by decide), fun _ => hpolicy⟩
      | some rule => exact ⟨course_escalateTo g rule repeatCount, fun h => by cases h⟩

/-- **A quiet tick changes the course of a firing group by its policy only.** -/
theorem tick_course (hquiet : t.Quiet) {g : AlertGroup} (hstatus : g.status = .firing)
    (hmerged : g.mergedInto = none) (hpolicy : g.escalationPolicy.isSome)
    (hresumed : g.maintenanceSuppressed = false) :
    (sendUnackedReminders db t g).1.course = g.course.tick db t.now := by
  have hresume : resumeNotificationLifecycle db t g = (g, false) := by
    unfold resumeNotificationLifecycle
    rw [hresumed]
    rfl
  obtain ⟨hcourse, hkept⟩ := @policy_course db t hquiet g hpolicy hresumed
  unfold sendUnackedReminders
  rw [if_neg (by simp [hstatus, hmerged, hquiet.live]), hquiet.shelved, hquiet.suppressed, hresume]
  simp only [Bool.false_eq_true, if_false, hpolicy, hquiet.paused, Bool.not_false, Bool.and_self,
    if_true]
  rcases hresult : maybeEscalateAlert db t g with ⟨after, escalated⟩
  rw [hresult] at hcourse hkept
  -- an escalation of the policy is the whole tick
  cases escalated with
  | true => exact hcourse
  | false =>
    dsimp only
    -- else a reminder is sent, or not; it does not move the course
    split
    · exact hcourse
    · rw [course_remind (hkept rfl)]
      exact hcourse

end Ticks

/-! ## The walk -/

/-- How long the group stays at a rule. -/
def Rule.delay (rule : Rule) : Int := seconds (getRuleDelaySeconds rule)

section Walk

variable {db : Policies} {policy : Policy} {rules : List Rule}

/-- The group is where the walk over the stages stands. -/
structure AtStage (policy : Policy) (rules : List Rule) (base : ℕ) (s : Stand) (c : Course) :
    Prop where
  firing : c.status = .firing
  unmerged : c.mergedInto = none
  resumed : c.maintenanceSuppressed = false
  follows : c.place.escalationPolicy = some policy.id
  rule : c.place.escalationRule = rules[s.stage % rules.length]?.map Rule.id
  cycle : c.place.escalationRepeatCount = ((s.stage / rules.length : ℕ) : Int)
  due : c.nextEscalationAt = s.due
  count : c.count = base + s.stage
  inRange : s.stage < (stages policy rules).length

/-- **A tick is a look at the walk.** -/
theorem tick_looks (h : HasRules db policy rules) {base : ℕ} {s : Stand} {c : Course}
    (now : Instant) (hat : AtStage policy rules base s c) :
    AtStage policy rules base (s.look (stages policy rules) Rule.delay now)
      (c.tick db now) := by
  have hrange := @Stand.look_in_range _ (stages policy rules) Rule.delay now _ hat.inRange
  revert hrange
  unfold Course.tick Stand.look
  rw [hat.due]
  -- without a time the tick does nothing
  cases hdue : s.due with
  | none => exact fun _ => { hat with due := hat.due.trans hdue |>.trans hdue.symm }
  | some due =>
    dsimp only
    -- an early one does not either
    by_cases hnow : now < due
    · rw [if_pos hnow, if_pos hnow]
      exact fun _ => hat
    · rw [if_neg hnow, if_neg hnow, next_stage h hat.follows hat.rule hat.cycle hat.inRange]
      -- behind the last stage there is no rule
      cases hnext : (stages policy rules)[s.stage + 1]? with
      | none => exact fun _ => { hat with due := rfl }
      | some next =>
        intro hrange
        have hnextRule : rules[(s.stage + 1) % rules.length]? = some next := by
          have hstage := hnext
          unfold stages at hstage
          rw [replicate_getElem?] at hstage
          split at hstage
          · exact hstage
          · cases hstage
        exact
          { firing := hat.firing
            unmerged := hat.unmerged
            resumed := hat.resumed
            follows := hat.follows
            rule := by
              show some next.id = _
              rw [hnextRule]
              rfl
            cycle := rfl
            due := rfl
            count := by
              show c.count + 1 = base + (s.stage + 1)
              rw [hat.count]
              omega
            inRange := hrange }

/-! ## A run -/

/-- The group after a number of ticks. -/
def groupAfter (db : Policies) (ticks : ℕ → Tick) (g : AlertGroup) : ℕ → AlertGroup
  | 0 => g
  | k + 1 => (sendUnackedReminders db (ticks k) (groupAfter db ticks g k)).1

/-- When the rule that the group is at was assigned. -/
def assignedAt (db : Policies) (ticks : ℕ → Tick) (start : Instant) (g : AlertGroup) : ℕ → Instant
  | 0 => start
  | k + 1 =>
    if escalations (groupAfter db ticks g (k + 1)) = escalations (groupAfter db ticks g k)
    then assignedAt db ticks start g k
    else (ticks k).now

/-- The group is escalated along the stages of the policy. -/
structure Traverses (db : Policies) (policy : Policy) (rules : List Rule) (ticks : ℕ → Tick)
    (start : Instant) (g : AlertGroup) : Prop where
  /-- it is at the stage with the number of its escalations -/
  inOrder : ∀ k, ∃ stage rule,
    escalations (groupAfter db ticks g k) = escalations g + stage ∧
      (stages policy rules)[stage]? = some rule ∧
      (groupAfter db ticks g k).escalationRule = some rule.id
  /-- a tick escalates it once at most, and not before the delay of its rule is over -/
  patient : ∀ k,
    escalations (groupAfter db ticks g (k + 1)) = escalations (groupAfter db ticks g k) ∨
    escalations (groupAfter db ticks g (k + 1)) = escalations (groupAfter db ticks g k) + 1 ∧
      ∃ rule ∈ rules, (groupAfter db ticks g k).escalationRule = some rule.id ∧
        assignedAt db ticks start g k + rule.delay ≤ (ticks k).now
  /-- the due time is cleared by a tick at the last rule, when the delay of it is over, and by no
  other -/
  cleared : ∀ k, (groupAfter db ticks g k).nextEscalationAt.isSome →
    ((groupAfter db ticks g (k + 1)).nextEscalationAt = none ↔
      escalations (groupAfter db ticks g k) =
          escalations g + (rules.length * (policy.repeatCount.toNat + 1) - 1) ∧
        ∀ last ∈ rules.getLast?, assignedAt db ticks start g k + last.delay ≤ (ticks k).now)
  /-- in the end all escalations were made, and none is due -/
  complete : Stand.Unbounded (fun k => (ticks k).now) → ∃ k, ∀ j, k ≤ j →
    escalations (groupAfter db ticks g j) =
        escalations g + (rules.length * (policy.repeatCount.toNat + 1) - 1) ∧
      (groupAfter db ticks g j).nextEscalationAt = none

/-- A group that a firing alert is taken into, before the first assignment. -/
structure Opened (g : AlertGroup) : Prop where
  firing : g.status = .firing
  unmerged : g.mergedInto = none
  resumed : g.maintenanceSuppressed = false

/-- The first assignment puts the group at the first stage. -/
theorem initial_stage (h : HasRules db policy rules) {g : AlertGroup} (hg : Opened g) (w : OnCall)
    (rotation : Option Id) (start : Instant) :
    ∃ first, rules[0]? = some first ∧
      AtStage policy rules
        (escalations (applyInitialEscalationPolicyAssignment db w policy rotation start g))
        { stage := 0, due := some (start + first.delay) }
        (applyInitialEscalationPolicyAssignment db w policy rotation start g).course := by
  obtain ⟨first, rest, hlist⟩ : ∃ first rest, rules = first :: rest :=
    List.exists_cons_of_ne_nil h.nonempty
  have hfirst : getFirstEnabledRule db policy = some first := by
    -- the first enabled rule is the first of the policy
    unfold getFirstEnabledRule
    rw [if_pos h.enabled, h.listed, hlist]
    rfl
  have hpos : 0 < rules.length := List.length_pos_of_ne_nil h.nonempty
  refine ⟨first, by rw [hlist]; rfl, ?_⟩
  unfold applyInitialEscalationPolicyAssignment
  rw [hfirst]
  exact
    { firing := hg.firing
      unmerged := hg.unmerged
      resumed := hg.resumed
      follows := rfl
      rule := by
        show some first.id = _
        rw [Nat.zero_mod, hlist]
        rfl
      cycle := by
        show (0 : Int) = ((0 / rules.length : ℕ) : Int)
        rw [Nat.zero_div]
        rfl
      due := rfl
      count := rfl
      inRange := by
        rw [length_stages]
        exact Nat.mul_pos hpos (Nat.succ_pos _) }

/-- **The group follows the walk over a run of quiet ticks.** -/
theorem run_looks (h : HasRules db policy rules) {ticks : ℕ → Tick} (hquiet : ∀ k, (ticks k).Quiet)
    {g : AlertGroup} {s : Stand} {base : ℕ} (hat : AtStage policy rules base s g.course) (k : ℕ) :
    AtStage policy rules base
      (s.after (stages policy rules) Rule.delay (fun k => (ticks k).now) k)
      (groupAfter db ticks g k).course := by
  induction k with
  | zero => exact hat
  | succ k ih =>
    have hpolicy : (groupAfter db ticks g k).escalationPolicy.isSome := by
      have hfollows : (groupAfter db ticks g k).escalationPolicy = some policy.id := ih.follows
      rw [hfollows]
      rfl
    rw [groupAfter, Stand.after, tick_course (hquiet k) ih.firing ih.unmerged hpolicy ih.resumed]
    exact tick_looks h (ticks k).now ih

/-- A walk that has a due time got it from the rule of its stage. -/
theorem due_of_stage {ticks : ℕ → Tick} {start : Instant} {g : AlertGroup} {s : Stand}
    (hcount : ∀ k, escalations (groupAfter db ticks g k) = escalations g +
      (s.after (stages policy rules) Rule.delay (fun k => (ticks k).now) k).stage)
    {first : Rule} (hfirst : (stages policy rules)[s.stage]? = some first)
    (hdue : s.due = some (start + first.delay)) (k : ℕ) :
    ∃ rule, (stages policy rules)[(s.after (stages policy rules) Rule.delay
        (fun k => (ticks k).now) k).stage]? = some rule ∧
      ∀ due, (s.after (stages policy rules) Rule.delay
        (fun k => (ticks k).now) k).due = some due →
        due = assignedAt db ticks start g k + rule.delay := by
  induction k with
  | zero =>
    refine ⟨first, hfirst, fun due h => ?_⟩
    exact (Option.some.inj (hdue.symm.trans h)).symm
  | succ k ih =>
    obtain ⟨rule, hrule, hsame⟩ := ih
    have hnow := hcount k
    have hthen := hcount (k + 1)
    rw [Stand.after] at hthen ⊢
    rcases Stand.look_stage (ticks k).now (s.after (stages policy rules) Rule.delay
        (fun k => (ticks k).now) k) with hkeep | ⟨due, next, hdue, -, hnext, hmove⟩
    · refine ⟨rule, by rw [hkeep]; exact hrule, fun due h => ?_⟩
      have hstays : escalations (groupAfter db ticks g (k + 1)) =
          escalations (groupAfter db ticks g k) := by
        rw [hthen, hnow, hkeep]
      rw [assignedAt, if_pos hstays]
      refine hsame due ?_
      -- a look that keeps the stage sets no due time
      unfold Stand.look at h hkeep
      split at h
      · exact h
      · rename_i before hbefore
        split at h
        · exact h
        · split at h
          · rename_i hlate stage next hnext
            rw [hbefore] at hkeep
            dsimp only at hkeep
            rw [if_neg hlate, hnext] at hkeep
            dsimp only at hkeep
            omega
          · cases h
    · rw [hmove] at hthen ⊢
      refine ⟨next, hnext, fun due h => ?_⟩
      have hmoved : escalations (groupAfter db ticks g (k + 1)) ≠
          escalations (groupAfter db ticks g k) := by
        dsimp only at hthen
        omega
      rw [assignedAt, if_neg hmoved]
      exact (Option.some.inj h).symm

/-- The rule of a stage. -/
theorem mem_of_stage {stage : ℕ} {rule : Rule} (h : (stages policy rules)[stage]? = some rule) :
    rules[stage % rules.length]? = some rule := by
  unfold stages at h
  rw [replicate_getElem?] at h
  split at h
  · exact h
  · cases h

/-- The rule of the last stage is the last rule. -/
theorem last_of_stage {stage : ℕ} {rule : Rule} (h : (stages policy rules)[stage]? = some rule)
    (hlast : stage + 1 = (stages policy rules).length) : rules.getLast? = some rule := by
  have hmem := mem_of_stage h
  rw [length_stages] at hlast
  have hpos : 0 < rules.length := by
    rcases Nat.eq_zero_or_pos rules.length with hzero | hpos
    · rw [hzero, Nat.zero_mul] at hlast
      omega
    · exact hpos
  -- the stage before the end of the last round
  have hstage : stage = rules.length * policy.repeatCount.toNat + (rules.length - 1) := by
    rw [Nat.mul_succ] at hlast
    omega
  rw [hstage, Nat.mul_add_mod, Nat.mod_eq_of_lt (Nat.sub_lt hpos Nat.one_pos)] at hmem
  rw [List.getLast?_eq_getElem?]
  exact hmem

/-- A look clears the due time at the last stage, when it is over. -/
theorem look_clears_iff {now due : Int} {s : Stand} (hdue : s.due = some due)
    (hrange : s.stage < (stages policy rules).length) :
    (s.look (stages policy rules) Rule.delay now).due = none ↔
      s.stage + 1 = (stages policy rules).length ∧ due ≤ now := by
  -- an early look clears nothing
  rcases @Stand.look_due _ (stages policy rules) Rule.delay now _ _ hdue hrange with
    ⟨hearly, hlook⟩ | ⟨next, hlate, hlook⟩ | ⟨hlate, hended⟩
  · rw [hlook, hdue]
    exact iff_of_false nofun fun h => absurd h.2 (not_le.mpr hearly)
  · have hin := @Stand.look_in_range _ (stages policy rules) Rule.delay now _ hrange
    rw [hlook] at hin ⊢
    refine iff_of_false nofun fun h => ?_
    dsimp only at hin
    omega
  -- a late look that clears is at the last stage
  · refine iff_of_true hended.due_none ⟨?_, hlate⟩
    rcases @Stand.look_stage _ (stages policy rules) Rule.delay now s with
      hkeep | ⟨_, _, _, _, _, hmove⟩
    · exact hkeep ▸ hended.last
    · have hnone := hended.due_none
      rw [hmove] at hnone
      cases hnone

/-- **The group of an enabled policy is escalated along its rules**, once and then as often
as the policy repeats, never before the delay of a rule is over, and no further. -/
theorem policy_traversed (h : HasRules db policy rules) {ticks : ℕ → Tick}
    (hquiet : ∀ k, (ticks k).Quiet) {g : AlertGroup} (hg : Opened g) (w : OnCall)
    (rotation : Option Id) (start : Instant) :
    Traverses db policy rules ticks start
      (applyInitialEscalationPolicyAssignment db w policy rotation start g) := by
  obtain ⟨first, hfirst, hat⟩ := initial_stage h hg w rotation start
  have hrun := run_looks h hquiet hat
  have hcount (k : ℕ) := (hrun k).count
  have hstart : (stages policy rules)[0]? = some first := by
    have hrange := hat.inRange
    rw [length_stages] at hrange
    unfold stages
    rw [replicate_getElem?, if_pos hrange, Nat.zero_mod]
    exact hfirst
  have hdue := due_of_stage hcount hstart rfl
  -- who is on call, the next step, when it is cleared, and that it ends
  refine ⟨fun k => ?_, fun k => ?_, fun k hsome => ?_, fun hclock => ?_⟩
  · obtain ⟨rule, hrule, -⟩ := hdue k
    refine ⟨_, rule, hcount k, hrule, ?_⟩
    have hcurrent := (hrun k).rule
    rw [mem_of_stage hrule] at hcurrent
    exact hcurrent
  -- a tick stays, or escalates by one
  · have hthen := hcount (k + 1)
    rw [Stand.after] at hthen
    rcases Stand.look_stage (ticks k).now (Stand.after (stages policy rules) Rule.delay
        (fun k => (ticks k).now) _ k) with hkeep | ⟨due, next, hnow, hlate, -, hmove⟩
    · refine .inl ?_
      show (groupAfter _ _ _ _).course.count = (groupAfter _ _ _ _).course.count
      rw [hthen, hkeep, hcount k]
    · refine .inr ⟨?_, ?_⟩
      · show (groupAfter _ _ _ _).course.count = (groupAfter _ _ _ _).course.count + 1
        rw [hthen, hmove, hcount k]
        rfl
      · obtain ⟨rule, hrule, hrest⟩ := hdue k
        have hcurrent := (hrun k).rule
        rw [mem_of_stage hrule] at hcurrent
        refine ⟨rule, List.mem_of_getElem? (mem_of_stage hrule), hcurrent, ?_⟩
        rw [← hrest due hnow]
        exact hlate
  -- the tick clears the time exactly when it is late at the last stage
  · obtain ⟨due, hsome⟩ := Option.isSome_iff_exists.mp hsome
    have hstand : (Stand.after (stages policy rules) Rule.delay (fun k => (ticks k).now) _ k).due =
        some due := (hrun k).due.symm.trans hsome
    have hthen : (groupAfter db ticks (applyInitialEscalationPolicyAssignment db w policy rotation
        start g) (k + 1)).nextEscalationAt = _ := (hrun (k + 1)).due
    obtain ⟨rule, hrule, hrest⟩ := hdue k
    have hstage : escalations (groupAfter db ticks (applyInitialEscalationPolicyAssignment db w
        policy rotation start g) k) = _ := hcount k
    rw [hthen, Stand.after, look_clears_iff hstand (hrun k).inRange, hrest due hstand, hstage,
      ← length_stages policy rules]
    constructor
    · rintro ⟨hlast, hlate⟩
      refine ⟨congrArg (_ + ·) (Nat.eq_sub_of_add_eq hlast), fun last hmem => ?_⟩
      obtain rfl := Option.some.inj ((last_of_stage hrule hlast).symm.trans hmem)
      exact hlate
    · rintro ⟨hreached, hlate⟩
      have hin := (hrun k).inRange
      have hlast : (Stand.after (stages policy rules) Rule.delay (fun k => (ticks k).now)
          ⟨0, some (start + first.delay)⟩ k).stage + 1 = (stages policy rules).length := by omega
      exact ⟨hlast, hlate rule (last_of_stage hrule hlast)⟩
  -- if the clock passes every time, the last stage is reached, and stays
  · obtain ⟨k, hend⟩ := Stand.eventually_ended hclock hat.inRange
      (show (some (start + first.delay)).isSome from rfl)
    refine ⟨k, fun j hj => ?_⟩
    have hlast := hend j hj
    constructor
    · show (groupAfter _ _ _ _).course.count = _
      have hstage := hlast.last
      rw [length_stages] at hstage
      rw [hcount j]
      exact congrArg (_ + ·) (Nat.eq_sub_of_add_eq hstage)
    · exact (hrun j).due.trans hlast.due_none

end Walk

/-! ## Two rules -/

def onDuty : OnCall where
  active := fun _ => true
  currentOncallUser := some
  nextRotationUser := fun _ _ => none
  username := fun _ => "alice"

/-- A tick in which nothing pauses the group and nobody is notified. -/
def quietTick (now : Instant) : Tick where
  now := now
  live := true
  shelved := false
  suppressed := false
  paused := false
  onCall := onDuty
  teamEscalation := none
  reminderInterval := fun _ => 0
  hasTarget := fun _ => some false
  notify := fun _ => some 0
  groupWait := 30
  groupInterval := 300

/-- A tick in each second. -/
def everySecond (k : ℕ) : Tick := quietTick (seconds k)

theorem everySecond_quiet (k : ℕ) : (everySecond k).Quiet := ⟨rfl, rfl, rfl, rfl⟩

def callUser (id user : Id) (position : Int) : Rule :=
  { id, policy := 1, position, delaySeconds := 0, targetType := .user, targetRotation := none,
    targetUser := some user, enabled := true }

def twoRules : List Rule := [callUser 1 1 1, callUser 2 2 2]

def twoRulePolicy (enabled : Bool) : Policy := { id := 1, enabled, repeatCount := 1 }

def twoRuleTables (enabled : Bool) : Policies where
  policies := [twoRulePolicy enabled]
  rules := twoRules

def openedGroup : AlertGroup where
  status := .firing
  mergedInto := none
  escalationPolicy := none
  escalationRule := none
  rotation := none
  assignee := none
  escalationLevel := 0
  escalationRepeatCount := 0
  nextEscalationAt := none
  lastEscalatedAt := none
  reminderCount := 0
  lastNotificationAt := none
  notificationPending := false
  notificationDueAt := none
  notificationReason := none
  maintenanceSuppressed := false
  updatedAt := 0
  events := []

/-- A group that gets a disabled policy is never escalated along its two enabled rules. -/
theorem disabled_policy_waits :
    listEnabledRules (twoRuleTables false) (twoRulePolicy false) = twoRules ∧
      (∀ k, (everySecond k).Quiet) ∧ Opened openedGroup ∧
      ¬Traverses (twoRuleTables false) (twoRulePolicy false) twoRules everySecond 0
        (applyInitialEscalationPolicyAssignment (twoRuleTables false) onDuty (twoRulePolicy false)
          none 0 openedGroup) := by
  refine ⟨by decide, everySecond_quiet, ⟨rfl, rfl, rfl⟩, fun htraverses => ?_⟩
  -- nothing is due, so no tick changes the group
  have hsame (k : ℕ) : groupAfter (twoRuleTables false) everySecond
      (applyInitialEscalationPolicyAssignment (twoRuleTables false) onDuty (twoRulePolicy false)
        none 0 openedGroup) k =
      applyInitialEscalationPolicyAssignment (twoRuleTables false) onDuty (twoRulePolicy false)
        none 0 openedGroup := by
    induction k with
    | zero => rfl
    | succ k ih =>
      rw [groupAfter, ih]
      rfl
  have hclock : Stand.Unbounded fun k => (everySecond k).now := fun instant k =>
    ⟨max k instant.toNat, le_max_left _ _, by
      show instant ≤ seconds ((max k instant.toNat : ℕ) : Int)
      unfold seconds
      omega⟩
  obtain ⟨k, hk⟩ := htraverses.complete hclock
  have hnone := (hk k le_rfl).1
  rw [hsame] at hnone
  exact absurd hnone (by decide)

/-- Two rules without a delay, and one more cycle. -/
theorem policy_traversed_sample :
    Traverses (twoRuleTables true) (twoRulePolicy true) twoRules everySecond 0
      (applyInitialEscalationPolicyAssignment (twoRuleTables true) onDuty (twoRulePolicy true)
        none 0 openedGroup) :=
  policy_traversed ⟨by decide, rfl, by decide, by decide, by decide⟩ everySecond_quiet
    ⟨rfl, rfl, rfl⟩ onDuty none 0

end IncidentRelay.Escalation
