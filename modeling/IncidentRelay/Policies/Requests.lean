import IncidentRelay.Policies.RuleOrder

/-!
# What a request that read earlier may undo

A request reads before its transaction and commits later; `since` are the requests that
committed in between. A commit is kept (`CommitKept`) when the live rules have the positions
1 to n behind it, when the rules that it does not move stay in their order, and when it does
not undo an order, a field or channels that one of `since` has set.

For each request this is a condition on what it read and on the rules it finds (`Fits`,
`commit_kept_iff`). A delete always fits. An update fits unless it sets again what was set
since. A create puts its rule into the list that was read, so the rules it finds must stand
where they were read; a reorder likewise.
-/

namespace IncidentRelay.Policies

/-! ## Requests -/

inductive RuleRequest where
  | create (data : Dict) (channels : List Id) (position : Option ℤ)
  | update (rule : ℕ) (data : Dict) (channels : Option (List Id)) (position : Option ℤ)
  | delete (rule : ℕ)
  | reorder (ids : List ℕ)
  deriving DecidableEq

namespace RuleRequest

/-- The rules to which the request gives a place of its own. -/
def moves : RuleRequest → ℕ → Bool
  | .update rule _ _ position, n => n = rule && position.isSome
  | .reorder ids, n => n ∈ ids
  | _, _ => false

def sets : RuleRequest → ℕ → String → Bool
  | .update rule data _ _, n, name => n = rule && (data.get name).isSome
  | _, _, _ => false

def setsChannels : RuleRequest → ℕ → Bool
  | .update rule _ channels _, n => n = rule && channels.isSome
  | _, _ => false

end RuleRequest

section

-- `byName` is the order in which the channels of a rule are listed.
variable (kind : PolicyKind) (byName : List Id → List Id)

def listRuleChannelIds (t : Rules) (n : ℕ) : List Id :=
  byName (((liveRule t n).map PolicyRule.channels).getD [])

/-- What is checked before the transaction. -/
def accepts (read : Rules) : RuleRequest → Bool
  | .create data channels _ =>
    kind.deliverable ((data.get "enabled").getD (.bool true)) channels
  | .update n data channels _ =>
    match liveRule read n with
    | none => false
    | some rule =>
      kind.deliverable ((data.get "enabled").getD (rule.fields.getD "enabled"))
        (channels.getD (listRuleChannelIds byName read n))
  | .delete n => (liveRule read n).isSome
  | .reorder ids => ids.Nodup && ids.toFinset = liveIds read

/-- The transaction; a rule that is gone raises and nothing is written. -/
def commit (read t : Rules) : RuleRequest → Rules
  | .create data channels position =>
    createRule kind (listPolicyRules read) data channels position t
  | .update n data channels position =>
    (updateRule kind n data channels (listRuleChannelIds byName read n) position t).getD t
  | .delete n => (deleteRule n t).getD t
  | .reorder ids => reorderPolicyRules ids t

end

/-! ## Ids -/

/-- Positions are written without a new rule. -/
theorem next_setPositions (position : ℤ) (ids : List ℕ) (t : Rules) :
    (setPositions position ids t).next = t.next := by
  induction ids generalizing position t with
  | nil => rfl
  | cons n ids ih => exact ih _ _

theorem next_reorderPolicyRules (ids : List ℕ) (t : Rules) :
    (reorderPolicyRules ids t).next = t.next := by
  rw [reorderPolicyRules, next_setPositions, next_setPositions]

theorem next_moveRule (n : ℕ) (position : Option ℤ) (t : Rules) :
    (moveRule n position t).next = t.next := by
  cases position with
  | none => rfl
  | some position => exact next_reorderPolicyRules _ _

/-- No id is given twice. -/
theorem next_le_commit (kind : PolicyKind) (byName : List Id → List Id) (read t : Rules)
    (request : RuleRequest) : t.next ≤ (commit kind byName read t request).next := by
  cases request with
  -- only a creation takes an id
  | create data channels position =>
    show t.next ≤ (createRule kind (listPolicyRules read) data channels position t).next
    rw [createRule, next_reorderPolicyRules]
    exact Nat.le_succ _
  -- an update of a rule that is there writes it and moves it
  | update n data channels position =>
    show t.next ≤ ((updateRule kind n data channels _ position t).getD t).next
    rw [updateRule, writeRule, updatePolicyRule]
    cases liveRule t n with
    | none => exact le_refl _
    | some rule =>
      refine (next_moveRule n position _).symm.le.trans' ?_
      split_ifs <;> exact le_refl _
  | delete n =>
    show t.next ≤ ((deleteRule n t).getD t).next
    rw [deleteRule, softDeletePolicyRule]
    cases liveRule t n with
    | none => exact le_refl _
    | some rule =>
      refine (next_reorderPolicyRules _ _).symm.le.trans' ?_
      exact le_refl _
  | reorder ids => exact (next_reorderPolicyRules ids t).symm.le

/-! ## What must be kept -/

/-- One of the requests has given one of the two rules its place. -/
def Settled (since : List RuleRequest) (x y : ℕ) : Prop :=
  ∃ c ∈ since, c.moves x = true ∨ c.moves y = true

/-- What one of the requests has written into a rule is there still. -/
def WrittenKept (since : List RuleRequest) (t after : Rules) : Prop :=
  ∀ c ∈ since, ∀ x r r', liveRule t x = some r → liveRule after x = some r' →
    (∀ name, c.sets x name = true → r'.fields.get name = r.fields.get name) ∧
      (c.setsChannels x = true → r'.channels = r.channels)

structure CommitKept (request : RuleRequest) (since : List RuleRequest) (t after : Rules) : Prop where
  numbered : InOrder after
  rest : ∀ x ∈ liveIds t ∩ liveIds after, ∀ y ∈ liveIds t ∩ liveIds after,
    request.moves x = false → request.moves y = false →
      (place t x < place t y ↔ place after x < place after y)
  settled : ∀ x ∈ liveIds t ∩ liveIds after, ∀ y ∈ liveIds t ∩ liveIds after,
    Settled since x y → (place t x < place t y ↔ place after x < place after y)
  written : WrittenKept since t after

/-- Where a reorder leaves a rule. -/
def reorderedTo (ids : List ℕ) (t : Rules) (n : ℕ) : ℤ :=
  if n ∈ ids then placeIn ids n else place t n

/-- What the request read still holds, as far as it writes it. -/
def Fits (kind : PolicyKind) (byName : List Id → List Id) (since : List RuleRequest) (read t : Rules) :
    RuleRequest → Prop
  | .create _ _ position =>
    let k := targetPosition position ((liveIds read).card + 1)
    k ≤ (liveIds t).card + 1 ∧
      ∀ x ∈ liveIds t, if x ∈ liveIds read then place read x = place t x else place t x < k
  | .update n data channels position => ∀ rule, liveRule t n = some rule →
      let current := listRuleChannelIds byName read n
      (∀ c ∈ since, ∀ name ∈ kind.updatable, ∀ value, data.get name = some value →
        c.sets n name = true → rule.fields.get name = some value) ∧
      (∀ c ∈ since, c.setsChannels n = true → channels.getD current ≠ current →
        (channels.getD current).eraseDups = rule.channels) ∧
      ∀ requested, position = some requested → ∀ x ∈ (liveIds t).erase n, Settled since x n →
        let k := targetPosition (some requested) (liveIds t).card
        (place t x < place t n → place t x < k) ∧ (place t n < place t x → k < place t x)
  | .delete _ => True
  | .reorder ids =>
    (∀ x ∈ liveIds t, x ∈ ids → placeIn ids x ≤ (liveIds t).card ∧
      ∀ y ∈ liveIds t, y ∉ ids → placeIn ids x ≠ place t y) ∧
    ∀ x ∈ liveIds t, ∀ y ∈ liveIds t, Settled since x y →
      (place t x < place t y ↔ reorderedTo ids t x < reorderedTo ids t y)

instance decidableSettled (since : List RuleRequest) (x y : ℕ) : Decidable (Settled since x y) :=
  inferInstanceAs (Decidable (∃ c ∈ since, c.moves x = true ∨ c.moves y = true))

instance decidableFits (kind : PolicyKind) (byName : List Id → List Id) (since : List RuleRequest)
    (read t : Rules) : (request : RuleRequest) → Decidable (Fits kind byName since read t request)
  | .create _ _ position =>
    inferInstanceAs (Decidable (
      targetPosition position ((liveIds read).card + 1) ≤ (liveIds t).card + 1 ∧
        ∀ x ∈ liveIds t, if x ∈ liveIds read then place read x = place t x
          else place t x < targetPosition position ((liveIds read).card + 1)))
  | .update n data channels position =>
    inferInstanceAs (Decidable (∀ rule ∈ liveRule t n,
      (∀ c ∈ since, ∀ name ∈ kind.updatable, ∀ value ∈ data.get name,
        c.sets n name = true → rule.fields.get name = some value) ∧
      (∀ c ∈ since, c.setsChannels n = true →
        channels.getD (listRuleChannelIds byName read n) ≠ listRuleChannelIds byName read n →
        (channels.getD (listRuleChannelIds byName read n)).eraseDups = rule.channels) ∧
      ∀ requested ∈ position, ∀ x ∈ (liveIds t).erase n, Settled since x n →
        (place t x < place t n → place t x < targetPosition (some requested) (liveIds t).card) ∧
        (place t n < place t x → targetPosition (some requested) (liveIds t).card < place t x)))
  | .delete _ => inferInstanceAs (Decidable True)
  | .reorder ids =>
    inferInstanceAs (Decidable (
      (∀ x ∈ liveIds t, x ∈ ids → placeIn ids x ≤ (liveIds t).card ∧
        ∀ y ∈ liveIds t, y ∉ ids → placeIn ids x ≠ place t y) ∧
      ∀ x ∈ liveIds t, ∀ y ∈ liveIds t, Settled since x y →
        (place t x < place t y ↔ reorderedTo ids t x < reorderedTo ids t y)))

/-! ## One request at a time -/

variable {kind : PolicyKind} {byName : List Id → List Id} {since : List RuleRequest}
  {request : RuleRequest} {read t after : Rules} {n : ℕ} {f : ℕ → PolicyRule → PolicyRule}

/-- An update of a rule that is gone changes nothing. -/
theorem commit_update_of_none {m : ℕ} (hrule : liveRule t m = none) (data : Dict)
    (channels : Option (List Id)) (position : Option ℤ) :
    commit kind byName read t (.update m data channels position) = t := by
  show (updateRule kind m data channels _ position t).getD t = t
  rw [updateRule, writeRule, updatePolicyRule, hrule]
  rfl

variable (kind byName read) in
/-- **An update** rewrites its rule and puts the others where its move leaves them. -/
theorem liveRule_commit_update (h : InOrder t) {m : ℕ} {rule : PolicyRule}
    (hrule : liveRule t m = some rule) (data : Dict) (channels : Option (List Id))
    (position : Option ℤ) (n : ℕ) :
    liveRule (commit kind byName read t (.update m data channels position)) n =
      (liveRule t n).map fun r =>
        { updated kind m data channels (listRuleChannelIds byName read m) n r with
          position := movedTo t m position n } := by
  obtain ⟨after, hafter, hlive⟩ := updateRule_spec kind h hrule data channels
    (listRuleChannelIds byName read m) position
  have hcommit : commit kind byName read t (.update m data channels position) = after := by
    show (updateRule kind m data channels _ position t).getD t = after
    rw [hafter]
    rfl
  rw [hcommit, hlive]

/-- A deletion of a rule that is gone changes nothing. -/
theorem commit_delete_of_none {m : ℕ} (hrule : liveRule t m = none) :
    commit kind byName read t (.delete m) = t := by
  show (deleteRule m t).getD t = t
  rw [deleteRule, softDeletePolicyRule, hrule]
  rfl

variable (kind byName read) in
/-- **A deletion** takes its rule out and closes the gap. -/
theorem liveRule_commit_delete (h : InOrder t) {m : ℕ} {rule : PolicyRule}
    (hrule : liveRule t m = some rule) (n : ℕ) :
    liveRule (commit kind byName read t (.delete m)) n =
      if n = m then none
      else (liveRule t n).map fun r => { r with position := movedDown (place t m) (place t n) } := by
  obtain ⟨after, hafter, hlive⟩ := deleteRule_spec h hrule
  have hcommit : commit kind byName read t (.delete m) = after := by
    show (deleteRule m t).getD t = after
    rw [hafter]
    rfl
  rw [hcommit, hlive]

theorem settled_symm {x y : ℕ} (h : Settled since x y) : Settled since y x := by
  obtain ⟨c, hc, hmoves⟩ := h
  exact ⟨c, hc, hmoves.symm⟩

/-- A commit that changes nothing keeps everything. -/
theorem kept_unchanged (h : InOrder t) (request : RuleRequest) (since : List RuleRequest) :
    CommitKept request since t t where
  numbered := h
  rest _ _ _ _ _ _ := Iff.rfl
  settled _ _ _ _ _ := Iff.rfl
  written _ _ _ _ _ hr hr' := by
    obtain rfl := Option.some.inj (hr.symm.trans hr')
    exact ⟨fun _ _ => rfl, fun _ => rfl⟩

/-- The rules that are left differ in their positions only. -/
theorem written_of_same (h : ∀ x r r', liveRule t x = some r → liveRule after x = some r' →
    r'.fields = r.fields ∧ r'.channels = r.channels) : WrittenKept since t after := by
  intro c _ x r r' hr hr'
  obtain ⟨hfields, hchannels⟩ := h x r r' hr hr'
  exact ⟨fun _ _ => by rw [hfields], fun _ => hchannels⟩

theorem kept_of_sameOrder (hnumbered : InOrder after)
    (hsame : SameOrder (liveIds t ∩ liveIds after) (place t) (place after))
    (hwritten : WrittenKept since t after) : CommitKept request since t after :=
  ⟨hnumbered, fun x hx y hy _ _ => hsame x hx y hy, fun x hx y hy _ => hsame x hx y hy, hwritten⟩

/-- **A create is kept, if and only if every rule stands where it was read, and the rules that
came since stand before the new one.** -/
theorem create_kept_iff (h : InOrder t) (hread : InOrder read) (hnext : read.next ≤ t.next)
    (data : Dict) (channels : List Id) (position : Option ℤ) :
    let request := RuleRequest.create data channels position
    CommitKept request since t (commit kind byName read t request) ↔
      Fits kind byName since read t request := by
  intro request
  have hlive := liveRule_createRule kind hread hnext data channels position
  have hk := (targetPosition_bounds position (show (1 : ℤ) ≤ (liveIds read).card + 1 by omega)).1
  generalize hafter : commit kind byName read t request = after
  have hafter' : createRule kind (listPolicyRules read) data channels position t = after := hafter
  rw [hafter'] at hlive
  set k := targetPosition position ((liveIds read).card + 1) with hkdef
  -- the new rule is no live one of before
  have hnew : t.next ∉ liveIds t := by
    rw [mem_liveIds]
    rintro ⟨r, hr⟩
    exact absurd (lt_of_liveRule hr) (lt_irrefl _)
  have hplace : ∀ x ∈ liveIds t,
      place after x = if x ∈ liveIds read then movedUp k (place read x) else place t x := by
    intro x hx
    obtain ⟨r, hr⟩ := mem_liveIds.mp hx
    have hne : x ≠ t.next := fun heq => hnew (heq ▸ hx)
    rw [place, hlive, if_neg hne, hr, place_of_liveRule hr]
    split_ifs <;> rfl
  have hplaceNew : place after t.next = k := by
    rw [place, hlive, if_pos rfl]
    rfl
  have hids : liveIds after = insert t.next (liveIds t) := by
    ext x
    rw [Finset.mem_insert, mem_liveIds, mem_liveIds, hlive]
    by_cases hx : x = t.next <;> simp [hx]
  have hsub : liveIds t ⊆ liveIds after := hids ▸ Finset.subset_insert _ _
  have hinter : liveIds t ∩ liveIds after = liveIds t := Finset.inter_eq_left.mpr hsub
  -- its fields are not those of another
  have hwritten : WrittenKept since t after := by
    refine written_of_same fun x r r' hr hr' => ?_
    have hne : x ≠ t.next := fun heq => hnew (heq ▸ mem_liveIds.mpr ⟨r, hr⟩)
    rw [hlive, if_neg hne, hr] at hr'
    obtain rfl := Option.some.inj hr'
    split_ifs <;> exact ⟨rfl, rfl⟩
  -- so it is all about the places
  have hkept : CommitKept request since t after ↔
      Numbered (insert t.next (liveIds t)) (place after) ∧ SameOrder (liveIds t) (place t) (place after) := by
    rw [← hids]
    constructor
    · intro hkept
      refine ⟨hkept.numbered, fun x hx y hy => ?_⟩
      rw [← hinter] at hx hy
      exact hkept.rest x hx y hy rfl rfl
    · rintro ⟨hnumbered, hsame⟩
      refine kept_of_sameOrder hnumbered ?_ hwritten
      rwa [hinter]
  rw [hkept, numbered_insert_iff hnew h, hplaceNew]
  constructor
  -- no place is taken twice, so a rule at or behind the new one was moved up
  · rintro ⟨-, hle, hmoved⟩
    refine ⟨hle, fun x hx => ?_⟩
    have := hmoved x hx
    rw [hplace x hx] at this
    split_ifs at this ⊢ with hx'
    · exact movedUp_inj.mp this
    · by_contra hlt
      rw [movedUp, if_neg hlt] at this
      omega
  -- a rule is moved up exactly when it was at or behind the new place
  · rintro ⟨hle, hfits⟩
    refine ⟨hk, hle, fun x hx => ?_⟩
    have := hfits x hx
    rw [hplace x hx]
    split_ifs at this ⊢ with hx'
    · rw [this]
    · rw [movedUp, if_pos this]

/-- The rules stay numbered, and those that are not moved stay in their order. -/
theorem movedTo_spec (h : InOrder t) (hm : n ∈ liveIds t) (position : Option ℤ) :
    Numbered (liveIds t) (movedTo t n position) ∧
      ∀ x ∈ liveIds t, ∀ y ∈ liveIds t, (position.isSome → x ≠ n) → (position.isSome → y ≠ n) →
        (place t x < place t y ↔ movedTo t n position x < movedTo t n position y) := by
  cases position with
  -- nothing is moved where no position is asked for
  | none => exact ⟨h, fun _ _ _ _ _ _ => Iff.rfl⟩
  | some requested =>
    have hcard : 1 ≤ (liveIds t).card := Finset.card_pos.mpr ⟨n, hm⟩
    obtain ⟨hpos, hle⟩ := targetPosition_bounds (some requested)
      (show (1 : ℤ) ≤ (liveIds t).card by omega)
    constructor
    · refine Numbered.move h hm ?_ ?_ fun x hx => ?_
      all_goals simp only [movedTo, if_pos]
      · exact hpos
      · exact hle
      · rw [if_neg (Finset.ne_of_mem_erase hx)]
    -- rules other than the moved one keep their order
    · intro x hx y hy hxn hyn
      have hy' := h.ne_of_mem_erase hm (Finset.mem_erase.mpr ⟨hyn rfl, hy⟩)
      simp only [movedTo, if_neg (hxn rfl), if_neg (hyn rfl)]
      rw [movedUp_lt_movedUp, movedDown_lt_movedDown hy']

/-- **A move keeps the settled rules in order** exactly when its target is on the same side of
each of them. -/
theorem settled_update_iff (h : InOrder t) (hm : n ∈ liveIds t) (position : Option ℤ) :
    (∀ x ∈ liveIds t, ∀ y ∈ liveIds t, Settled since x y →
      (place t x < place t y ↔ movedTo t n position x < movedTo t n position y)) ↔
    ∀ requested, position = some requested → ∀ x ∈ (liveIds t).erase n, Settled since x n →
      let k := targetPosition (some requested) (liveIds t).card
      (place t x < place t n → place t x < k) ∧ (place t n < place t x → k < place t x) := by
  constructor
  -- the moved rule is compared with each that is settled
  · rintro hsettled requested rfl x hx hsince
    obtain ⟨hxn, hxs⟩ := Finset.mem_erase.mp hx
    have hiff := (hsettled x hxs n hm hsince).symm
    simp only [movedTo, if_neg hxn, if_pos] at hiff
    exact (moved_lt_iff (h.ne_of_mem_erase hm hx)).mp hiff
  · intro hmoved x hx y hy hsince
    cases position with
    | none => exact Iff.rfl
    | some requested =>
      simp only [movedTo]
      -- two rules that are not moved keep their order anyway
      by_cases hxn : x = n
      · by_cases hyn : y = n
        · rw [hxn, hyn]
          exact iff_of_false (lt_irrefl _) (lt_irrefl _)
        · have hy' := Finset.mem_erase.mpr ⟨hyn, hy⟩
          have hside := hmoved requested rfl y hy' (hxn ▸ settled_symm hsince)
          rw [if_pos hxn, if_neg hyn, hxn]
          exact ((lt_moved_iff (h.ne_of_mem_erase hm hy')).mpr hside).symm
      · have hx' := Finset.mem_erase.mpr ⟨hxn, hx⟩
        by_cases hyn : y = n
        · have hside := hmoved requested rfl x hx' (hyn ▸ hsince)
          rw [if_neg hxn, if_pos hyn, hyn]
          exact ((moved_lt_iff (h.ne_of_mem_erase hm hx')).mpr hside).symm
        · have hy' := Finset.mem_erase.mpr ⟨hyn, hy⟩
          rw [if_neg hxn, if_neg hyn, movedUp_lt_movedUp,
            movedDown_lt_movedDown (h.ne_of_mem_erase hm hy')]

/-- **A write keeps what was written since it read** exactly when the two fields it writes over
are its own. -/
theorem written_update_iff {rule : PolicyRule} {data : Dict} {channels : Option (List Id)}
    {current : List Id} {position : Option ℤ}
    (hlive : ∀ x, liveRule after x = (liveRule t x).map fun r =>
      { updated kind n data channels current x r with position := movedTo t n position x })
    (hrule : liveRule t n = some rule) :
    WrittenKept since t after ↔
      (∀ c ∈ since, ∀ name ∈ kind.updatable, ∀ value, data.get name = some value →
        c.sets n name = true → rule.fields.get name = some value) ∧
      (∀ c ∈ since, c.setsChannels n = true → channels.getD current ≠ current →
        (channels.getD current).eraseDups = rule.channels) := by
  constructor
  -- a field that was written since is overwritten only with the same value
  · intro hkept
    have hafter := hlive n
    rw [hrule, Option.map_some] at hafter
    constructor
    · intro c hc name hname value hvalue hsets
      have hget := (hkept c hc n rule _ hrule hafter).1 name hsets
      simp only [updated, if_pos, get_setFields, if_pos hname, hvalue, Option.some_or] at hget
      exact hget.symm
    · intro c hc hsets hne
      have hchannels := (hkept c hc n rule _ hrule hafter).2 hsets
      simpa [updated, hne] using hchannels
  -- the fields that are not given stay, and those of other rules too
  · rintro ⟨hfields, hchannels⟩
    intro c hc x r r' hr hr'
    rw [hlive, hr] at hr'
    obtain rfl := Option.some.inj hr'
    by_cases hx : x = n
    · subst hx
      obtain rfl := Option.some.inj (hr.symm.trans hrule)
      constructor
      · intro name hsets
        simp only [updated, if_pos, get_setFields]
        split_ifs with hname
        · cases hvalue : data.get name with
          | none => rfl
          | some value => exact (hfields c hc name hname value hvalue hsets).symm
        · rfl
      · intro hsets
        by_cases hne : channels.getD current = current
        · simp [updated, hne]
        · simp [updated, hne, hchannels c hc hsets hne]
    · simp [updated, hx]

/-- **An update is kept, if and only if it sets nothing again that was set since.** -/
theorem update_kept_iff (h : InOrder t) (m : ℕ) (data : Dict) (channels : Option (List Id))
    (position : Option ℤ) :
    let request := RuleRequest.update m data channels position
    CommitKept request since t (commit kind byName read t request) ↔
      Fits kind byName since read t request := by
  intro request
  cases hrule : liveRule t m with
  -- a rule that is gone is not updated
  | none =>
    rw [commit_update_of_none hrule]
    refine iff_of_true (kept_unchanged h _ _) ?_
    intro rule hsome
    rw [hrule] at hsome
    cases hsome
  | some rule =>
    -- the update writes its rule, and the move gives it a place
    have hlive := liveRule_commit_update kind byName read h hrule data channels position
    generalize commit kind byName read t request = after at hlive ⊢
    have hm : m ∈ liveIds t := mem_liveIds.mpr ⟨rule, hrule⟩
    have hids : liveIds after = liveIds t := liveIds_eq_of_map hlive
    have hinter : liveIds t ∩ liveIds after = liveIds t := by rw [hids, Finset.inter_self]
    have hplace : ∀ x ∈ liveIds t, place after x = movedTo t m position x := by
      intro x hx
      obtain ⟨r, hr⟩ := mem_liveIds.mp hx
      exact place_of_map hlive hr
    have hmoves : ∀ x, request.moves x = false → position.isSome → x ≠ m := by
      rintro x hx hsome rfl
      simp [request, RuleRequest.moves, hsome] at hx
    obtain ⟨hnumbered, hrest⟩ := movedTo_spec h hm position
    constructor
    · intro hkept rule' hrule'
      obtain rfl := Option.some.inj (hrule.symm.trans hrule')
      obtain ⟨hfields, hchannels⟩ := (written_update_iff hlive hrule).mp hkept.written
      refine ⟨hfields, hchannels, (settled_update_iff h hm position).mp fun x hx y hy hsince => ?_⟩
      rw [← hplace x hx, ← hplace y hy]
      exact hkept.settled x (hinter.symm ▸ hx) y (hinter.symm ▸ hy) hsince
    · intro hfits
      obtain ⟨hfields, hchannels, hmoved⟩ := hfits rule hrule
      -- what fits keeps the numbering, the order of rules that are not moved and that of the
      -- settled ones
      refine ⟨?_, ?_, ?_, (written_update_iff hlive hrule).mpr ⟨hfields, hchannels⟩⟩
      · unfold InOrder
        rw [hids]
        exact hnumbered.congr fun x hx => (hplace x hx).symm
      · intro x hx y hy hxm hym
        rw [hinter] at hx hy
        rw [hplace x hx, hplace y hy]
        exact hrest x hx y hy (hmoves x hxm) (hmoves y hym)
      · intro x hx y hy hsince
        rw [hinter] at hx hy
        rw [hplace x hx, hplace y hy]
        exact (settled_update_iff h hm position).mpr hmoved x hx y hy hsince

/-- **A delete is kept.** -/
theorem delete_kept (h : InOrder t) (m : ℕ) :
    CommitKept (.delete m) since t (commit kind byName read t (.delete m)) := by
  cases hrule : liveRule t m with
  | none =>
    rw [commit_delete_of_none hrule]
    exact kept_unchanged h _ _
  -- the deletion of a rule that is there closes the gap behind it
  | some rule =>
    have hlive := liveRule_commit_delete kind byName read h hrule
    generalize commit kind byName read t (.delete m) = after at hlive ⊢
    have hm : m ∈ liveIds t := mem_liveIds.mpr ⟨rule, hrule⟩
    have hids : liveIds after = (liveIds t).erase m := by
      ext n
      rw [Finset.mem_erase, mem_liveIds, mem_liveIds, hlive]
      split_ifs with hn <;> simp [hn]
    have hplace : ∀ x ∈ (liveIds t).erase m, place after x = movedDown (place t m) (place t x) := by
      intro x hx
      obtain ⟨hne, hx⟩ := Finset.mem_erase.mp hx
      obtain ⟨r, hr⟩ := mem_liveIds.mp hx
      rw [place, hlive, if_neg hne, hr]
      rfl
    -- moving down keeps the order of those that are left
    have hsame : SameOrder (liveIds t ∩ liveIds after) (place t) (place after) := by
      intro x hx y hy
      have hx : x ∈ (liveIds t).erase m := hids ▸ (Finset.mem_inter.mp hx).2
      have hy : y ∈ (liveIds t).erase m := hids ▸ (Finset.mem_inter.mp hy).2
      rw [hplace x hx, hplace y hy, movedDown_lt_movedDown (h.ne_of_mem_erase hm hy)]
    refine kept_of_sameOrder ?_ hsame ?_
    · have hnumbered := (Numbered.erase h hm).congr fun x hx => (hplace x hx).symm
      rwa [← hids] at hnumbered
    · refine written_of_same fun x r r' hr hr' => ?_
      rw [hlive, hr] at hr'
      split_ifs at hr'
      obtain rfl := Option.some.inj hr'
      exact ⟨rfl, rfl⟩

/-- A reordering that leaves free places gives each rule its own. -/
theorem reorderedTo_injOn (h : InOrder t) {ids : List ℕ} (hids : ids.Nodup)
    (hfree : ∀ x ∈ liveIds t, x ∈ ids →
      placeIn ids x ≤ (liveIds t).card ∧ ∀ y ∈ liveIds t, y ∉ ids → placeIn ids x ≠ place t y) :
    Set.InjOn (reorderedTo ids t) (liveIds t) := by
  intro x hx y hy hxy
  unfold reorderedTo at hxy
  split_ifs at hxy with hxids hyids hyids
  · exact (numbered_idxOf hids).injOn (List.mem_toFinset.mpr hxids) (List.mem_toFinset.mpr hyids) hxy
  · exact absurd hxy ((hfree x hx hxids).2 y hy hyids)
  · exact absurd hxy.symm ((hfree y hy hyids).2 x hx hxids)
  · exact h.injOn hx hy hxy

/-- **A reorder is kept, if and only if its places are there and free.** -/
theorem reorder_kept_iff (h : InOrder t) {ids : List ℕ} (hids : ids.Nodup) :
    let request := RuleRequest.reorder ids
    CommitKept request since t (commit kind byName read t request) ↔
      Fits kind byName since read t request := by
  intro request
  have hlive := liveRule_reorderPolicyRules hids t
  have hcommit : commit kind byName read t request = reorderPolicyRules ids t := rfl
  rw [hcommit]
  generalize reorderPolicyRules ids t = after at hlive
  have hsameIds : liveIds after = liveIds t := liveIds_eq_of_map hlive
  have hinter : liveIds t ∩ liveIds after = liveIds t := by rw [hsameIds, Finset.inter_self]
  have hplace : ∀ x ∈ liveIds t, place after x = reorderedTo ids t x := by
    intro x hx
    obtain ⟨r, hr⟩ := mem_liveIds.mp hx
    rw [place_of_map hlive hr, reorderedTo, place_of_liveRule hr]
    split_ifs <;> rfl
  -- a reordering writes positions only
  have hwritten : WrittenKept since t after := by
    refine written_of_same fun x r r' hr hr' => ?_
    rw [hlive, hr] at hr'
    obtain rfl := Option.some.inj hr'
    split_ifs <;> exact ⟨rfl, rfl⟩
  have hnumbered : InOrder after ↔ ∀ x ∈ liveIds t, x ∈ ids →
      placeIn ids x ≤ (liveIds t).card ∧ ∀ y ∈ liveIds t, y ∉ ids → placeIn ids x ≠ place t y := by
    unfold InOrder
    rw [hsameIds]
    -- a rule that is listed gets a place that no rule outside the list has
    constructor
    · intro hafter x hx hmem
      have hxp := hplace x hx
      rw [reorderedTo, if_pos hmem] at hxp
      refine ⟨hxp ▸ (hafter.bounds hx).2, fun y hy hnot heq => hnot ?_⟩
      have hyp := hplace y hy
      rw [reorderedTo, if_neg hnot] at hyp
      obtain rfl := hafter.injOn hx hy (by rw [hxp, hyp, heq])
      exact hmem
    · intro hfree
      refine Numbered.congr (numbered_of_injOn (reorderedTo_injOn h hids hfree) fun x hx => ?_)
        fun x hx => (hplace x hx).symm
      unfold reorderedTo
      split_ifs with hmem
      · exact ⟨((numbered_idxOf hids).bounds (List.mem_toFinset.mpr hmem)).1, (hfree x hx hmem).1⟩
      · exact h.bounds hx
  -- so it is kept when the places are free and settled rules stay in order
  constructor
  · intro hkept
    refine ⟨hnumbered.mp hkept.numbered, fun x hx y hy hsettled => ?_⟩
    rw [← hplace x hx, ← hplace y hy]
    exact hkept.settled x (hinter.symm ▸ hx) y (hinter.symm ▸ hy) hsettled
  · rintro ⟨hfree, hsettled⟩
    refine ⟨hnumbered.mpr hfree, ?_, ?_, hwritten⟩
    · intro x hx y hy hxids hyids
      rw [hinter] at hx hy
      rw [hplace x hx, hplace y hy, reorderedTo, reorderedTo, if_neg (of_decide_eq_false hxids),
        if_neg (of_decide_eq_false hyids)]
    · intro x hx y hy hsince
      rw [hinter] at hx hy
      rw [hplace x hx, hplace y hy]
      exact hsettled x hx y hy hsince

/-- No commit brings a rule back. -/
theorem live_of_commit (h : InOrder t) (hread : InOrder read) (hnext : read.next ≤ t.next)
    (haccepts : accepts kind byName read request = true) (hn : n < t.next)
    (hlive : n ∈ liveIds (commit kind byName read t request)) : n ∈ liveIds t := by
  rw [mem_liveIds] at hlive ⊢
  obtain ⟨r', hr'⟩ := hlive
  cases request with
  -- the new rule is not below the ids of before
  | create data channels position =>
    have hrule := liveRule_createRule kind hread hnext data channels position n
    dsimp only at hrule
    rw [if_neg hn.ne] at hrule
    obtain ⟨r, hr, -⟩ := Option.map_eq_some_iff.mp (hrule.symm.trans hr')
    exact ⟨r, hr⟩
  | update m data channels position =>
    cases hrule : liveRule t m with
    | none =>
      rw [commit_update_of_none hrule] at hr'
      exact ⟨r', hr'⟩
    -- an update keeps its rule live
    | some rule =>
      rw [liveRule_commit_update kind byName read h hrule] at hr'
      obtain ⟨r, hr, -⟩ := Option.map_eq_some_iff.mp hr'
      exact ⟨r, hr⟩
  | delete m =>
    cases hrule : liveRule t m with
    | none =>
      rw [commit_delete_of_none hrule] at hr'
      exact ⟨r', hr'⟩
    -- a deletion takes one rule out
    | some rule =>
      rw [liveRule_commit_delete kind byName read h hrule] at hr'
      split_ifs at hr'
      obtain ⟨r, hr, -⟩ := Option.map_eq_some_iff.mp hr'
      exact ⟨r, hr⟩
  | reorder ids =>
    simp only [accepts, Bool.and_eq_true, decide_eq_true_eq] at haccepts
    rw [commit, liveRule_reorderPolicyRules haccepts.1] at hr'
    obtain ⟨r, hr, -⟩ := Option.map_eq_some_iff.mp hr'
    exact ⟨r, hr⟩

/-- **A commit is kept, if and only if what it read still fits.** -/
theorem commit_kept_iff (h : InOrder t) (hread : InOrder read) (hnext : read.next ≤ t.next)
    (haccepts : accepts kind byName read request = true) :
    CommitKept request since t (commit kind byName read t request) ↔
      Fits kind byName since read t request := by
  cases request with
  | create data channels position => exact create_kept_iff h hread hnext data channels position
  | update n data channels position => exact update_kept_iff h n data channels position
  | delete n => exact iff_of_true (delete_kept h n) trivial
  | reorder ids =>
    have hids : ids.Nodup := by
      simp only [accepts, Bool.and_eq_true, decide_eq_true_eq] at haccepts
      exact haccepts.1
    exact reorder_kept_iff h hids

end IncidentRelay.Policies
