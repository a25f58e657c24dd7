import IncidentRelay.Policies.Rules

/-!
# What a request does to the order

One law for each request, for what it leaves behind of every live rule
(`liveRule_createRule`, `updateRule_spec`, `deleteRule_spec`). An update and a delete read
the list of the rules in their transaction, so in a numbered table they move the rules as
they say. A create and a reorder write the list that was read before.
-/

namespace IncidentRelay.Policies

variable {read t : Rules} {n m : ℕ} {r : PolicyRule}

/-- The live rules have the positions 1 to n, without ties or gaps. -/
def InOrder (t : Rules) : Prop := Numbered (liveIds t) (place t)

/-- Rewriting the live rules keeps their ids. -/
theorem liveIds_eq_of_map {t t' : Rules} {f : ℕ → PolicyRule → PolicyRule}
    (h : ∀ n, liveRule t' n = (liveRule t n).map (f n)) : liveIds t' = liveIds t := by
  ext n
  rw [mem_liveIds, mem_liveIds, h]
  simp

/-- A rule that is rewritten has the place it is given. -/
theorem place_of_map {t t' : Rules} {f : ℕ → PolicyRule → PolicyRule}
    (h : ∀ n, liveRule t' n = (liveRule t n).map (f n)) (hr : liveRule t n = some r) :
    place t' n = (f n r).position := by
  rw [place, h, hr]
  rfl

/-! ## A place in the list -/

/-- A position that is asked for is brought between the first and the last. -/
theorem targetPosition_bounds (requested : Option ℤ) {last : ℤ} (hlast : 1 ≤ last) :
    1 ≤ targetPosition requested last ∧ targetPosition requested last ≤ last := by
  unfold targetPosition
  cases requested with
  | none => exact ⟨hlast, le_refl _⟩
  | some position => exact ⟨le_max_left _ _, max_le hlast (min_le_right _ _)⟩

/-- The list is written with one rule put into it. -/
theorem liveRule_reorder_insertIdx {ids : List ℕ} {k : ℤ} (hids : ids.Nodup) (hm : m ∉ ids)
    (hpos : 1 ≤ k) (hle : k ≤ ids.length + 1) (t : Rules) (n : ℕ) :
    liveRule (reorderPolicyRules (ids.insertIdx (k - 1).toNat m) t) n = (liveRule t n).map fun r =>
      if n = m then { r with position := k }
      else if n ∈ ids then { r with position := movedUp k (placeIn ids n) } else r := by
  have hindex : (k - 1).toNat ≤ ids.length := by omega
  have hk : ((k - 1).toNat : ℤ) + 1 = k := by omega
  -- putting the rule into the list keeps the others in their order
  have hperm := List.perm_insertIdx m ids hindex
  have hnodup : (ids.insertIdx (k - 1).toNat m).Nodup :=
    hperm.nodup_iff.mpr (List.nodup_cons.mpr ⟨hm, hids⟩)
  have hinserted : n ∈ ids.insertIdx (k - 1).toNat m ↔ n = m ∨ n ∈ ids := List.mem_insertIdx hindex
  rw [liveRule_reorderPolicyRules hnodup]
  refine Option.map_congr fun r _ => ?_
  -- the rule stands at its place, and those behind it one further
  by_cases hn : n = m
  · subst hn
    rw [if_pos (hinserted.mpr (.inl rfl)), if_pos rfl, placeIn_insertIdx_self hm hindex, hk]
  · by_cases hmem : n ∈ ids
    · rw [if_pos (hinserted.mpr (.inr hmem)), if_neg hn, if_pos hmem,
        placeIn_insertIdx hm hindex hmem, hk]
    · rw [if_neg fun h => (hinserted.mp h).elim hn hmem, if_neg hn, if_neg hmem]

theorem placeIn_ruleIds (h : InOrder t) (hn : n ∈ liveIds t) : placeIn (ruleIds t) n = place t n :=
  Numbered.placeIn_eq h (pairwise_ruleIds h.injOn) rfl hn

/-! ## The requests -/

variable (kind : PolicyKind)

/-- **A new rule gets its place, and the rules that were read the place behind or before it.** -/
theorem liveRule_createRule (hread : InOrder read) (hnext : read.next ≤ t.next) (data : Dict)
    (channels : List Id) (position : Option ℤ) (n : ℕ) :
    let k := targetPosition position ((liveIds read).card + 1)
    liveRule (createRule kind (listPolicyRules read) data channels position t) n =
      if n = t.next then
        some { id := t.next, position := k, deleted := false, fields := kind.created data,
               channels := channels.eraseDups }
      else (liveRule t n).map fun r =>
        if n ∈ liveIds read then { r with position := movedUp k (place read n) } else r := by
  intro k
  -- the new rule is none of those that were read
  have hnew : t.next ∉ ruleIds read := by
    intro hmem
    obtain ⟨r, hr⟩ := mem_ruleIds.mp hmem
    have := lt_of_liveRule hr
    omega
  have hlength : ((listPolicyRules read).length : ℤ) = (liveIds read).card := by
    rw [card_liveIds, ruleIds, List.length_map]
  obtain ⟨hpos, hle⟩ := targetPosition_bounds position (show (1 : ℤ) ≤ (liveIds read).card + 1 by omega)
  have hle' : k ≤ (ruleIds read).length + 1 := by rwa [← card_liveIds]
  unfold createRule
  rw [hlength]
  refine (liveRule_reorder_insertIdx (nodup_ruleIds read) hnew hpos hle' _ n).trans ?_
  rw [liveRule_replaceRuleChannels, liveRule_insert rfl]
  -- it gets the place, and the rules that were read move up behind it
  by_cases hn : n = t.next
  · simp [hn, k]
  · simp only [if_neg hn, Option.map_map]
    refine Option.map_congr fun r _ => ?_
    simp only [Function.comp_apply, liveIds, List.mem_toFinset]
    split_ifs with hmem
    · rw [placeIn_ruleIds hread (List.mem_toFinset.mpr hmem)]
      rfl
    · rfl

/-- The rules that stand behind the moved one have closed up, and made way for it again. -/
def movedTo (t : Rules) (m : ℕ) (position : Option ℤ) (n : ℕ) : ℤ :=
  match position with
  | none => place t n
  | some position =>
    let k := targetPosition (some position) (liveIds t).card
    if n = m then k else movedUp k (movedDown (place t m) (place t n))

/-- The rules of the list but for one. -/
theorem placeIn_ruleIds_erase (h : InOrder t) (hm : m ∈ liveIds t) (hn : n ∈ (liveIds t).erase m) :
    placeIn ((ruleIds t).filter (· ≠ m)) n = movedDown (place t m) (place t n) := by
  have hfinset : ((ruleIds t).filter (· ≠ m)).toFinset = (liveIds t).erase m := by
    ext x
    simp [liveIds, and_comm]
  exact Numbered.placeIn_erase h hm ((pairwise_ruleIds h.injOn).filter _) hfinset hn

/-- What an update writes into its rule. -/
def updated (m : ℕ) (data : Dict) (channels : Option (List Id)) (current : List Id) (n : ℕ)
    (r : PolicyRule) : PolicyRule :=
  { r with
    fields := if n = m then setFields kind.updatable data r.fields else r.fields
    channels :=
      if n = m ∧ channels.getD current ≠ current then (channels.getD current).eraseDups
      else r.channels }

/-- Writing a rule rewrites the fields and channels of that rule. -/
theorem writeRule_spec {rule : PolicyRule} (hrule : liveRule t m = some rule) (data : Dict)
    (channels : Option (List Id)) (current : List Id) :
    ∃ written, writeRule kind m data channels current t = some written ∧
      ∀ n, liveRule written n = (liveRule t n).map (updated kind m data channels current n) := by
  obtain ⟨-, hid, hlive⟩ := liveRule_eq_some.mp hrule
  -- the row is saved with its new fields first
  let row := { rule with fields := setFields kind.updatable data rule.fields }
  have hrid : row.id = m := hid
  have hsaved : updatePolicyRule kind m data t = some (t.save row) := by
    rw [updatePolicyRule, hrule]
    rfl
  have hrow (n : ℕ) : liveRule (t.save row) n = (liveRule t n).map fun r =>
      if n = m then { r with fields := setFields kind.updatable data r.fields } else r := by
    rw [liveRule_save hrule hrid]
    by_cases hn : n = m
    · subst hn
      simp [hrule, hlive, row]
    · simp [hn]
  rw [writeRule, hsaved]
  refine ⟨_, rfl, fun n => ?_⟩
  -- the channels are replaced only where they change
  by_cases hsame : channels.getD current = current
  · rw [if_pos hsame, hrow]
    refine Option.map_congr fun r _ => ?_
    by_cases hn : n = m <;> simp [updated, hn, hsame]
  · rw [if_neg hsame, liveRule_replaceRuleChannels, hrow, Option.map_map]
    refine Option.map_congr fun r _ => ?_
    by_cases hn : n = m <;> simp [updated, hn, hsame]

/-- **A move** gives each rule the position that `movedTo` says. -/
theorem liveRule_moveRule (h : InOrder t) (hm : m ∈ liveIds t) (position : Option ℤ) (n : ℕ) :
    liveRule (moveRule m position t) n =
      (liveRule t n).map fun r => { r with position := movedTo t m position n } := by
  -- nothing is moved
  cases position with
  | none =>
    have hsame : ∀ r, liveRule t n = some r → r = { r with position := movedTo t m none n } := by
      intro r hr
      rw [movedTo, place_of_liveRule hr]
    rw [moveRule]
    exact Option.map_id'.symm.trans (Option.map_congr hsame)
  | some position =>
    have hmem : m ∈ ruleIds t := List.mem_toFinset.mp hm
    -- the list without the rule is that of the others
    have hfilter : (ruleIds t).filter (· ≠ m) = (ruleIds t).erase m := by
      rw [(nodup_ruleIds t).erase_eq_filter m]
      exact List.filter_congr fun x _ => by by_cases hx : x = m <;> simp [hx]
    have hlength : (((ruleIds t).filter (· ≠ m)).length : ℤ) + 1 = (liveIds t).card := by
      rw [hfilter, card_liveIds, ← List.length_erase_add_one hmem]
      rfl
    obtain ⟨hpos, hle⟩ := targetPosition_bounds (some position)
      (show (1 : ℤ) ≤ (liveIds t).card by omega)
    have hnot : m ∉ (ruleIds t).filter (· ≠ m) := by simp
    rw [moveRule]
    simp only [hlength]
    rw [liveRule_reorder_insertIdx ((nodup_ruleIds t).filter _) hnot hpos (by rwa [hlength])]
    refine Option.map_congr fun r hr => ?_
    -- the rule is put at the position, and the others close up and move up
    by_cases hn : n = m
    · simp [movedTo, hn]
    · have hn' : n ∈ (ruleIds t).filter (· ≠ m) := by
        simpa [hn] using mem_ruleIds.mpr ⟨r, hr⟩
      have herase : n ∈ (liveIds t).erase m :=
        Finset.mem_erase.mpr ⟨hn, mem_liveIds.mpr ⟨r, hr⟩⟩
      rw [if_neg hn, if_pos hn', placeIn_ruleIds_erase h hm herase]
      simp [movedTo, hn]

/-- **An update sets the fields and the channels of its rule, and moves it.** -/
theorem updateRule_spec (h : InOrder t) {rule : PolicyRule} (hrule : liveRule t m = some rule)
    (data : Dict) (channels : Option (List Id)) (current : List Id) (position : Option ℤ) :
    ∃ after, updateRule kind m data channels current position t = some after ∧
      ∀ n, liveRule after n = (liveRule t n).map fun r =>
        { updated kind m data channels current n r with position := movedTo t m position n } := by
  obtain ⟨written, hwritten, hlive⟩ := writeRule_spec kind hrule data channels current
  have hids : liveIds written = liveIds t := liveIds_eq_of_map hlive
  -- the write keeps the places, so the move is the same
  have hplace : ∀ n ∈ liveIds t, place written n = place t n := by
    intro n hn
    obtain ⟨r, hr⟩ := mem_liveIds.mp hn
    rw [place_of_map hlive hr, place_of_liveRule hr]
    rfl
  have hm : m ∈ liveIds t := mem_liveIds.mpr ⟨rule, hrule⟩
  have horder : InOrder written := by
    unfold InOrder
    rw [hids]
    exact h.congr fun n hn => (hplace n hn).symm
  refine ⟨moveRule m position written, by rw [updateRule, hwritten]; rfl, fun n => ?_⟩
  rw [liveRule_moveRule horder (hids ▸ hm), hlive, Option.map_map]
  refine Option.map_congr fun r hr => ?_
  have hn : n ∈ liveIds t := mem_liveIds.mpr ⟨r, hr⟩
  have hto : movedTo written m position n = movedTo t m position n := by
    unfold movedTo
    cases position <;> simp only [hids, hplace n hn, hplace m hm]
  simp only [Function.comp_apply, hto]

/-- **A delete takes its rule out, and the rules behind it close up.** -/
theorem deleteRule_spec (h : InOrder t) {rule : PolicyRule} (hrule : liveRule t m = some rule) :
    ∃ after, deleteRule m t = some after ∧
      ∀ n, liveRule after n =
        if n = m then none
        else (liveRule t n).map fun r =>
          { r with position := movedDown (place t m) (place t n) } := by
  obtain ⟨-, hid, -⟩ := liveRule_eq_some.mp hrule
  let row : PolicyRule := { rule with
    position := -rule.id, deleted := true, channels := []
    fields := rule.fields.set "enabled" (.bool false) }
  have hrid : row.id = m := hid
  have hsaved : softDeletePolicyRule m t = some (t.save row) := by
    rw [softDeletePolicyRule, hrule]
    rfl
  have hlive (n : ℕ) : liveRule (t.save row) n = if n = m then none else liveRule t n :=
    liveRule_save hrule hrid n
  -- the rule is marked as deleted, and only then are the others numbered
  have hids : liveIds (t.save row) = (liveIds t).erase m := by
    ext n
    rw [Finset.mem_erase, mem_liveIds, mem_liveIds, hlive]
    split_ifs with hn <;> simp [hn]
  have hplace : ∀ n, n ≠ m → place (t.save row) n = place t n := by
    intro n hn
    rw [place, place, hlive, if_neg hn]
  have hm : m ∈ liveIds t := mem_liveIds.mpr ⟨rule, hrule⟩
  -- those that are left have places of their own
  have hinj : Set.InjOn (place (t.save row)) (liveIds (t.save row)) := by
    rw [hids]
    intro x hx y hy hxy
    obtain ⟨hxm, hx⟩ := Finset.mem_erase.mp hx
    obtain ⟨hym, hy⟩ := Finset.mem_erase.mp hy
    rw [hplace x hxm, hplace y hym] at hxy
    exact h.injOn hx hy hxy
  -- and are listed in the order of their places
  have hpairwise : (ruleIds (t.save row)).Pairwise fun x y => place t x < place t y := by
    refine (pairwise_ruleIds hinj).imp_of_mem ?_
    intro x y hx hy hxy
    have hx : x ∈ (liveIds t).erase m := hids ▸ List.mem_toFinset.mpr hx
    have hy : y ∈ (liveIds t).erase m := hids ▸ List.mem_toFinset.mpr hy
    rwa [hplace x (Finset.ne_of_mem_erase hx), hplace y (Finset.ne_of_mem_erase hy)] at hxy
  refine ⟨reorderPolicyRules (ruleIds (t.save row)) (t.save row), by rw [deleteRule, hsaved]; rfl, ?_⟩
  intro n
  rw [liveRule_reorderPolicyRules (nodup_ruleIds _), hlive]
  by_cases hn : n = m
  · simp [hn]
  -- so each of them is numbered by those before it
  · rw [if_neg hn, if_neg hn]
    refine Option.map_congr fun r hr => ?_
    have herase : n ∈ (liveIds t).erase m := Finset.mem_erase.mpr ⟨hn, mem_liveIds.mpr ⟨r, hr⟩⟩
    have hmem : n ∈ liveIds (t.save row) := hids ▸ herase
    rw [if_pos (List.mem_toFinset.mp hmem), Numbered.placeIn_erase h hm hpairwise hids herase]

end IncidentRelay.Policies
