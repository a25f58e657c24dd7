import IncidentRelay.Orchestration.ControlLaw
import IncidentRelay.Orchestration.Extraction

/-!
# What a failed action leaves

`execute_actions` on the language of the evaluator: which failures are behind a write.
Three kinds of action write before they can fail (`set_grouping`, `set_custom_field` and an
extraction with several variables), and what they leave is the state they were run on exactly
where it had been there already (`steps_atomic_iff`).
-/

namespace IncidentRelay.Orchestration

open Json

/-! ## Groupings -/

section Bodies

variable {L : Language}

def writeDedup (s : EventActionState) (text : String) : EventActionState :=
  setEvent (setResult s fun r => { r with grouping := { r.grouping with dedupKey := some text } })
    "dedup_key" (.str text)

def writeGroup (s : EventActionState) (text : String) : EventActionState :=
  setEvent (setResult s fun r => { r with grouping := { r.grouping with groupKey := some text } })
    "group_key" (.str text)

/-- The dedup key of the grouping and of the event. -/
def HasDedup (s : EventActionState) (text : String) : Prop :=
  s.result.grouping.dedupKey = some text ∧ s.event.get "dedup_key" = some (.str text)

/-- The group key of the grouping and of the event. -/
def HasGroup (s : EventActionState) (text : String) : Prop :=
  s.result.grouping.groupKey = some text ∧ s.event.get "group_key" = some (.str text)

/-- A text of a grouping that may be missing. -/
def optionalText (L : Language) (s : EventActionState) (path key : String) :
    Option Json → Except PyError (Option String)
  | none => .ok none
  | some value => (groupingText L s path key value).map some

/-- What stands before the text that is refused is there already. -/
def HarmlessGrouping (L : Language) (s : EventActionState) (path : String) (g : GroupingAction) :
    Prop :=
  ∀ dedup, optionalText L s path "dedup_key" g.dedupKey = .ok dedup →
    (∀ text ∈ dedup, HasDedup s text) ∧
    ∀ group, optionalText L s path "group_key" g.groupKey = .ok group →
      ∀ text ∈ group, HasGroup s text

/-- A failure of the action leaves nothing. -/
def HarmlessBody (L : Language) (s : EventActionState) (path : String) : ActionBody → Prop
  | .setCustomField _ _ => s.event.has "custom_details" = true
  | .setGrouping g => HarmlessGrouping L s path g
  | _ => True

/-- Writing a key changes nothing where it is written already. -/
theorem writeDedup_eq_self_iff (s : EventActionState) (text : String) :
    writeDedup s text = s ↔ HasDedup s text := by
  constructor
  · intro h
    have hgrouping : (writeDedup s text).result.grouping.dedupKey = some text := rfl
    have hevent : (writeDedup s text).event.get "dedup_key" = some (.str text) :=
      Dict.get_set_self _ _ _
    rw [h] at hgrouping hevent
    exact ⟨hgrouping, hevent⟩
  · rintro ⟨hgrouping, hevent⟩
    unfold writeDedup setEvent setResult
    dsimp only
    rw [(Dict.set_eq_self_iff _ _ _).mpr hevent, ← hgrouping]

theorem writeGroup_eq_self_iff (s : EventActionState) (text : String) :
    writeGroup s text = s ↔ HasGroup s text := by
  constructor
  · intro h
    have hgrouping : (writeGroup s text).result.grouping.groupKey = some text := rfl
    have hevent : (writeGroup s text).event.get "group_key" = some (.str text) :=
      Dict.get_set_self _ _ _
    rw [h] at hgrouping hevent
    exact ⟨hgrouping, hevent⟩
  · rintro ⟨hgrouping, hevent⟩
    unfold writeGroup setEvent setResult
    dsimp only
    rw [(Dict.set_eq_self_iff _ _ _).mpr hevent, ← hgrouping]

/-- The group key is written to fields of its own. -/
theorem hasDedup_writeGroup (s : EventActionState) (group text : String) :
    HasDedup (writeGroup s group) text ↔ HasDedup s text := by
  unfold HasDedup
  rw [show (writeGroup s group).event.get "dedup_key" = s.event.get "dedup_key" from
    Dict.get_set_of_ne _ _ (by decide)]
  rfl

/-- Writes a text, when there is one. -/
def writeText (write : EventActionState → String → EventActionState) (s : EventActionState) :
    Option String → EventActionState
  | none => s
  | some text => write s text

theorem writeText_eq_self_iff {write : EventActionState → String → EventActionState}
    {Has : EventActionState → String → Prop} (h : ∀ s text, write s text = s ↔ Has s text)
    (s : EventActionState) (value : Option String) :
    writeText write s value = s ↔ ∀ text ∈ value, Has s text := by
  cases value with
  | none => simp [writeText]
  | some text => simp [writeText, h]

/-- A step behind one that succeeded writes what it renders. -/
theorem groupingStep_ok (path key : String) (value : Option Json)
    (write : EventActionState → String → EventActionState) (s : EventActionState)
    (outcome : Outcome) :
    groupingStep L path key value write (s, .ok outcome) =
      match optionalText L s path key value with
      | .ok text => (writeText write s text, .ok outcome)
      | .error e => (s, .error e) := by
  cases value with
  | none => rfl
  | some v =>
    unfold groupingStep optionalText withValue
    dsimp only
    cases groupingText L s path key v <;> rfl

/-- Where a grouping fails: at its first, second or third text. -/
inductive GroupingFails (L : Language) (s : EventActionState) (path : String)
    (g : GroupingAction) : EventActionState → Prop where
  | dedup {e : PyError} : optionalText L s path "dedup_key" g.dedupKey = .error e →
      GroupingFails L s path g s
  | group {dedup : Option String} {e : PyError} :
      optionalText L s path "dedup_key" g.dedupKey = .ok dedup →
      optionalText L (writeText writeDedup s dedup) path "group_key" g.groupKey = .error e →
      GroupingFails L s path g (writeText writeDedup s dedup)
  | strategy {dedup group : Option String} :
      optionalText L s path "dedup_key" g.dedupKey = .ok dedup →
      optionalText L (writeText writeDedup s dedup) path "group_key" g.groupKey = .ok group →
      GroupingFails L s path g (writeText writeGroup (writeText writeDedup s dedup) group)

def writeStrategy (s : EventActionState) (text : String) : EventActionState :=
  setResult s fun r => { r with grouping := { r.grouping with strategy := some text } }

/-- The windows, which cannot fail. -/
def writeWindows (g : GroupingAction) : Effect → Effect
  | (s, .error e) => (s, .error e)
  | (s, .ok outcome) =>
    (setResult s fun r => { r with grouping := { r.grouping with
      windowSeconds := g.windowSeconds <|> r.grouping.windowSeconds
      reopenWindowSeconds := g.reopenWindowSeconds <|> r.grouping.reopenWindowSeconds } },
      .ok outcome)

/-- A grouping is its steps, one after the other. -/
theorem executeGrouping_eq (s : EventActionState) (path : String) (g : GroupingAction) :
    executeGrouping L s path g =
      writeWindows g (groupingStep L path "strategy" g.strategy writeStrategy
        (groupingStep L path "group_key" g.groupKey writeGroup
          (groupingStep L path "dedup_key" g.dedupKey writeDedup (s, .ok .continue)))) := rfl

/-- Where a grouping failed, its steps before are written. -/
theorem executeGrouping_fails {s : EventActionState} {path : String} {g : GroupingAction}
    {e : PyError} (h : (executeGrouping L s path g).2 = .error e) :
    GroupingFails L s path g (executeGrouping L s path g).1 := by
  rw [executeGrouping_eq, groupingStep_ok] at h ⊢
  -- the texts are evaluated in the order in which they are written: each may fail behind the
  -- writes before it
  cases hdedup : optionalText L s path "dedup_key" g.dedupKey with
  | error refused => exact .dedup hdedup
  | ok dedup =>
    rw [hdedup] at h
    dsimp only at h ⊢
    rw [groupingStep_ok] at h ⊢
    cases hgroup : optionalText L (writeText writeDedup s dedup) path "group_key" g.groupKey with
    | error refused => exact .group hdedup hgroup
    | ok group =>
      rw [hgroup] at h
      dsimp only at h ⊢
      rw [groupingStep_ok] at h ⊢
      cases hstrategy : optionalText L (writeText writeGroup (writeText writeDedup s dedup) group)
          path "strategy" g.strategy with
      | error refused => exact .strategy hdedup hgroup
      | ok strategy =>
        rw [hstrategy] at h
        cases h

/-- The dedup key is what stands between the two writes. -/
theorem writeDedup_of_both {s : EventActionState} {dedup group : Option String}
    (h : writeText writeGroup (writeText writeDedup s dedup) group = s) :
    writeText writeDedup s dedup = s := by
  rw [writeText_eq_self_iff writeDedup_eq_self_iff]
  rintro text rfl
  cases group with
  | none => exact (writeDedup_eq_self_iff s text).mp h
  | some key =>
    have hwritten : HasDedup (writeDedup s text) text := ⟨rfl, Dict.get_set_self _ _ _⟩
    have hbehind := (hasDedup_writeGroup _ key _).mpr hwritten
    exact h ▸ hbehind

/-- **A grouping that failed leaves nothing** exactly when what it wrote before was written
already. -/
theorem grouping_leaves_iff {s : EventActionState} {path : String} {g : GroupingAction}
    {e : PyError} (h : (executeGrouping L s path g).2 = .error e) :
    (executeGrouping L s path g).1 = s ↔ HarmlessGrouping L s path g := by
  have hfails := executeGrouping_fails h
  generalize (executeGrouping L s path g).1 = t at hfails
  cases hfails with
  -- nothing is written yet
  | dedup hdedup =>
    refine iff_of_true rfl fun dedup hok => ?_
    cases hdedup.symm.trans hok
  -- the deduplication key is written, which may be no change
  | @group dedup refused hdedup hgroup =>
    rw [writeText_eq_self_iff writeDedup_eq_self_iff]
    constructor
    · intro hthere other hother
      cases hdedup.symm.trans hother
      refine ⟨hthere, fun group hok => ?_⟩
      rw [(writeText_eq_self_iff writeDedup_eq_self_iff s dedup).mpr hthere] at hgroup
      cases hgroup.symm.trans hok
    · intro hharmless
      exact (hharmless dedup hdedup).1
  -- both keys are written
  | @strategy dedup group hdedup hgroup =>
    constructor
    · intro heq other hother
      cases hdedup.symm.trans hother
      have hfirst := writeDedup_of_both heq
      rw [hfirst] at heq hgroup
      refine ⟨(writeText_eq_self_iff writeDedup_eq_self_iff s dedup).mp hfirst, fun key hok => ?_⟩
      cases hgroup.symm.trans hok
      exact (writeText_eq_self_iff writeGroup_eq_self_iff s group).mp heq
    · intro hharmless
      obtain ⟨hthere, hbehind⟩ := hharmless dedup hdedup
      have hfirst := (writeText_eq_self_iff writeDedup_eq_self_iff s dedup).mpr hthere
      rw [hfirst] at hgroup ⊢
      exact (writeText_eq_self_iff writeGroup_eq_self_iff s group).mpr (hbehind group hgroup)

/-! ## The other actions -/

/-- What fails to render writes nothing. -/
theorem withValue_fails {α : Type} {s : EventActionState} {value : Except PyError α}
    {write : α → EventActionState} {outcome : Outcome} {e : PyError}
    (h : (withValue s value write outcome).2 = .error e) :
    (withValue s value write outcome).1 = s := by
  cases value with
  | ok v => cases h
  | error refused => rfl

/-- A default changes nothing where the key is there. -/
theorem setdefault_eq_self_iff (d : Dict) (key : String) (value : Json) :
    d.setdefault key value = d ↔ d.has key = true := by
  unfold Dict.setdefault
  split
  · next hhas => exact iff_of_true rfl hhas
  · next hmissing =>
    refine iff_of_false (fun h => hmissing ?_) hmissing
    have hget := (Dict.set_eq_self_iff d key value).mp h
    obtain ⟨kv, hfind, -⟩ := Option.map_eq_some_iff.mp hget
    exact List.any_eq_true.mpr ⟨kv, List.mem_of_find?_eq_some hfind,
      @List.find?_some _ (fun kv : String × Json => kv.1 == key) _ _ hfind⟩

/-- The event with custom details. -/
def withDetails (s : EventActionState) : EventActionState :=
  { s with event := s.event.setdefault "custom_details" (.obj []) }

theorem withDetails_eq_self_iff (s : EventActionState) :
    withDetails s = s ↔ s.event.has "custom_details" = true := by
  rw [← setdefault_eq_self_iff s.event "custom_details" (.obj [])]
  constructor
  · intro h
    exact congrArg EventActionState.event h
  · intro h
    unfold withDetails
    rw [h]

/-- A failure behind them leaves what was made. -/
theorem withCustomDetails_fails {s : EventActionState} {f : EventActionState → Dict → Effect}
    {e : PyError}
    (hf : ∀ details, (f (withDetails s) details).2 = .error e →
      (f (withDetails s) details).1 = withDetails s)
    (h : (withCustomDetails s f).2 = .error e) : (withCustomDetails s f).1 = withDetails s := by
  unfold withCustomDetails at h ⊢
  dsimp only at h ⊢
  split
  · next details hdetails =>
    rw [hdetails] at h
    exact hf details h
  · rfl

/-- Details that are made are an object. -/
theorem remove_fails {s : EventActionState} {name : String} {e : PyError}
    (h : (withCustomDetails s fun s details =>
      (setEvent s "custom_details" (.obj (details.pop name)), .ok .continue)).2 = .error e) :
    s.event.has "custom_details" = true := by
  by_contra hmissing
  unfold withCustomDetails Dict.setdefault at h
  rw [if_neg hmissing] at h
  dsimp only at h
  rw [show (s.event.set "custom_details" (.obj [])).getD "custom_details" = .obj [] by
    simp [Dict.getD]] at h
  cases h

/-- Each kind of action, in the state that its failure leaves. -/
theorem action_leaves_iff {s : EventActionState} {path : String} {body : ActionBody}
    {e : PyError} (h : (executeAction L s path body).2 = .error e) :
    (executeAction L s path body).1 = s ↔ HarmlessBody L s path body := by
  -- most actions evaluate before they write; a group of fields may be written in part
  cases body with
  | setText field source => exact iff_of_true (withValue_fails h) trivial
  | setEventAction source => exact iff_of_true (withValue_fails h) trivial
  | setTraceLevel level => cases h
  | setAlertEventHistory level => cases h
  | setLabel name source =>
    refine iff_of_true ?_ trivial
    rw [executeAction] at h ⊢
    split
    · rfl
    -- a label is evaluated only where there is room for it
    · next hroom =>
      rw [if_neg hroom] at h
      exact withValue_fails h
  | removeLabel name => cases h
  | setCustomField name source =>
    rw [executeAction] at h ⊢
    rw [withCustomDetails_fails (fun details hvalue => withValue_fails hvalue) h]
    exact withDetails_eq_self_iff s
  | removeCustomField name =>
    rw [executeAction] at h ⊢
    rw [withCustomDetails_fails (by simp) h]
    exact iff_of_true ((withDetails_eq_self_iff s).mpr (remove_fails h)) trivial
  | setRouting target id => cases h
  | setPolicy kind id => cases h
  | setGrouping g => exact grouping_leaves_iff h
  | addNote source => exact iff_of_true (withValue_fails h) trivial
  | enqueueWebhook actionId => cases h
  | suppress reason => exact iff_of_true (withValue_fails h) trivial
  | pause seconds retrigger reason => exact iff_of_true (withValue_fails h) trivial
  | drop reason => exact iff_of_true (withValue_fails h) trivial

end Bodies

/-! ## Extractions -/

/-- The variable has room, and a value that is allowed. -/
def accepts (vars : Dict) (kv : String × Json) : Bool :=
  (setVariable vars kv.1 kv.2).toOption.isSome

/-- A variable that is accepted is set. -/
theorem setVariable_eq_ok {vars after : Dict} {name : String} {value : Json}
    (h : setVariable vars name value = .ok after) : after = vars.set name value := by
  unfold setVariable at h
  split at h
  · cases h
  · unfold boundedValue at h
    split_ifs at h with hfinite hsize
    · cases h
    · cases h
    · cases h
      rfl

/-- What is set afterwards has other names. -/
theorem setVariables_get_of_notMem {name : String} : ∀ {produced : List (String × Json)}
    (vars : Dict), name ∉ produced.map Prod.fst →
      (setVariables vars produced).1.get name = vars.get name
  | [], _, _ => rfl
  | (other, value) :: rest, vars, hname => by
    rw [List.map_cons, List.mem_cons, not_or] at hname
    rw [setVariables]
    split
    · rfl
    · next after hset =>
      rw [setVariables_get_of_notMem after hname.2, setVariable_eq_ok hset,
        Dict.get_set_of_ne _ _ hname.1]

/-- By induction on what was produced: a variable that is accepted is set for good. -/
theorem setVariables_leaves_iff {e : PyError} : ∀ {produced : List (String × Json)} {vars : Dict},
    (produced.map Prod.fst).Nodup → (setVariables vars produced).2 = .error e →
      ((setVariables vars produced).1 = vars ↔
        ∀ kv ∈ produced.takeWhile (accepts vars), vars.get kv.1 = some kv.2)
  | [], _, _, h => by cases h
  | (name, value) :: rest, vars, hnodup, h => by
    rw [List.map_cons, List.nodup_cons] at hnodup
    rw [setVariables] at h ⊢
    cases hset : setVariable vars name value with
    | error refused =>
      have hrefused : accepts vars (name, value) = false := by simp [accepts, hset, Except.toOption]
      simp [hrefused]
    | ok after =>
      rw [hset] at h
      dsimp only at h ⊢
      have haccepted : accepts vars (name, value) = true := by simp [accepts, hset, Except.toOption]
      rw [List.takeWhile_cons, if_pos haccepted, List.forall_mem_cons]
      have hafter := setVariable_eq_ok hset
      have hlater := setVariables_get_of_notMem after hnodup.1
      constructor
      · intro heq
        -- the later variables leave the value that was set
        have hthere : vars.get name = some value := by
          rw [← heq, hlater, hafter, Dict.get_set_self]
        have hsame : after = vars := hafter.trans ((Dict.set_eq_self_iff _ _ _).mpr hthere)
        rw [hsame] at h heq
        exact ⟨hthere, (setVariables_leaves_iff hnodup.2 h).mp heq⟩
      · rintro ⟨hthere, hrest⟩
        have hsame : after = vars := hafter.trans ((Dict.set_eq_self_iff _ _ _).mpr hthere)
        rw [hsame] at h ⊢
        exact (setVariables_leaves_iff hnodup.2 h).mpr hrest

section Extractions

variable {lib : PyLibrary} {render : String → Context → Except PyError String}

/-- A match sets each variable once. -/
theorem produceMatch_nodup {m : RegexMatch} {target : Option String}
    {group : Option (Option GroupRef)} {produced : List (String × Json)}
    (h : produceMatch m target group = .ok produced) : (produced.map Prod.fst).Nodup := by
  unfold produceMatch at h
  split at h
  · dsimp only at h
    split at h
    · cases h
    · cases h
      exact List.nodup_singleton _
  · split at h
    · cases h
    · cases h
      rw [List.map_map]
      exact m.distinct

/-- The names of what an extractor produces are distinct. -/
theorem produce_nodup {c : Context} {x : Extraction} {produced : List (String × Json)}
    (h : produce lib render c x = .ok produced) : (produced.map Prod.fst).Nodup := by
  cases x with
  | regex source pattern target group =>
    rw [produce] at h
    obtain ⟨value, -, h⟩ := bind_eq_ok.mp h
    dsimp only at h
    split at h
    · cases h
    · cases h
    · exact produceMatch_nodup h
  | copyField source target =>
    rw [produce] at h
    obtain ⟨value, -, h⟩ := bind_eq_ok.mp h
    cases h
    exact List.nodup_singleton _
  | jsonPath source path target =>
    rw [produce] at h
    obtain ⟨value, -, h⟩ := bind_eq_ok.mp h
    obtain ⟨found, -, h⟩ := bind_eq_ok.mp h
    cases h
    exact List.nodup_singleton _
  | splitTargets source delimiter targets distinct =>
    rw [produce] at h
    obtain ⟨text, -, h⟩ := bind_eq_ok.mp h
    obtain ⟨parts, -, h⟩ := bind_eq_ok.mp h
    split at h
    · cases h
    · next hparts =>
      cases h
      -- there is a part for every target
      rw [List.map_fst_zip (by simpa using hparts)]
      exact distinct
  | splitIndex source delimiter index target =>
    rw [produce] at h
    obtain ⟨text, -, h⟩ := bind_eq_ok.mp h
    obtain ⟨parts, -, h⟩ := bind_eq_ok.mp h
    split at h
    · cases h
    · cases h
      exact List.nodup_singleton _
  | setVariable value target =>
    by_cases htext : ∃ text, value = .str text
    · obtain ⟨text, rfl⟩ := htext
      rw [produce] at h
      split at h
      all_goals
        obtain ⟨rendered, -, h⟩ := bind_eq_ok.mp h
        cases h
        exact List.nodup_singleton _
    · rw [produce] at h
      · cases h
        exact List.nodup_singleton _
      · exact fun text heq => htext ⟨text, heq⟩
  | transform kind source target =>
    rw [produce] at h
    obtain ⟨text, -, h⟩ := bind_eq_ok.mp h
    cases h
    exact List.nodup_singleton _

/-- The variables that were set before the one that is refused are there already. -/
def HarmlessExtraction (lib : PyLibrary) (render : String → Context → Except PyError String)
    (s : EventActionState) (x : Extractor) : Prop :=
  checkVariables s.vars = .ok () →
    ∀ produced, produce lib render s.context x.extraction = .ok produced →
      ∀ kv ∈ produced.takeWhile (accepts s.vars), s.vars.get kv.1 = some kv.2

/-- The state that an extraction leaves. -/
theorem extraction_leaves_iff {s : EventActionState} {x : Extractor} {vars : Dict}
    (h : extractStep lib render s.context x s.vars = .ok (vars, false)) :
    vars = s.vars ↔ HarmlessExtraction lib render s x := by
  unfold HarmlessExtraction
  unfold extractStep at h
  split at h
  · cases h
  next hvars =>
  split at h
  · cases h
  · next hproduce =>
    -- nothing was produced
    cases h
    refine iff_of_true rfl fun _ produced hok => ?_
    cases hproduce.symm.trans hok
  · next produced hproduce =>
    split at h
    · cases h
    · next t e hset =>
      cases h
      have hleaves := setVariables_leaves_iff (produce_nodup hproduce) (congrArg Prod.snd hset)
      rw [show (setVariables s.vars produced).1 = vars from congrArg Prod.fst hset] at hleaves
      rw [hleaves]
      constructor
      · intro hthere _ other hok
        cases hproduce.symm.trans hok
        exact hthere
      · intro hharmless
        exact hharmless hvars produced hproduce

/-- An extraction that raises has produced nothing. -/
theorem harmless_of_raise {s : EventActionState} {x : Extractor} {e : PyError}
    (h : extractStep lib render s.context x s.vars = .error e) :
    HarmlessExtraction lib render s x := by
  intro hvars produced hproduce
  unfold extractStep at h
  rw [hvars] at h
  dsimp only at h
  rw [show ({ s.context with vars := s.vars } : Context) = s.context from rfl, hproduce] at h
  dsimp only at h
  split at h <;> cases h

end Extractions

/-! ## Steps -/

section Steps

variable (lib : PyLibrary) (render : String → Context → Except PyError String)

/-- A failure of the step leaves nothing. -/
def HarmlessStep (s : EventActionState) (ran : ActionStep (evaluatorLanguage lib render)) : Prop :=
  match ran.action with
  | .extract extractor => HarmlessExtraction lib render s extractor
  | .run body _ =>
    HarmlessBody (evaluatorLanguage lib render) s ("actions[" ++ toString ran.index ++ "]") body

variable {lib : PyLibrary} {render : String → Context → Except PyError String}

/-- **A failed step leaves nothing, if and only if it is harmless**: one case for each action.
-/
theorem step_leaves_iff {s : EventActionState} {ran : ActionStep (evaluatorLanguage lib render)}
    (h : ran.succeeds s = false) : ran.effect s = s ↔ HarmlessStep lib render s ran := by
  obtain ⟨index, action, success, outcome⟩ := ran
  cases action with
  | extract extractor =>
    -- an extractor that raises binds nothing, one that finds nothing its defaults
    cases hextract : extractStep lib render s.context extractor s.vars with
    | error e =>
      refine iff_of_true ?_ (harmless_of_raise hextract)
      simp [ActionStep.effect, evaluatorLanguage, hextract, Except.map]
    | ok extracted =>
      obtain ⟨vars, succeeded⟩ := extracted
      have hfailed : succeeded = false := by
        simpa [ActionStep.succeeds, evaluatorLanguage, hextract, Except.toOption] using h
      subst hfailed
      have heffect : ActionStep.effect (L := evaluatorLanguage lib render)
          ⟨index, .extract extractor, success, outcome⟩ s = { s with vars := vars } := by
        simp [ActionStep.effect, evaluatorLanguage, hextract, Except.map]
      rw [heffect]
      refine Iff.trans ?_ (extraction_leaves_iff hextract)
      constructor
      · intro heq
        exact congrArg EventActionState.vars heq
      · rintro rfl
        rfl
  -- an action that fails may have written
  | run body onFailure =>
    cases hresult : (executeAction (evaluatorLanguage lib render) s
        ("actions[" ++ toString index ++ "]") body).2 with
    | ok ending =>
      have hsucceeds : ActionStep.succeeds (L := evaluatorLanguage lib render)
          ⟨index, .run body onFailure, success, outcome⟩ s = true :=
        congrArg Except.isOk hresult
      rw [hsucceeds] at h
      cases h
    | error e => exact action_leaves_iff hresult

/-- The kinds of action that write before they can fail. -/
def ActionBody.writesEarly : ActionBody → Bool
  | .setCustomField _ _ => true
  | .setGrouping _ => true
  | _ => false

@[inherit_doc ActionBody.writesEarly]
def Action.writesEarly {L : Language} : Action L → Bool
  | .extract _ => true
  | .run body _ => body.writesEarly

/-- An action of any other kind computes everything before its first write. -/
theorem harmless_of_late (s : EventActionState)
    {ran : ActionStep (evaluatorLanguage lib render)} (h : ran.action.writesEarly = false) :
    HarmlessStep lib render s ran := by
  obtain ⟨index, action, success, outcome⟩ := ran
  cases action with
  | extract extractor => cases h
  | run body onFailure =>
    cases body with
    | setCustomField name value => cases h
    | setGrouping grouping => cases h
    | _ => trivial

/-! ## Runs of a list of actions -/

/-- The state after the first steps. -/
def stateAfter {L : Language} (s : EventActionState) (steps : List (ActionStep L)) :
    EventActionState :=
  steps.foldl (fun s ran => ran.effect s) s

/-- Every failed step leaves the state before it, and the last state is the fold of the
successful steps. -/
structure Atomic {L : Language} (s : EventActionState) (steps : List (ActionStep L))
    (t : EventActionState) : Prop where
  failed : ∀ before ran after, steps = before ++ ran :: after → ran.success = false →
    stateAfter s (before ++ [ran]) = stateAfter s before
  folded : t = stateAfter s (steps.filter (·.success))

/-- The state after the steps is that of their log. -/
theorem stateAfter_eq_replay {L : Language} (path : String) (s : EventActionState)
    (steps : List (ActionStep L)) : stateAfter s steps = replay s (stepEntries path steps) := by
  unfold stateAfter replay stepEntries
  rw [List.foldl_map]
  rfl

/-- By induction on the steps, from the front. -/
theorem folded_of_failed {L : Language} {s : EventActionState} {steps : List (ActionStep L)}
    (h : ∀ before ran after, steps = before ++ ran :: after → ran.success = false →
      stateAfter s (before ++ [ran]) = stateAfter s before) :
    stateAfter s steps = stateAfter s (steps.filter (·.success)) := by
  induction steps generalizing s with
  | nil => rfl
  | cons ran rest ih =>
    have hrest : stateAfter (ran.effect s) rest =
        stateAfter (ran.effect s) (rest.filter (·.success)) := by
      refine ih fun before other after heq hfailed => ?_
      exact h (ran :: before) other after (congrArg (ran :: ·) heq) hfailed
    -- a step that failed is left out, and it left nothing
    cases hsuccess : ran.success with
    | true =>
      rw [List.filter_cons_of_pos hsuccess]
      exact hrest
    | false =>
      rw [List.filter_cons_of_neg (by simp [hsuccess])]
      have hleft : ran.effect s = s := h [] ran rest rfl hsuccess
      rw [hleft] at hrest
      show stateAfter (ran.effect s) rest = _
      rw [hleft]
      exact hrest

/-- **The steps of a list of actions are atomic exactly when no action fails behind a write
that changes something.** -/
theorem steps_atomic_iff {index : ℕ} {s t : EventActionState}
    {actions : List (Action (evaluatorLanguage lib render))}
    {steps : List (ActionStep (evaluatorLanguage lib render))} {outcome : Outcome}
    (h : traceActions (evaluatorLanguage lib render) index s actions = .ok (steps, t, outcome)) :
    Atomic s steps t ↔
      ∀ before ran after, steps = before ++ ran :: after → ran.success = false →
        HarmlessStep lib render (stateAfter s before) ran := by
  have hlogged := traceActions_logged "" h
  have hlast : t = stateAfter s steps := by rw [stateAfter_eq_replay "", hlogged.replayed]
  -- a step is reported for what it does at the state before it
  have hstep : ∀ before ran after, steps = before ++ ran :: after → ran.success = false →
      (stateAfter s (before ++ [ran]) = stateAfter s before ↔
        HarmlessStep lib render (stateAfter s before) ran) := by
    intro before ran after heq hfailed
    have hholds : ran.success = ran.succeeds (replay s (stepEntries "" before)) :=
      hlogged.sees (stepEntries "" before) (.step "" ran) (stepEntries "" after) (by
        simp [heq, stepEntries])
    rw [← stateAfter_eq_replay, hfailed] at hholds
    rw [← step_leaves_iff hholds.symm]
    unfold stateAfter
    rw [List.foldl_append]
    rfl
  constructor
  · intro hatomic before ran after heq hfailed
    exact (hstep before ran after heq hfailed).mp (hatomic.failed before ran after heq hfailed)
  · intro hharmless
    have hfailed : ∀ before ran after, steps = before ++ ran :: after → ran.success = false →
        stateAfter s (before ++ [ran]) = stateAfter s before := by
      intro before ran after heq hfailed
      exact (hstep before ran after heq hfailed).mpr (hharmless before ran after heq hfailed)
    exact ⟨hfailed, hlast.trans (folded_of_failed hfailed)⟩

/-! ## Runs of a tree of rules -/

/-- **The control law holds, with the state at every point as the fold of the successful
actions before it, exactly when no action fails behind a write that changes something.** -/
theorem control_law_iff {defaultHistory : HistoryLevel}
    {rules : List (Rule (evaluatorLanguage lib render))} {context : Context} {s : EventActionState}
    {r : OrchestrationExecutionResult (evaluatorLanguage lib render)}
    (h : Evaluates defaultHistory rules context s r) :
    ControlLaw rules s r ∧ FoldsSuccesses s (logs r.rules) ↔
      ∀ before path ran after, logs r.rules = before ++ .step path ran :: after →
        ran.success = false → HarmlessStep lib render (replay s before) ran := by
  have hlaw := control_law h
  -- a step is reported for what it does at the state before it
  have hstep : ∀ before path ran after, logs r.rules = before ++ .step path ran :: after →
      ran.success = false →
      (ran.effect (replay s before) = replay s before ↔
        HarmlessStep lib render (replay s before) ran) := by
    intro before path ran after heq hfailed
    have hholds : ran.success = ran.succeeds (replay s before) :=
      hlaw.sees before (.step path ran) after heq
    rw [hfailed] at hholds
    exact step_leaves_iff hholds.symm
  rw [foldsSuccesses_iff]
  constructor
  · rintro ⟨-, hleave⟩ before path ran after heq hfailed
    exact (hstep before path ran after heq hfailed).mp (hleave before path ran after heq hfailed)
  · intro hharmless
    refine ⟨hlaw, fun before path ran after heq hfailed => ?_⟩
    exact (hstep before path ran after heq hfailed).mpr
      (hharmless before path ran after heq hfailed)

end Steps

/-! ## A grouping that fails half way -/

/-- A library without patterns. -/
def plainLibrary : PyLibrary where
  re := plainRe
  floats := plainFloats
  find _ _ := none
  lower text := text
  upper text := text
  unicodeEscape text := some text

def plainRender (text : String) (_ : Context) : Except PyError String := .ok text

/-- The language of the evaluator over these. -/
abbrev plainEvaluator : Language := evaluatorLanguage plainLibrary plainRender

/-- A dedup key, and an empty group key, which is not allowed. -/
def halfGrouping : GroupingAction where
  dedupKey := some (.str "disk")
  groupKey := some (.str "")

def wholeGrouping : GroupingAction where
  dedupKey := some (.str "disk")
  groupKey := some (.str "storage")

/-- An action that is refused before it writes: the event has no such field. -/
def missingTitle : Action plainEvaluator :=
  .run (.setText .title (.valueFrom "event.summary")) .continue

def setGroupingOf (grouping : GroupingAction) : Action plainEvaluator :=
  .run (.setGrouping grouping) .continue

def present (field : String) : Json :=
  .obj [("field", .str field), ("operator", .str "exists")]

def groupingRule (grouping : GroupingAction) : Rule plainEvaluator :=
  .mk true .continue (present "event.title") [missingTitle, setGroupingOf grouping] []

/-- A rule for events that have a dedup key. -/
def escalatingRule : Rule plainEvaluator :=
  .mk true .continue (present "event.dedup_key")
    [.run (.setText .severity (.value (.str "critical"))) .continue] []

/-- The step is recorded as a failure, and the dedup key stays. -/
theorem failed_grouping_writes :
    ∃ r, Evaluates .full [groupingRule halfGrouping] bareContext bareState r ∧
      ¬(ControlLaw [groupingRule halfGrouping] bareState r ∧
        FoldsSuccesses bareState (logs r.rules)) := by
  obtain ⟨r, hr, hkeys⟩ := evaluates_bare [groupingRule halfGrouping] (.str "disk", .null)
    (fun r => (r.state.event.getD "dedup_key",
      (replaySuccessful bareState (logs r.rules)).event.getD "dedup_key")) (by decide +kernel)
  refine ⟨r, hr, ?_⟩
  rintro ⟨hlaw, hfolds⟩
  have hfinal := hfolds (logs r.rules) [] (List.append_nil _).symm
  rw [← hlaw.replayed] at hfinal
  have hboth := (congrArg Prod.fst hkeys).symm.trans
    ((congrArg (fun s => s.event.getD "dedup_key") hfinal).trans (congrArg Prod.snd hkeys))
  cases hboth

/-- The entry is no failure of an action that writes early. -/
def Entry.late {L : Language} : Entry L → Bool
  | .step _ ran => ran.success || !ran.action.writesEarly
  | _ => true

/-- The refused title leaves nothing, and the second rule sees the key that the first sets. -/
theorem control_law_sample :
    ∃ r, Evaluates .full [groupingRule wholeGrouping, escalatingRule] bareContext bareState r ∧
      (logs r.rules).any
        (fun e => match e with | .step _ ran => !ran.success | _ => false) = true ∧
      r.state.event.getD "severity" = .str "critical" ∧
      ControlLaw [groupingRule wholeGrouping, escalatingRule] bareState r ∧
      FoldsSuccesses bareState (logs r.rules) := by
  obtain ⟨r, hr, hread⟩ := evaluates_bare [groupingRule wholeGrouping, escalatingRule]
    (true, Json.str "critical", true)
    (fun r => ((logs r.rules).any
        (fun e => match e with | .step _ ran => !ran.success | _ => false),
      r.state.event.getD "severity", (logs r.rules).all Entry.late)) (by decide +kernel)
  obtain ⟨hfails, hrest⟩ := Prod.mk.inj hread
  obtain ⟨hseverity, hlate⟩ := Prod.mk.inj hrest
  refine ⟨r, hr, hfails, hseverity, (control_law_iff hr).mpr ?_⟩
  intro before path ran after heq hfailed
  have hentry := List.all_eq_true.mp hlate (.step path ran) (by simp [heq])
  refine harmless_of_late _ ?_
  simpa [Entry.late, hfailed] using hentry

def groupingSteps (grouping : GroupingAction) :
    Except PyError (List (ActionStep plainEvaluator) × EventActionState × Outcome) :=
  traceActions plainEvaluator 0 bareState [missingTitle, setGroupingOf grouping]

/-- The title is refused, then both keys are set. -/
theorem grouping_atomic : ∃ steps t outcome,
    groupingSteps wholeGrouping = .ok (steps, t, outcome) ∧
    steps.map (·.success) = [false, true] ∧ t.event.getD "group_key" = .str "storage" ∧
    Atomic bareState steps t := by
  obtain ⟨⟨steps, t, outcome⟩, hrun, hread⟩ : ∃ r, groupingSteps wholeGrouping = .ok r ∧
      decide (r.1.map (·.success) = [false, true] ∧
        r.2.1.event.getD "group_key" = .str "storage" ∧
        r.1.all (fun ran => ran.success || !ran.action.writesEarly) = true) = true :=
    ok_of_any (by decide +kernel)
  obtain ⟨hsuccesses, hkey, hlate⟩ := of_decide_eq_true hread
  refine ⟨steps, t, outcome, hrun, hsuccesses, hkey, (steps_atomic_iff hrun).mpr ?_⟩
  intro before ran after heq hfailed
  have hran := List.all_eq_true.mp hlate ran (by simp [heq])
  refine harmless_of_late _ ?_
  simpa [hfailed] using hran

/-- **The dedup key is written, the group key is refused: the step is reported as failed.** -/
theorem failed_grouping_not_atomic : ¬∀ (lib : PyLibrary)
    (render : String → Context → Except PyError String) (index : ℕ) (s t : EventActionState)
    (actions : List (Action (evaluatorLanguage lib render)))
    (steps : List (ActionStep (evaluatorLanguage lib render))) (outcome : Outcome),
    traceActions (evaluatorLanguage lib render) index s actions = .ok (steps, t, outcome) →
      Atomic s steps t := by
  intro h
  obtain ⟨⟨steps, t, outcome⟩, hrun, hread⟩ :
      ∃ r, groupingSteps halfGrouping = .ok r ∧
        (r.1.all (!·.success) && r.2.1.event.getD "dedup_key" = .str "disk") = true :=
    ok_of_any (by decide +kernel)
  obtain ⟨hfailures, hkey⟩ := Bool.and_eq_true_iff.mp hread
  replace hkey := of_decide_eq_true hkey
  -- no step succeeded, yet the key is another one
  have hfolded := (h plainLibrary plainRender 0 bareState t _ steps outcome hrun).folded
  have hnone : steps.filter (·.success) = [] := by
    refine List.filter_eq_nil_iff.mpr fun ran hran hsuccess => ?_
    have hfailed := List.all_eq_true.mp hfailures ran hran
    rw [hsuccess] at hfailed
    cases hfailed
  rw [hnone] at hfolded
  rw [hfolded] at hkey
  cases hkey

end IncidentRelay.Orchestration
