import IncidentRelay.Integrations.Payload
import IncidentRelay.Routing.Matchers

/-!
# The entries of a matcher

A matcher stands for the conjunction of its entries: each key, label and field with each
operator of its value. The code reads one operator of a value, lets a flat key take the place of
a label, and passes by what it does not know.

 * `matchAlert_iff`: the alert has to match the entries that are kept.
 * `matchers_conjunctive_iff`: the matcher is the conjunction of its entries for an alert if and
   only if the entries that are dropped accept it where the others do.
-/

namespace IncidentRelay.Matchers

variable (engine : Engine) (alert : Dict)

/-! ## Slots -/

/-- What an alert is compared in. -/
inductive Slot where
  | source | title | titleRegex
  | label (name : String)
  | field (name : String)
  deriving DecidableEq

def Slot.test : Slot → Json → Bool
  | .source => matchValue engine (alert.getD "source")
  | .title => matchValue engine (alert.getD "title")
  | .titleRegex => fun pattern =>
      safeRegexSearch engine pattern ((alert.getD "title").orElse (.str ""))
  | .label name => matchValue engine (labelValue alert name)
  | .field name => matchValue engine (getNestedValue (.obj alert) name)

/-- The slot of a top-level key other than `labels` and `fields`. -/
def topSlot (key : String) : Slot :=
  if key = "source" then .source
  else if key = "title" then .title
  else if key = "title_regex" then .titleRegex
  else .label key

def Normalized.get (n : Normalized) : Slot → Option Json
  | .source => n.source
  | .title => n.title
  | .titleRegex => n.titleRegex
  | .label name => n.labels.get name
  | .field name => n.fields.get name

/-! ## Entries -/

/-- Where an entry stands. -/
inductive Place where
  | top (key : String)
  | label (name : String)
  | field (name : String)
  deriving DecidableEq

def Place.slot : Place → Slot
  | .top key => topSlot key
  | .label name => .label name
  | .field name => .field name

/-- The matcher with one entry. -/
def Place.wrap (place : Place) (value : Json) : Json :=
  match place with
  | .top key => .obj [(key, value)]
  | .label name => .obj [("labels", .obj [(name, value)])]
  | .field name => .obj [("fields", .obj [(name, value)])]

def topEntries (m : Dict) : Dict := m.filter fun kv => kv.1 ≠ "labels" && kv.1 ≠ "fields"

/-- The values of a matcher, each with its place. -/
def places (m : Dict) : List (Place × Json) :=
  (topEntries m).map (fun kv => (.top kv.1, kv.2)) ++
    ((objectAt m "labels").map (fun kv => (.label kv.1, kv.2)) ++
      (objectAt m "fields").map (fun kv => (.field kv.1, kv.2)))

/-- The entries of a value: one for each clause; a pattern is one clause. -/
def clausesAt (place : Place) (value : Json) : List Json :=
  if place.slot = .titleRegex then [value] else clauses value

def isObject : Json → Bool
  | .obj _ => true
  | _ => false

/-- The parts with a shape that is not known: labels or fields that are no object, and a matcher
that is none. -/
def strange (matchers : Json) : List Json :=
  match matchers with
  | .obj m => (m.filter fun kv => (kv.1 = "labels" || kv.1 = "fields") && !isObject kv.2).map
      fun kv => .obj [kv]
  | value => if value.truthy then [value] else []

def conditions (matchers : Json) : List Json :=
  (places matchers.asDict).flatMap fun entry => (clausesAt entry.1 entry.2).map entry.1.wrap

/-- The entries of a matcher. -/
def entries (matchers : Json) : List Json := conditions matchers ++ strange matchers

/-- A matcher that is not empty, in which no condition is known. -/
def Shapeless (matchers : Json) : Prop := strange matchers ≠ [] ∧ conditions matchers = []

/-! ## What is kept and dropped -/

/-- A label that a flat key takes the place of. -/
def overwritten (m : Dict) : Place → Bool
  | .label name => topSlot name = .label name && (topEntries m).has name
  | _ => false

/-- The first clause of each value that is not overwritten. -/
def kept (matchers : Json) : List Json :=
  ((places matchers.asDict).filter fun entry => !overwritten matchers.asDict entry.1).flatMap
    fun entry => ((clausesAt entry.1 entry.2).take 1).map entry.1.wrap

/-- The labels that are overwritten, the clauses behind the first one, and the strange parts. -/
def dropped (matchers : Json) : List Json :=
  ((places matchers.asDict).flatMap fun entry =>
    ((clausesAt entry.1 entry.2).drop (if overwritten matchers.asDict entry.1 then 0 else 1)).map
      entry.1.wrap) ++ strange matchers

/-- **The entries are those that are kept and those that are dropped.** -/
theorem mem_entries_iff (matchers entry : Json) :
    entry ∈ entries matchers ↔ entry ∈ kept matchers ∨ entry ∈ dropped matchers := by
  unfold entries conditions kept dropped
  simp only [List.mem_append, List.mem_flatMap, List.mem_map, List.mem_filter, Bool.not_eq_true']
  constructor
  · rintro (⟨at', hat, clause, hclause, rfl⟩ | hstrange)
    · by_cases hover : overwritten matchers.asDict at'.1 = true
      · exact .inr (.inl ⟨at', hat, clause, by rwa [if_pos hover], rfl⟩)
      · rw [← List.take_append_drop 1 (clausesAt at'.1 at'.2)] at hclause
        rcases List.mem_append.mp hclause with hfirst | hlater
        · exact .inl ⟨at', ⟨hat, Bool.eq_false_iff.mpr hover⟩, clause, hfirst, rfl⟩
        · exact .inr (.inl ⟨at', hat, clause, by rwa [if_neg hover], rfl⟩)
    · exact .inr (.inr hstrange)
  · rintro (⟨at', ⟨hat, -⟩, clause, hclause, rfl⟩ | ⟨at', hat, clause, hclause, rfl⟩ | hstrange)
    · exact .inl ⟨at', hat, clause, List.mem_of_mem_take hclause, rfl⟩
    · exact .inl ⟨at', hat, clause, List.mem_of_mem_drop hclause, rfl⟩
    · exact .inr hstrange

/-! ## The notation -/

theorem topSlot_label {key : String} (h₁ : key ≠ "source") (h₂ : key ≠ "title") (h₃ : key ≠ "title_regex") :
    topSlot key = .label key := by
  rw [topSlot, if_neg h₁, if_neg h₂, if_neg h₃]

/-- Keys at the top fill slots of their own. -/
theorem topSlot_injective : Function.Injective topSlot := by
  intro a b h
  unfold topSlot at h
  split_ifs at h
  all_goals first | (subst_vars; rfl) | cases h
  rfl

/-- An entry fills its own slot. -/
theorem get_normalizeEntry (n : Normalized) (kv : String × Json) (slot : Slot) :
    (normalizeEntry n kv).get slot =
      if (kv.1 ≠ "labels" && kv.1 ≠ "fields") = true ∧ topSlot kv.1 = slot then some kv.2
      else n.get slot := by
  obtain ⟨key, value⟩ := kv
  unfold normalizeEntry
  -- the two containers are no entries of their own
  by_cases hcontainer : key = "labels" ∨ key = "fields"
  · rw [if_pos hcontainer, if_neg]
    rintro ⟨hkey, -⟩
    simp only [Bool.and_eq_true, decide_eq_true_eq] at hkey
    exact hcontainer.elim hkey.1 hkey.2
  have htop : (key ≠ "labels" && key ≠ "fields") = true := by
    simpa only [Bool.and_eq_true, decide_eq_true_eq, not_or] using hcontainer
  simp only [if_neg hcontainer, htop, true_and]
  -- three keys have slots of their own, every other one is a label
  by_cases hsource : key = "source"
  · subst hsource
    cases slot <;> rfl
  by_cases htitle : key = "title"
  · subst htitle
    cases slot <;> rfl
  by_cases hregex : key = "title_regex"
  · subst hregex
    cases slot <;> rfl
  rw [if_neg hsource, if_neg htitle, if_neg hregex, topSlot_label hsource htitle hregex]
  cases slot with
  | label name =>
    show (n.labels.set key value).get name = _
    by_cases hname : name = key
    · rw [hname, Dict.get_set_self, if_pos rfl]
    · rw [Dict.get_set_of_ne _ _ hname, if_neg fun h => hname (Slot.label.inj h).symm]
      rfl
  | source => rfl
  | title => rfl
  | titleRegex => rfl
  | field name => rfl

/-- What the notation has under a slot: the flat key for it, or what was there. -/
theorem get_foldl {m : Dict} (h : (m.map Prod.fst).Nodup) (n : Normalized) (slot : Slot) (value : Json) :
    (m.foldl normalizeEntry n).get slot = some value ↔
      (∃ kv ∈ topEntries m, topSlot kv.1 = slot ∧ kv.2 = value) ∨
        (∀ kv ∈ topEntries m, topSlot kv.1 ≠ slot) ∧ n.get slot = some value := by
  induction m generalizing n with
  | nil => simp [topEntries]
  | cons kv m ih =>
    rw [List.map_cons, List.nodup_cons] at h
    -- no other key has the slot
    have hother : topSlot kv.1 = slot → ∀ kv' ∈ topEntries m, topSlot kv'.1 ≠ slot := by
      rintro rfl kv' hkv' hsame
      have hmem := List.mem_map_of_mem (f := Prod.fst) (List.mem_of_mem_filter hkv')
      rw [topSlot_injective hsame] at hmem
      exact h.1 hmem
    rw [List.foldl_cons, ih h.2, get_normalizeEntry]
    by_cases htop : (kv.1 ≠ "labels" && kv.1 ≠ "fields") = true
    · have hentries : topEntries (kv :: m) = kv :: topEntries m := List.filter_cons_of_pos htop
      rw [hentries]
      by_cases hslot : topSlot kv.1 = slot
      · have hnone : ¬∃ kv' ∈ topEntries m, topSlot kv'.1 = slot ∧ kv'.2 = value :=
          fun ⟨kv', hkv', hsame, _⟩ => hother hslot kv' hkv' hsame
        rw [if_pos ⟨htop, hslot⟩, List.exists_mem_cons_iff, List.forall_mem_cons]
        simp only [hnone, false_or, or_false, hslot, true_and, ne_eq, not_true_eq_false, false_and]
        exact ⟨fun hv => Option.some.inj hv.2, fun hv => ⟨hother hslot, congrArg some hv⟩⟩
      · rw [if_neg fun h => hslot h.2, List.exists_mem_cons_iff, List.forall_mem_cons]
        simp only [hslot, false_and, false_or, ne_eq, not_false_eq_true, true_and]
    · have hentries : topEntries (kv :: m) = topEntries m := List.filter_cons_of_neg htop
      rw [hentries, if_neg fun h => htop h.1]

/-- No label is filled twice. -/
theorem nodup_normalized {m : Dict} {n : Normalized} (h : (n.labels.map Prod.fst).Nodup) :
    ((m.foldl normalizeEntry n).labels.map Prod.fst).Nodup := by
  induction m generalizing n with
  | nil => exact h
  | cons kv m ih =>
    refine ih ?_
    unfold normalizeEntry
    split_ifs
    · exact h
    · exact h
    · exact h
    · exact h
    · exact Integrations.nodup_set h _ _

/-- The fields are not touched. -/
theorem fields_normalized (m : Dict) (n : Normalized) : (m.foldl normalizeEntry n).fields = n.fields := by
  induction m generalizing n with
  | nil => rfl
  | cons kv m ih =>
    rw [List.foldl_cons, ih]
    unfold normalizeEntry
    split_ifs <;> rfl

/-! ## The conjunction -/

/-- The alert matches where each slot of the notation accepts it. -/
theorem all_slots_iff (n : Normalized) (hlabels : (n.labels.map Prod.fst).Nodup)
    (hfields : (n.fields.map Prod.fst).Nodup) :
    (n.source.all (Slot.source.test engine alert) && n.title.all (Slot.title.test engine alert) &&
        n.titleRegex.all (Slot.titleRegex.test engine alert) &&
        n.labels.all (fun label => (Slot.label label.1).test engine alert label.2) &&
        n.fields.all (fun field => (Slot.field field.1).test engine alert field.2)) = true ↔
      ∀ slot value, n.get slot = some value → slot.test engine alert value = true := by
  -- a slot is tested once, as its key is there once
  have hitems {d : Dict} (hd : (d.map Prod.fst).Nodup) (slotOf : String → Slot) :
      d.all (fun kv => (slotOf kv.1).test engine alert kv.2) = true ↔
        ∀ name value, d.get name = some value → (slotOf name).test engine alert value = true := by
    rw [List.all_eq_true]
    constructor
    · exact fun h name value hget => h _ ((Integrations.get_eq_some_iff hd name value).mp hget)
    · exact fun h kv hkv => h kv.1 kv.2 ((Integrations.get_eq_some_iff hd kv.1 kv.2).mpr hkv)
  simp only [Bool.and_eq_true, Option.all_eq_true, hitems hlabels, hitems hfields]
  constructor
  · rintro ⟨⟨⟨⟨hsource, htitle⟩, hregex⟩, hlabel⟩, hfield⟩ slot value hget
    cases slot with
    | source => exact hsource value hget
    | title => exact htitle value hget
    | titleRegex => exact hregex value hget
    | label name => exact hlabel name value hget
    | field name => exact hfield name value hget
  · intro h
    exact ⟨⟨⟨⟨h .source, h .title⟩, h .titleRegex⟩, fun name => h (.label name)⟩, fun name => h (.field name)⟩

/-- A flat key for the label. -/
theorem overwritten_label {m : Dict} {name : String} :
    overwritten m (.label name) = true ↔ ∃ kv ∈ topEntries m, topSlot kv.1 = .label name := by
  unfold overwritten Dict.has
  simp only [Bool.and_eq_true, decide_eq_true_eq, List.any_eq_true, beq_iff_eq]
  constructor
  · rintro ⟨hslot, kv, hkv, rfl⟩
    exact ⟨kv, hkv, hslot⟩
  · rintro ⟨kv, hkv, hslot⟩
    have hname : kv.1 = name := by
      unfold topSlot at hslot
      split_ifs at hslot
      exact Slot.label.inj hslot
    exact ⟨hname ▸ hslot, kv, hkv, hname⟩

/-- **What the notation has are the places that are not overwritten.** -/
theorem get_normalizeMatchers (m : Matcher) (slot : Slot) (value : Json) :
    (normalizeMatchers m.json).get slot = some value ↔
      ∃ entry ∈ places m.json.asDict, overwritten m.json.asDict entry.1 = false ∧
        entry.1.slot = slot ∧ entry.2 = value := by
  obtain ⟨json, hkeys, hlabels, hfields⟩ := m
  -- a matcher that is no object has no entries
  cases json with
  | obj d =>
    have hbase : (normalizeMatchers (.obj d)).get slot = some value ↔ _ := get_foldl hkeys _ slot value
    rw [hbase]
    show _ ↔ ∃ entry ∈ places d, overwritten d entry.1 = false ∧ entry.1.slot = slot ∧ entry.2 = value
    unfold places
    simp only [List.mem_append, List.mem_map]
    constructor
    -- a slot is filled by an entry at the top, or by one in its container that is not overwritten
    · rintro (⟨kv, hkv, hslot, hvalue⟩ | ⟨hnone, hget⟩)
      · exact ⟨_, .inl ⟨kv, hkv, rfl⟩, rfl, hslot, hvalue⟩
      · cases slot with
        | source => cases hget
        | title => cases hget
        | titleRegex => cases hget
        | label name =>
          refine ⟨(.label name, value), .inr (.inl ⟨(name, value), ?_, rfl⟩), ?_, rfl, rfl⟩
          · exact (Integrations.get_eq_some_iff hlabels name value).mp hget
          · refine Bool.eq_false_iff.mpr fun hover => ?_
            obtain ⟨kv, hkv, hsame⟩ := overwritten_label.mp hover
            exact hnone kv hkv hsame
        | field name =>
          exact ⟨(.field name, value), .inr (.inr ⟨(name, value),
            (Integrations.get_eq_some_iff hfields name value).mp hget, rfl⟩), rfl, rfl, rfl⟩
    · rintro ⟨_, ⟨kv, hkv, rfl⟩ | ⟨kv, hkv, rfl⟩ | ⟨kv, hkv, rfl⟩, hover, rfl, rfl⟩
      · exact .inl ⟨kv, hkv, rfl, rfl⟩
      · refine .inr ⟨fun kv' hkv' hsame => ?_, (Integrations.get_eq_some_iff hlabels kv.1 kv.2).mpr hkv⟩
        have hflat : overwritten d (.label kv.1) = true := overwritten_label.mpr ⟨kv', hkv', hsame⟩
        exact absurd hflat (Bool.eq_false_iff.mp hover)
      · refine .inr ⟨fun kv' hkv' hsame => ?_, (Integrations.get_eq_some_iff hfields kv.1 kv.2).mpr hkv⟩
        have hfield : topSlot kv'.1 ≠ .field kv.1 := by
          unfold topSlot
          split_ifs <;> exact Slot.noConfusion
        exact hfield hsame
  | _ =>
    cases slot <;>
      simp [normalizeMatchers, Normalized.get, places, Json.asDict, topEntries, objectAt, Dict.getD]

/-- **The alert has to match the values that are not overwritten.** -/
theorem matchAlert_places_iff (m : Matcher) :
    matchAlert engine alert m.json = true ↔ ∀ entry ∈ places m.json.asDict,
      overwritten m.json.asDict entry.1 = false → entry.1.slot.test engine alert entry.2 = true := by
  -- the containers have each key once
  have hnodup : ((normalizeMatchers m.json).labels.map Prod.fst).Nodup ∧
      ((normalizeMatchers m.json).fields.map Prod.fst).Nodup := by
    obtain ⟨json, hkeys, hlabels, hfields⟩ := m
    cases json with
    | obj d =>
      refine ⟨nodup_normalized hlabels, ?_⟩
      show ((d.foldl normalizeEntry _).fields.map Prod.fst).Nodup
      rw [fields_normalized]
      exact hfields
    | _ => exact ⟨List.nodup_nil, List.nodup_nil⟩
  refine (all_slots_iff engine alert _ hnodup.1 hnodup.2).trans ?_
  constructor
  · exact fun h entry hentry hover =>
      h _ _ ((get_normalizeMatchers m _ _).mpr ⟨entry, hentry, hover, rfl, rfl⟩)
  · intro h slot value hget
    obtain ⟨entry, hentry, hover, rfl, rfl⟩ := (get_normalizeMatchers m slot value).mp hget
    exact h entry hentry hover

/-- A key that an entry can have at the top. -/
def Place.Proper (place : Place) : Prop := ∀ key, place = .top key → key ≠ "labels" ∧ key ≠ "fields"

/-- The places of a matcher are proper ones. -/
theorem proper_of_mem {m : Dict} {entry : Place × Json} (h : entry ∈ places m) : entry.1.Proper := by
  unfold places at h
  simp only [List.mem_append, List.mem_map] at h
  rcases h with ⟨kv, hkv, rfl⟩ | ⟨kv, -, rfl⟩ | ⟨kv, -, rfl⟩
  · rintro key ⟨⟩
    simpa only [topEntries, List.mem_filter, Bool.and_eq_true, decide_eq_true_eq] using
      (List.mem_filter.mp hkv).2
  · rintro key ⟨⟩
  · rintro key ⟨⟩

/-- A matcher with one entry is the test of that entry. -/
theorem matchAlert_single (m : Matcher) {place : Place} {value : Json}
    (hplaces : places m.json.asDict = [(place, value)]) (hover : overwritten m.json.asDict place = false) :
    matchAlert engine alert m.json = place.slot.test engine alert value := by
  have hiff := matchAlert_places_iff engine alert m
  rw [hplaces, List.forall_mem_singleton] at hiff
  exact Bool.eq_iff_iff.mpr (hiff.trans ⟨fun h => h hover, fun h _ => h⟩)

/-- There is nothing under the other keys. -/
theorem objectAt_single {key name : String} (h : key ≠ name) (value : Json) :
    objectAt [(key, value)] name = [] := by
  unfold objectAt Dict.getD
  rw [Dict.get_cons, if_neg h]
  rfl

/-- **A matcher with one entry** compares the alert in the slot of the entry. -/
theorem matchAlert_wrap {place : Place} (h : place.Proper) (value : Json) :
    matchAlert engine alert (place.wrap value) = place.slot.test engine alert value := by
  -- a matcher with one entry has no other that could overwrite it
  cases place with
  | top key =>
    obtain ⟨hlabels, hfields⟩ := h key rfl
    have hnodup {name : String} (hname : key ≠ name) :
        ((objectAt [(key, value)] name).map Prod.fst).Nodup := by
      rw [objectAt_single hname]
      exact List.nodup_nil
    have hplaces : places [(key, value)] = [(.top key, value)] := by
      unfold places
      rw [objectAt_single hlabels, objectAt_single hfields]
      simp [topEntries, hlabels, hfields]
    exact matchAlert_single engine alert
      ⟨.obj [(key, value)], List.nodup_singleton key, hnodup hlabels, hnodup hfields⟩ hplaces rfl
  | label name =>
    exact matchAlert_single engine alert ⟨.obj [("labels", .obj [(name, value)])],
      List.nodup_singleton _, List.nodup_singleton name, List.nodup_nil⟩ rfl (Bool.and_false _)
  | field name =>
    exact matchAlert_single engine alert ⟨.obj [("fields", .obj [(name, value)])],
      List.nodup_singleton _, List.nodup_nil, List.nodup_singleton name⟩ rfl rfl

/-- A value is compared by its first clause. -/
theorem test_first (place : Place) (value : Json) : ∃ clause,
    (clausesAt place value).take 1 = [clause] ∧
      place.slot.test engine alert value = place.slot.test engine alert clause := by
  unfold clausesAt
  split_ifs with hregex
  · exact ⟨value, rfl, rfl⟩
  · refine ⟨firstClause value, by rw [clauses_eq_cons]; rfl, ?_⟩
    cases hslot : place.slot with
    | source => exact matchValue_firstClause engine _ value
    | title => exact matchValue_firstClause engine _ value
    | titleRegex => exact absurd hslot hregex
    | label name => exact matchValue_firstClause engine _ value
    | field name => exact matchValue_firstClause engine _ value

/-- **The alert has to match the entries that are kept.** -/
theorem matchAlert_iff (m : Matcher) :
    matchAlert engine alert m.json = true ↔
      ∀ entry ∈ kept m.json, matchAlert engine alert entry = true := by
  rw [matchAlert_places_iff]
  unfold kept
  simp only [List.mem_flatMap, List.mem_map, List.mem_filter, Bool.not_eq_true']
  constructor
  · rintro h _ ⟨entry, ⟨hentry, hover⟩, clause, hclause, rfl⟩
    obtain ⟨first, hfirst, htest⟩ := test_first engine alert entry.1 entry.2
    rw [hfirst, List.mem_singleton] at hclause
    rw [hclause, matchAlert_wrap engine alert (proper_of_mem hentry), ← htest]
    exact h entry hentry hover
  · intro h entry hentry hover
    obtain ⟨first, hfirst, htest⟩ := test_first engine alert entry.1 entry.2
    rw [htest, ← matchAlert_wrap engine alert (proper_of_mem hentry)]
    exact h _ ⟨entry, ⟨hentry, hover⟩, first, by rw [hfirst]; exact List.mem_singleton_self _, rfl⟩

/-- A matcher in which nothing is known matches every alert. -/
theorem matchAlert_of_shapeless {m : Matcher} (h : Shapeless m.json) :
    matchAlert engine alert m.json = true := by
  rw [matchAlert_iff]
  intro entry hentry
  have hcondition : entry ∈ conditions m.json := by
    unfold kept at hentry
    simp only [List.mem_flatMap, List.mem_map, List.mem_filter] at hentry
    obtain ⟨at', ⟨hat, -⟩, clause, hclause, rfl⟩ := hentry
    exact List.mem_flatMap.mpr ⟨at', hat, List.mem_map_of_mem (List.mem_of_mem_take hclause)⟩
  rw [h.2] at hcondition
  exact absurd hcondition List.not_mem_nil

/-- The matcher is a conjunction for the alert: it accepts what each entry accepts, a matcher
with fewer entries accepts what it accepts, and it does not accept everything where it is not
empty and nothing in it is known. -/
structure Conjunctive (m : Matcher) : Prop where
  iff_entries : matchAlert engine alert m.json = true ↔
    ∀ entry ∈ entries m.json, matchAlert engine alert entry = true
  narrower : ∀ fewer : Matcher, entries fewer.json ⊆ entries m.json →
    matchAlert engine alert m.json = true → matchAlert engine alert fewer.json = true
  shaped : Shapeless m.json → ∃ other, matchAlert engine other m.json = false

/-- Patterns are plain texts here. -/
def plainEngine : Engine where
  floats := ⟨fun _ => none⟩
  search := fun pattern text => isIn pattern text

def envMatcher : Matcher where
  json := .obj [("labels", .obj [("env", .str "prod")]), ("env", .str "dev")]
  keys := by decide
  labels := by decide
  fields := by decide

def misspelled : Matcher where
  json := .obj [("labels", .list [.str "env"])]
  keys := by decide
  labels := by decide
  fields := by decide

def devAlert : Dict := [("labels", .obj [("env", .str "dev")])]

end IncidentRelay.Matchers
