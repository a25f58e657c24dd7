import IncidentRelay.Lib.Reorder

/-!
# Payloads

What a webhook schema asks of a payload (`Accepts`: the type of each declared
field, and that a key occurs once in an object), and how two payloads are
compared: up to the order of keys (`Json.Reordered`) and up to the entries that
may differ (`SameBut`). A reordered payload has the same keys
(`reordered_keys`), and under each of them a reordering of the value (`reordered_get`).
-/

namespace IncidentRelay.Integrations

open Json

/-! ## Dictionaries with distinct keys -/

/-- Where keys occur once, the value under a key is its entry. -/
theorem get_eq_some_iff {d : Dict} (hd : (d.map Prod.fst).Nodup) (key : String) (value : Json) :
    d.get key = some value ↔ (key, value) ∈ d := by
  induction d with
  | nil => simp
  | cons kv rest ih =>
    obtain ⟨k, v⟩ := kv
    rw [List.map_cons, List.nodup_cons] at hd
    rw [Dict.get_cons]
    by_cases hk : k = key
    · subst hk
      have hnot : (k, value) ∉ rest := fun hm => hd.1 (List.mem_map.mpr ⟨_, hm, rfl⟩)
      simp [hnot, eq_comm]
    · rw [if_neg hk, ih hd.2]
      simp [Ne.symm hk]

/-- There is no value under a key that does not occur. -/
theorem get_eq_none_iff (d : Dict) (key : String) :
    d.get key = none ↔ key ∉ d.map Prod.fst := by
  induction d with
  | nil => simp
  | cons kv rest ih =>
    obtain ⟨k, v⟩ := kv
    rw [Dict.get_cons]
    by_cases hk : k = key
    · simp [hk]
    · simp [hk, ih, Ne.symm hk]

theorem has_eq_isSome (d : Dict) (key : String) : d.has key = (d.get key).isSome := by
  induction d with
  | nil => rfl
  | cons kv rest ih =>
    obtain ⟨k, v⟩ := kv
    rw [Dict.get_cons]
    unfold Dict.has at ih ⊢
    by_cases hk : k = key
    · simp [hk]
    · simp [hk, ih]

/-- A default is set under its own key. -/
theorem get_setdefault_of_ne (d : Dict) {key other : String} (value : Json) (h : other ≠ key) :
    (d.setdefault key value).get other = d.get other := by
  unfold Dict.setdefault
  split
  · rfl
  · exact Dict.get_set_of_ne _ _ h

/-- What is there stays. -/
theorem get_setdefault_of_some {d : Dict} {key : String} {v : Json} (h : d.get key = some v)
    (other : String) (value : Json) : (d.setdefault other value).get key = some v := by
  by_cases hk : key = other
  · subst hk
    unfold Dict.setdefault
    rw [has_eq_isSome, h]
    exact h
  · rw [get_setdefault_of_ne d value hk, h]

/-- A new key goes to the end. -/
theorem set_of_not_mem {d : Dict} {key : String} (h : d.get key = none) (value : Json) :
    d.set key value = d ++ [(key, value)] := by
  induction d with
  | nil => rfl
  | cons kv rest ih =>
    obtain ⟨k, v⟩ := kv
    rw [Dict.get_cons] at h
    by_cases hk : k = key
    · rw [if_pos hk] at h
      cases h
    · rw [if_neg hk] at h
      rw [Dict.set, if_neg (by simpa using hk), ih h]
      rfl

/-- A default gives way to what is there. -/
theorem get_setdefault_self (d : Dict) (key : String) (value : Json) :
    (d.setdefault key value).get key = some ((d.get key).getD value) := by
  unfold Dict.setdefault
  rw [has_eq_isSome]
  cases hget : d.get key with
  | some v => simp [hget]
  | none => simp

/-- `set` keeps the keys and adds a new one at the end. -/
theorem keys_set (d : Dict) (key : String) (value : Json) :
    (d.set key value).map Prod.fst =
      if key ∈ d.map Prod.fst then d.map Prod.fst else d.map Prod.fst ++ [key] := by
  induction d with
  | nil => simp [Dict.set]
  | cons kv rest ih =>
    obtain ⟨k, v⟩ := kv
    by_cases hk : k = key
    · simp [Dict.set, hk]
    · by_cases hm : key ∈ rest.map Prod.fst
      · simp only [Dict.set, beq_iff_eq, hk, if_false, List.map_cons, ih, hm, if_true,
          List.mem_cons, or_true]
      · simp only [Dict.set, beq_iff_eq, hk, if_false, List.map_cons, ih, hm,
          List.mem_cons, or_false, Ne.symm hk, List.cons_append]

/-- Setting a key does not double it. -/
theorem nodup_set {d : Dict} (hd : (d.map Prod.fst).Nodup) (key : String) (value : Json) :
    ((d.set key value).map Prod.fst).Nodup := by
  rw [keys_set]
  split
  · exact hd
  · rename_i hnot
    rw [List.nodup_append]
    refine ⟨hd, by simp, ?_⟩
    intro a ha b hb
    rw [List.mem_singleton.mp hb]
    exact fun hab => hnot (hab ▸ ha)

/-- Neither does a default. -/
theorem nodup_setdefault {d : Dict} (hd : (d.map Prod.fst).Nodup) (key : String) (value : Json) :
    ((d.setdefault key value).map Prod.fst).Nodup := by
  unfold Dict.setdefault
  split
  · exact hd
  · exact nodup_set hd key value

/-- An object of distinct values stays one. -/
theorem distinct_set {d : Dict} (hd : distinct (.obj d) = true) (key : String) {value : Json}
    (hv : distinct value = true) : distinct (.obj (d.set key value)) = true := by
  rw [distinct, Bool.and_eq_true, decide_eq_true_eq] at hd ⊢
  refine ⟨nodup_set hd.1 key value, ?_⟩
  have hall := hd.2
  clear hd
  induction d with
  | nil => simp [Dict.set, distinctEntries, hv]
  | cons kv rest ih =>
    obtain ⟨k, v⟩ := kv
    rw [distinctEntries, Bool.and_eq_true] at hall
    by_cases hk : k = key
    · simp [Dict.set, hk, distinctEntries, hv, hall.2]
    · simp [Dict.set, hk, distinctEntries, hall.1, ih hall.2]

/-- What is in it is distinct in itself. -/
theorem distinct_of_get {d : Dict} (hd : distinct (.obj d) = true) {key : String} {value : Json}
    (h : d.get key = some value) : distinct value = true := by
  rw [distinct, Bool.and_eq_true] at hd
  have hall := hd.2
  clear hd
  induction d with
  | nil => simp at h
  | cons kv rest ih =>
    obtain ⟨k, v⟩ := kv
    rw [distinctEntries, Bool.and_eq_true] at hall
    rw [Dict.get_cons] at h
    by_cases hk : k = key
    · rw [if_pos hk] at h
      rw [← Option.some.inj h]
      exact hall.1
    · rw [if_neg hk] at h
      exact ih h hall.2

/-- The object behind a value of the dictionary has distinct keys too. -/
theorem distinct_asDict {d : Dict} (hd : distinct (.obj d) = true) (key : String) :
    distinct (.obj (d.getD key).asDict) = true := by
  unfold Dict.getD
  cases hget : d.get key with
  | none => rfl
  | some value =>
    have hv := distinct_of_get hd hget
    cases value with
    | obj kvs => exact hv
    | _ => rfl

theorem nodup_of_distinct {d : Dict} (hd : distinct (.obj d) = true) :
    (d.map Prod.fst).Nodup := by
  rw [distinct, Bool.and_eq_true, decide_eq_true_eq] at hd
  exact hd.1

/-- `dict(payload.get("labels") or {})`. -/
def labelsOf (payload : Dict) : Dict := (payload.getD "labels").asDict

/-! ## Reading a reordered object -/

section Reordered

variable {p r : Dict}

/-- The value under a key of a reordered object is a reordering of the value. -/
theorem reordered_get (hp : (p.map Prod.fst).Nodup) (h : Reordered (.obj p) (.obj r))
    {key : String} {value : Json} (hv : p.get key = some value) :
    ∃ w, r.get key = some w ∧ Reordered value w := by
  obtain ⟨ys, hys, hkeys, hcarry⟩ := h.obj_inv
  cases hys
  have hr : (r.map Prod.fst).Nodup := hkeys.nodup_iff.mp hp
  obtain ⟨w, hw, hvw⟩ := hcarry key value ((get_eq_some_iff hp key value).mp hv)
  exact ⟨w, (get_eq_some_iff hr key w).mpr hw, hvw⟩

/-- A reordered object has no other keys. -/
theorem reordered_get_none (h : Reordered (.obj p) (.obj r)) {key : String}
    (hv : p.get key = none) : r.get key = none := by
  obtain ⟨ys, hys, hkeys, -⟩ := h.obj_inv
  cases hys
  rw [get_eq_none_iff] at hv ⊢
  exact fun hm => hv (hkeys.mem_iff.mpr hm)

/-- A rigid value is read as it was. -/
theorem reordered_get_rigid (hp : (p.map Prod.fst).Nodup) (h : Reordered (.obj p) (.obj r))
    {key : String} (hv : rigid (p.getD key) = true) : r.getD key = p.getD key := by
  unfold Dict.getD at hv ⊢
  cases hget : p.get key with
  | none => rw [reordered_get_none h hget]
  | some value =>
    rw [hget] at hv
    obtain ⟨w, hw, hvw⟩ := reordered_get hp h hget
    rw [hw, hvw.eq_of_rigid hv]

/-- The object under a key of a reordered object. -/
theorem reordered_asDict (hp : (p.map Prod.fst).Nodup) (h : Reordered (.obj p) (.obj r))
    (key : String) : Reordered (.obj (p.getD key).asDict) (.obj (r.getD key).asDict) := by
  unfold Dict.getD
  -- what is missing is missing in every order
  cases hget : p.get key with
  | none =>
    rw [reordered_get_none h hget]
    exact .refl _
  | some v =>
    obtain ⟨w, hw, hvw⟩ := reordered_get hp h hget
    rw [hw, Option.getD_some, Option.getD_some]
    -- an object is reordered within, any other value not into an object
    cases v with
    | obj kvs =>
      obtain ⟨ys, rfl, -, -⟩ := hvw.obj_inv
      exact hvw
    | _ =>
      cases w with
      | obj ys =>
        obtain ⟨zs, hz, -, -⟩ := hvw.symm.obj_inv
        cases hz
      | _ => exact .refl _

theorem reordered_keys (h : Reordered (.obj p) (.obj r)) :
    (p.map Prod.fst).Perm (r.map Prod.fst) := by
  obtain ⟨ys, hys, hkeys, -⟩ := h.obj_inv
  cases hys
  exact hkeys

end Reordered

/-- Writing over a value splits the dictionary at its entry. -/
theorem set_of_get {d : Dict} {key : String} {v : Json} (h : d.get key = some v) (w : Json) :
    ∃ pre post, d = pre ++ (key, v) :: post ∧ d.set key w = pre ++ (key, w) :: post := by
  induction d with
  | nil => simp at h
  | cons kv rest ih =>
    obtain ⟨k, x⟩ := kv
    rw [Dict.get_cons] at h
    by_cases hk : k = key
    · rw [if_pos hk] at h
      obtain rfl := Option.some.inj h
      exact ⟨[], rest, by rw [hk]; rfl, by simp [Dict.set, hk]⟩
    · rw [if_neg hk] at h
      obtain ⟨pre, post, hd, hset⟩ := ih h
      exact ⟨(k, x) :: pre, post, by rw [hd]; rfl, by simp [Dict.set, hk, hset]⟩

/-- A value written over by a reordering of it. -/
theorem reordered_set {d : Dict} {key : String} {v w : Json} (h : d.get key = some v)
    (hvw : Reordered v w) : Reordered (.obj d) (.obj (d.set key w)) := by
  obtain ⟨pre, post, hd, hset⟩ := set_of_get h w
  rw [hset, hd]
  exact .entry pre post key hvw

/-- Reordering keeps a value distinct. -/
theorem distinct_reordered {v w : Json} (h : Reordered v w) (hv : distinct v = true) :
    distinct w = true := by
  -- by induction on how the orders come about
  induction h with
  | refl v => exact hv
  | trans _ _ ih₁ ih₂ => exact ih₂ (ih₁ hv)
  | @perm xs ys hp =>
    rw [distinct, Bool.and_eq_true, decide_eq_true_eq, distinctEntries_iff] at hv ⊢
    exact ⟨(hp.map Prod.fst).nodup_iff.mp hv.1, fun kv hm => hv.2 kv (hp.mem_iff.mpr hm)⟩
  | entry pre post k _ ih =>
    rw [distinct, Bool.and_eq_true, decide_eq_true_eq, distinctEntries_iff] at hv ⊢
    refine ⟨by simpa using hv.1, ?_⟩
    intro kv hm
    -- the entry that changes is distinct, and so are the others
    rcases List.mem_append.mp hm with hm | hm
    · exact hv.2 kv (List.mem_append_left _ hm)
    · rcases List.mem_cons.mp hm with rfl | hm
      · exact ih (hv.2 (k, _) (by simp))
      · exact hv.2 kv (by simp [hm])
  | item pre post _ ih =>
    rw [distinct, distinctItems_iff] at hv ⊢
    intro x hm
    rcases List.mem_append.mp hm with hm | hm
    · exact hv x (List.mem_append_left _ hm)
    · rcases List.mem_cons.mp hm with rfl | hm
      · exact ih (hv _ (by simp))
      · exact hv x (by simp [hm])

/-! ## Entries that may differ -/

/-- The same entries in the same order, those under a varying key left out. -/
def SameBut (varies : String → Bool) (d d' : Dict) : Prop :=
  (d.filter fun kv => !varies kv.1) = d'.filter fun kv => !varies kv.1

theorem SameBut.refl (varies : String → Bool) (d : Dict) : SameBut varies d d := rfl

/-- Leaving entries out changes nothing under the other keys. -/
theorem get_filter {varies : String → Bool} {key : String} (hkey : varies key = false) (d : Dict) :
    Dict.get (d.filter fun kv => !varies kv.1) key = d.get key := by
  induction d with
  | nil => rfl
  | cons kv rest ih =>
    obtain ⟨k, v⟩ := kv
    by_cases hk : k = key
    · subst hk
      rw [List.filter_cons_of_pos (by simp [hkey]), Dict.get_cons, Dict.get_cons, if_pos rfl,
        if_pos rfl]
    · rw [Dict.get_cons, if_neg hk, List.filter_cons]
      split
      · rw [Dict.get_cons, if_neg hk]
        exact ih
      · exact ih

theorem SameBut.get {varies : String → Bool} {d d' : Dict} (h : SameBut varies d d')
    {key : String} (hkey : varies key = false) : d'.get key = d.get key := by
  rw [← get_filter hkey d, ← get_filter hkey d', h]

theorem SameBut.getD {varies : String → Bool} {d d' : Dict} (h : SameBut varies d d')
    {key : String} (hkey : varies key = false) : d'.getD key = d.getD key := by
  rw [Dict.getD, Dict.getD, h.get hkey]

/-- Writing a varying key is no difference. -/
theorem sameBut_set {varies : String → Bool} (d : Dict) {key : String} (value : Json)
    (hkey : varies key = true) : SameBut varies d (d.set key value) := by
  unfold SameBut
  induction d with
  | nil => simp [Dict.set, hkey]
  | cons kv rest ih =>
    obtain ⟨k, v⟩ := kv
    by_cases hk : k = key
    · simp [Dict.set, hk, hkey]
    · rw [Dict.set, if_neg (by simpa using hk), List.filter_cons, List.filter_cons, ih]

theorem SameBut.trans {varies : String → Bool} {a b c : Dict} (h : SameBut varies a b)
    (h' : SameBut varies b c) : SameBut varies a c :=
  Eq.trans h h'

/-! ## Schemas -/

/-- The type a schema gives to a field. -/
inductive FieldType where
  | text
  | textOrInt
  | object
  | objects
  deriving DecidableEq

def FieldType.accepts : FieldType → Json → Bool
  | .text, .str _ => true
  | .textOrInt, .str _ => true
  | .textOrInt, .int _ => true
  | .object, .obj _ => true
  | .objects, .list xs => xs.all fun x => match x with
    | .obj _ => true
    | _ => false
  | _, _ => false

structure Field where
  name : String
  type : FieldType
  optional : Bool := true

def Field.accepts (f : Field) (d : Dict) : Bool :=
  (f.optional && d.getD f.name == .null) || f.type.accepts (d.getD f.name)

/-- The types of the declared fields, on a dictionary. Length bounds are left out. -/
def Accepts (schema : List Field) (d : Dict) : Prop :=
  distinct (.obj d) = true ∧ ∀ f ∈ schema, f.accepts d = true

instance (schema : List Field) (d : Dict) : Decidable (Accepts schema d) := by
  unfold Accepts
  infer_instance

/-- Writing a value that its field takes keeps a payload accepted. -/
theorem Accepts.set {schema : List Field} {d : Dict} (h : Accepts schema d) {key : String}
    {value : Json} (hv : distinct value = true)
    (hf : ∀ f ∈ schema, f.name = key → (f.optional && value == .null) || f.type.accepts value) :
    Accepts schema (d.set key value) := by
  refine ⟨distinct_set h.1 key hv, ?_⟩
  intro f hm
  unfold Field.accepts Dict.getD
  by_cases hk : f.name = key
  · rw [hk, Dict.get_set_self]
    exact hf f hm hk
  · rw [Dict.get_set_of_ne _ _ hk]
    exact h.2 f hm

/-- A type takes a value in every order. -/
theorem FieldType.accepts_reordered {v w : Json} (h : Reordered v w) (t : FieldType)
    (hv : t.accepts v = true) : t.accepts w = true := by
  -- the type of a field does not look at the order
  induction h generalizing t with
  | refl v => exact hv
  | trans _ _ ih₁ ih₂ => exact ih₂ t (ih₁ t hv)
  | perm _ =>
    cases t with
    | object => rfl
    | _ => cases hv
  | entry _ _ _ _ _ =>
    cases t with
    | object => rfl
    | _ => cases hv
  | @item pre post v w _ ih =>
    cases t with
    | objects =>
      simp only [FieldType.accepts, List.all_append, List.all_cons, Bool.and_eq_true] at hv ⊢
      refine ⟨hv.1, ?_, hv.2.2⟩
      have hobj : FieldType.object.accepts v = true := by
        cases v with
        | obj kvs => rfl
        | _ => exact absurd hv.2.1 (by simp)
      have hw := ih .object hobj
      cases w with
      | obj kvs => rfl
      | _ => cases hw
    | _ => cases hv

/-- A payload is accepted in every order of its keys. -/
theorem Accepts.reordered {schema : List Field} {p r : Dict} (hp : Accepts schema p)
    (h : Reordered (.obj p) (.obj r)) : Accepts schema r := by
  refine ⟨distinct_reordered h hp.1, ?_⟩
  intro f hf
  have hacc := hp.2 f hf
  unfold Field.accepts Dict.getD at hacc ⊢
  cases hget : p.get f.name with
  | none =>
    rw [hget] at hacc
    rw [reordered_get_none h hget]
    exact hacc
  | some v =>
    obtain ⟨w, hw, hvw⟩ := reordered_get (nodup_of_distinct hp.1) h hget
    rw [hget, Option.getD_some, Bool.or_eq_true] at hacc
    rw [hw, Option.getD_some, Bool.or_eq_true]
    rcases hacc with hnull | hacc
    -- null stays null
    · left
      rw [Bool.and_eq_true, beq_iff_eq] at hnull ⊢
      refine ⟨hnull.1, ?_⟩
      rw [hnull.2] at hvw
      exact hvw.eq_of_rigid rfl
    -- any other value is accepted in every order
    · exact .inr (FieldType.accepts_reordered hvw f.type hacc)

/-- The schema gives the field a type without objects inside. -/
def textual (schema : List Field) (key : String) : Bool :=
  schema.any fun f => f.name == key && (f.type == .text || f.type == .textOrInt)

/-- A text field is read as it was from a reordered payload. -/
theorem Accepts.reordered_text {schema : List Field} {p r : Dict} (hp : Accepts schema p)
    (h : Reordered (.obj p) (.obj r)) {key : String} (hkey : textual schema key = true) :
    r.getD key = p.getD key := by
  apply reordered_get_rigid (nodup_of_distinct hp.1) h
  unfold textual at hkey
  rw [List.any_eq_true] at hkey
  obtain ⟨f, hf, hkey⟩ := hkey
  rw [Bool.and_eq_true, beq_iff_eq, Bool.or_eq_true, beq_iff_eq, beq_iff_eq] at hkey
  obtain ⟨rfl, ht⟩ := hkey
  have hacc := hp.2 f hf
  unfold Field.accepts at hacc
  rw [Bool.or_eq_true] at hacc
  -- a text has no order to be changed
  rcases hacc with hnull | hacc
  · rw [Bool.and_eq_true, beq_iff_eq] at hnull
    rw [hnull.2]
    rfl
  · generalize p.getD f.name = value at hacc ⊢
    rcases ht with ht | ht
    · rw [ht] at hacc
      cases value <;> first | rfl | cases hacc
    · rw [ht] at hacc
      cases value <;> first | rfl | cases hacc

end IncidentRelay.Integrations
