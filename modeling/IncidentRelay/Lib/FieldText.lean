import Mathlib.Data.List.Basic

/-!
# Fields in one text

A list of named values is written as one text, with a separator before each field and a sign
between a name and its value, and nothing is escaped. The names are known to the reader.

 * `values_eq`: where no value contains the separator, the text determines the values.
 * `fields_shift`: a value that is a piece of a text has the text of other fields, so where
   values are free, it does not.
-/

namespace IncidentRelay.FieldText

variable {α : Type*} {sep sign : α}

/-- One field with its separator. -/
def field (sep sign : α) (part : List α × List α) : List α := sep :: (part.1 ++ sign :: part.2)

def fields (sep sign : α) (parts : List (List α × List α)) : List α := parts.flatMap (field sep sign)

@[simp] theorem fields_nil : fields sep sign [] = [] := rfl

@[simp] theorem fields_cons (part : List α × List α) (parts : List (List α × List α)) :
    fields sep sign (part :: parts) = field sep sign part ++ fields sep sign parts := rfl

theorem fields_append (parts parts' : List (List α × List α)) :
    fields sep sign (parts ++ parts') = fields sep sign parts ++ fields sep sign parts' :=
  List.flatMap_append

/-- The text ends, or goes on with the separator. -/
def Stops (sep : α) (text : List α) : Prop := ∀ c ∈ text.head?, c = sep

theorem stops_nil : Stops sep [] := nofun

/-- A field stops what is in front of it. -/
theorem stops_fields_append {text : List α} (h : Stops sep text) (parts : List (List α × List α)) :
    Stops sep (fields sep sign parts ++ text) := by
  cases parts with
  | nil => exact h
  | cons part parts =>
    rintro c ⟨⟩
    rfl

theorem stops_fields (parts : List (List α × List α)) : Stops sep (fields sep sign parts) := by
  rw [← List.append_nil (fields sep sign parts)]
  exact stops_fields_append stops_nil parts

/-- Values without the separator end at the first separator. -/
theorem append_cancel {v w s t : List α} (hv : sep ∉ v) (hw : sep ∉ w) (hs : Stops sep s)
    (ht : Stops sep t) (h : v ++ s = w ++ t) : v = w ∧ s = t := by
  induction v generalizing w with
  | nil =>
    cases w with
    | nil => exact ⟨rfl, h⟩
    | cons c w =>
      -- the text after the empty value would start with a part of the other value
      refine absurd ?_ hw
      rw [List.nil_append] at h
      rw [hs c (by rw [h]; rfl)]
      exact List.mem_cons_self
  | cons c v ih =>
    cases w with
    | nil =>
      refine absurd ?_ hv
      rw [List.nil_append] at h
      rw [ht c (by rw [← h]; rfl)]
      exact List.mem_cons_self
    | cons d w =>
      obtain ⟨rfl, htail⟩ := List.cons.inj h
      obtain ⟨rfl, hrest⟩ := ih (fun hm => hv (List.mem_cons_of_mem _ hm))
        (fun hm => hw (List.mem_cons_of_mem _ hm)) htail
      exact ⟨rfl, hrest⟩

/-- **Without the separator in a value the text determines the values.** -/
theorem values_eq {parts parts' : List (List α × List α)} {s t : List α}
    (hnames : parts.map Prod.fst = parts'.map Prod.fst) (hv : ∀ part ∈ parts, sep ∉ part.2)
    (hw : ∀ part ∈ parts', sep ∉ part.2) (hs : Stops sep s) (ht : Stops sep t)
    (h : fields sep sign parts ++ s = fields sep sign parts' ++ t) : parts = parts' ∧ s = t := by
  induction parts generalizing parts' with
  | nil =>
    obtain rfl : parts' = [] := List.map_eq_nil_iff.mp hnames.symm
    exact ⟨rfl, h⟩
  | cons part parts ih =>
    cases parts' with
    | nil => cases hnames
    | cons part' parts' =>
      obtain ⟨name, value⟩ := part
      obtain ⟨name', value'⟩ := part'
      obtain ⟨hname, htail⟩ := List.cons.inj hnames
      obtain rfl : name = name' := hname
      -- the separator, the name and the sign are the same on both sides
      have hrest : value ++ (fields sep sign parts ++ s) = value' ++ (fields sep sign parts' ++ t) := by
        simpa [field, List.append_assoc] using h
      obtain ⟨hvalue, hfields⟩ := append_cancel (hv _ List.mem_cons_self) (hw _ List.mem_cons_self)
        (stops_fields_append hs parts) (stops_fields_append ht parts') hrest
      obtain rfl : value = value' := hvalue
      obtain ⟨rfl, hst⟩ := ih htail (fun p hp => hv p (List.mem_cons_of_mem _ hp))
        (fun p hp => hw p (List.mem_cons_of_mem _ hp)) hfields
      exact ⟨rfl, hst⟩

/-- **A value that is a piece of a text.** An empty value before other fields and a last one has
the text of a value that takes the other fields in. -/
theorem fields_shift (name last x rest : List α) (parts : List (List α × List α)) :
    fields sep sign ((name, []) :: parts ++ [(last, x ++ rest)]) =
      fields sep sign [(name, fields sep sign parts ++ field sep sign (last, x))] ++ rest := by
  simp [field, fields_append, List.append_assoc]

end IncidentRelay.FieldText
