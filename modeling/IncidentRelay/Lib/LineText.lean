import Mathlib.Data.List.Basic

/-!
# Lines behind a free text

A text is written before lines that are each ended by a separator. The text may have
separators in it, the lines may not: then they are read from the end.

 * `behind_inj`: a text and as many lines behind it are read back.
 * `labelled_inj`: lines that alternate between labels and values give the values.
-/

namespace IncidentRelay.LineText

variable {α : Type*} (sep : α)

/-- The lines, a separator behind each. -/
def ended (lines : List (List α)) : List α := lines.flatMap (· ++ [sep])

@[simp] theorem ended_nil : ended sep ([] : List (List α)) = [] := rfl

theorem ended_cons (line : List α) (lines : List (List α)) :
    ended sep (line :: lines) = line ++ sep :: ended sep lines := by
  unfold ended
  rw [List.flatMap_cons, List.append_assoc, List.singleton_append]

theorem ended_append (lines lines' : List (List α)) :
    ended sep (lines ++ lines') = ended sep lines ++ ended sep lines' := List.flatMap_append

variable {sep}

/-- Lines without a separator are split where they end. -/
theorem splitOn_ended [DecidableEq α] {lines : List (List α)} (h : ∀ line ∈ lines, sep ∉ line) :
    (ended sep lines).splitOn sep = lines ++ [[]] := by
  induction lines with
  | nil => rfl
  | cons line lines ih =>
    obtain ⟨hline, hlines⟩ := List.forall_mem_cons.mp h
    rw [ended_cons, List.splitOn_append_cons_self_of_not_mem hline, ih hlines, List.cons_append]

/-- **A text and the lines behind it are read back**, if as many lines are read. -/
theorem behind_inj [DecidableEq α] {text text' : List α} {lines lines' : List (List α)}
    (h : ∀ line ∈ lines, sep ∉ line) (h' : ∀ line ∈ lines', sep ∉ line)
    (hlength : lines.length = lines'.length)
    (heq : text ++ sep :: ended sep lines = text' ++ sep :: ended sep lines') :
    text = text' ∧ lines = lines' := by
  have hsplit := congrArg (List.splitOn sep) heq
  rw [List.splitOn_append_cons_self, List.splitOn_append_cons_self, splitOn_ended h,
    splitOn_ended h', ← List.append_assoc, ← List.append_assoc] at hsplit
  obtain ⟨htext, hlines⟩ := List.append_inj' (List.append_cancel_right hsplit) hlength
  refine ⟨?_, hlines⟩
  calc text
    _ = [sep].intercalate (text.splitOn sep) := (List.intercalate_splitOn sep).symm
    _ = [sep].intercalate (text'.splitOn sep) := by rw [htext]
    _ = text' := List.intercalate_splitOn sep

/-! ## Labels and values -/

variable {N : Type*} (label : N → List α)

/-- A line for the label and a line for the value of each name. -/
def labelled (names : List N) (value : N → List α) : List (List α) :=
  names.flatMap fun n => [label n, value n]

theorem labelled_cons (n : N) (names : List N) (value : N → List α) :
    labelled label (n :: names) value = label n :: value n :: labelled label names value := rfl

theorem labelled_append (names names' : List N) (value : N → List α) :
    labelled label (names ++ names') value =
      labelled label names value ++ labelled label names' value := List.flatMap_append

/-- There are two lines for each name. -/
theorem length_labelled (names : List N) (value : N → List α) :
    (labelled label names value).length = 2 * names.length := by
  induction names with
  | nil => rfl
  | cons n names ih =>
    rw [labelled_cons, List.length_cons, List.length_cons, ih, List.length_cons]
    omega

/-- What holds of all lines holds of the labels and of the values. -/
theorem forall_mem_labelled {names : List N} {value : N → List α} {P : List α → Prop} :
    (∀ line ∈ labelled label names value, P line) ↔ ∀ n ∈ names, P (label n) ∧ P (value n) := by
  induction names with
  | nil => simp [labelled]
  | cons n names ih =>
    rw [labelled_cons, List.forall_mem_cons, List.forall_mem_cons, ih, List.forall_mem_cons, and_assoc]

/-- **Lines with the same labels have the same values.** -/
theorem labelled_inj {names : List N} {value value' : N → List α}
    (h : labelled label names value = labelled label names value') :
    ∀ n ∈ names, value n = value' n := by
  induction names with
  | nil => exact fun _ hn => absurd hn List.not_mem_nil
  | cons n names ih =>
    rw [labelled_cons, labelled_cons] at h
    obtain ⟨-, hrest⟩ := List.cons.inj h
    obtain ⟨hvalue, hrest⟩ := List.cons.inj hrest
    exact List.forall_mem_cons.mpr ⟨hvalue, ih hrest⟩

end IncidentRelay.LineText
