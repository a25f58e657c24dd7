import IncidentRelay.Lib.Calendar
import Mathlib.Algebra.Order.Ring.Nat
import Mathlib.Tactic.Common
import Mathlib.Tactic.IntervalCases

/-!
# Texts of dates

Numbers of a fixed width, and the two texts of a time in UTC: the extended one of
`datetime.isoformat` and the basic one of `%Y%m%dT%H%M%SZ`, which has no fraction. Each text is
read back (`readExtended_extended`, `readBasic_basic`).
-/

namespace IncidentRelay.DateText

/-! ## Numbers -/

/-- The last digits of a number. -/
def digits : ℕ → ℕ → List Char
  | 0, _ => []
  | width + 1, n => digits width (n / 10) ++ [Nat.digitChar (n % 10)]

def readDigit (n : ℕ) (c : Char) : Option ℕ :=
  if c.isDigit then some (10 * n + (c.toNat - '0'.toNat)) else none

def readDigits (text : List Char) : Option ℕ := text.foldlM readDigit 0

@[simp] theorem length_digits (width n : ℕ) : (digits width n).length = width := by
  induction width generalizing n with
  | zero => rfl
  | succ width ih => rw [digits, List.length_append, ih, List.length_singleton]

/-- A digit is read as what it stands for. -/
theorem readDigit_digitChar {d : ℕ} (h : d < 10) (n : ℕ) :
    readDigit n (Nat.digitChar d) = some (10 * n + d) := by
  unfold readDigit
  have hchar : (Nat.digitChar d).isDigit = true ∧ (Nat.digitChar d).toNat - '0'.toNat = d := by
    interval_cases d <;> decide
  rw [if_pos hchar.1, hchar.2]

/-- **A number that fits its width is read back.** -/
theorem readDigits_digits {width n : ℕ} (h : n < 10 ^ width) : readDigits (digits width n) = some n := by
  induction width generalizing n with
  | zero => rw [Nat.lt_one_iff.mp h]; rfl
  | succ width ih =>
    have hinit : n / 10 < 10 ^ width := Nat.div_lt_of_lt_mul (by rwa [pow_succ'] at h)
    rw [digits, readDigits, List.foldlM_append]
    show (readDigits (digits width (n / 10))).bind _ = _
    rw [ih hinit, Option.bind_some, List.foldlM_cons,
      readDigit_digitChar (Nat.mod_lt n (by decide))]
    show some _ = _
    rw [Nat.div_add_mod]

/-- The characters of a number. -/
theorem isDigit_of_mem_digits {width n : ℕ} {c : Char} (h : c ∈ digits width n) : c.isDigit = true := by
  induction width generalizing n with
  | zero => exact absurd h List.not_mem_nil
  | succ width ih =>
    rcases List.mem_append.mp h with hmem | hmem
    · exact ih hmem
    · rw [List.mem_singleton.mp hmem, Nat.isDigit_digitChar]
      exact decide_eq_true (Nat.mod_lt n (by decide))

/-! ## Fields -/

/-- A number of a width and the text that stands behind it. -/
def readField (width : ℕ) (sep text : List Char) : Option (ℕ × List Char) :=
  (readDigits (text.take width)).bind fun n =>
    if sep.isPrefixOf (text.drop width) then some (n, (text.drop width).drop sep.length) else none

/-- A field is read up to its separator. -/
theorem readField_append {width n : ℕ} (h : n < 10 ^ width) (sep rest : List Char) :
    readField width sep (digits width n ++ (sep ++ rest)) = some (n, rest) := by
  have htake : (digits width n ++ (sep ++ rest)).take width = digits width n := by
    rw [List.take_append_of_le_length (length_digits width n).ge,
      List.take_of_length_le (length_digits width n).le]
  have hdrop : (digits width n ++ (sep ++ rest)).drop width = sep ++ rest := by
    rw [List.drop_append_of_le_length (length_digits width n).ge,
      List.drop_of_length_le (length_digits width n).le, List.nil_append]
  unfold readField
  rw [htake, hdrop, readDigits_digits h, Option.bind_some,
    if_pos (List.isPrefixOf_iff_prefix.mpr (List.prefix_append sep rest)), List.drop_left]

/-! ## Times -/

structure DateFields where
  year : ℕ
  month : ℕ
  day : ℕ
  hour : ℕ
  minute : ℕ
  second : ℕ
  microsecond : ℕ
  deriving DecidableEq

/-- The fields are those of a time, in a year of four digits. -/
structure DateFields.Valid (t : DateFields) : Prop where
  year : 1000 ≤ t.year ∧ t.year ≤ 9999
  month : 1 ≤ t.month ∧ t.month ≤ 12
  day : 1 ≤ t.day ∧ (t.day : ℤ) ≤ Calendar.daysInMonth (12 * t.year + t.month - 1)
  hour : t.hour < 24
  minute : t.minute < 60
  second : t.second < 60
  microsecond : t.microsecond < 1000000

instance (t : DateFields) : Decidable t.Valid :=
  decidable_of_iff ((1000 ≤ t.year ∧ t.year ≤ 9999) ∧ (1 ≤ t.month ∧ t.month ≤ 12) ∧
      (1 ≤ t.day ∧ (t.day : ℤ) ≤ Calendar.daysInMonth (12 * t.year + t.month - 1)) ∧
      t.hour < 24 ∧ t.minute < 60 ∧ t.second < 60 ∧ t.microsecond < 1000000)
    ⟨fun ⟨h₁, h₂, h₃, h₄, h₅, h₆, h₇⟩ => ⟨h₁, h₂, h₃, h₄, h₅, h₆, h₇⟩,
      fun ⟨h₁, h₂, h₃, h₄, h₅, h₆, h₇⟩ => ⟨h₁, h₂, h₃, h₄, h₅, h₆, h₇⟩⟩

/-- A time in UTC. -/
structure UtcDateTime where
  fields : DateFields
  valid : fields.Valid
  deriving DecidableEq

def DateFields.time? (t : DateFields) : Option UtcDateTime := if h : t.Valid then some ⟨t, h⟩ else none

theorem time?_fields (t : UtcDateTime) : t.fields.time? = some t := dif_pos t.valid

/-- The bounds that the widths of the texts need. -/
theorem fields_lt (t : UtcDateTime) :
    t.fields.year < 10 ^ 4 ∧ t.fields.month < 10 ^ 2 ∧ t.fields.day < 10 ^ 2 ∧ t.fields.hour < 10 ^ 2 ∧
      t.fields.minute < 10 ^ 2 ∧ t.fields.second < 10 ^ 2 ∧ t.fields.microsecond < 10 ^ 6 := by
  obtain ⟨hyear, hmonth, hday, hhour, hminute, hsecond, hmicrosecond⟩ := t.valid
  have hlast := Calendar.daysInMonth_le (12 * t.fields.year + t.fields.month - 1)
  refine ⟨by omega, by omega, by omega, by omega, by omega, by omega, by omega⟩

/-- The date and the clock. -/
def stem (t : UtcDateTime) : List Char :=
  digits 4 t.fields.year ++ (['-'] ++ (digits 2 t.fields.month ++ (['-'] ++ (digits 2 t.fields.day ++
    (['T'] ++ (digits 2 t.fields.hour ++ ([':'] ++ (digits 2 t.fields.minute ++ ([':'] ++
      (digits 2 t.fields.second ++ ([] ++
        if t.fields.microsecond = 0 then [] else '.' :: digits 6 t.fields.microsecond)))))))))))

/-- `value.isoformat()` -/
def extended (t : UtcDateTime) : List Char := stem t ++ "+00:00".toList

theorem ne_plus_of_mem_digits {width n : ℕ} : '+' ∉ digits width n :=
  fun h => absurd (isDigit_of_mem_digits h) (by decide)

/-- Only the offset has a sign. -/
theorem not_mem_stem (t : UtcDateTime) : '+' ∉ stem t := by
  have hfraction : '+' ∉ (if t.fields.microsecond = 0 then [] else '.' :: digits 6 t.fields.microsecond) := by
    split_ifs
    · exact List.not_mem_nil
    · exact List.not_mem_cons_of_ne_of_not_mem (by decide) ne_plus_of_mem_digits
  unfold stem
  simp only [List.mem_append, ne_plus_of_mem_digits, hfraction, or_false, false_or]
  decide

/-- `datetime.fromisoformat(text)` for the texts of `isoformat` with the offset of UTC. -/
def readExtended (text : List Char) : Option UtcDateTime := do
  let (year, text) ← readField 4 ['-'] text
  let (month, text) ← readField 2 ['-'] text
  let (day, text) ← readField 2 ['T'] text
  let (hour, text) ← readField 2 [':'] text
  let (minute, text) ← readField 2 [':'] text
  let (second, text) ← readField 2 [] text
  if text = "+00:00".toList then
    DateFields.time? ⟨year, month, day, hour, minute, second, 0⟩
  else
    match text with
    | '.' :: text =>
      let (microsecond, text) ← readField 6 "+00:00".toList text
      if text = [] then DateFields.time? ⟨year, month, day, hour, minute, second, microsecond⟩ else none
    | _ => none

/-- The extended format is read back. -/
theorem readExtended_extended (t : UtcDateTime) : readExtended (extended t) = some t := by
  obtain ⟨hyear, hmonth, hday, hhour, hminute, hsecond, hmicrosecond⟩ := fields_lt t
  unfold readExtended extended stem
  simp only [List.append_assoc, readField_append hyear, readField_append hmonth, readField_append hday,
    readField_append hhour, readField_append hminute, readField_append hsecond, Option.bind_eq_bind,
    Option.bind_some]
  split_ifs with hzero hnone hoffset
  · rw [← hzero]
    exact time?_fields t
  · exact absurd rfl hnone
  · -- a fraction does not read as an offset
    exact absurd (List.cons.inj hoffset).1 (by decide)
  · show ((readField 6 "+00:00".toList (digits 6 t.fields.microsecond ++ ("+00:00".toList ++ []))).bind _) = _
    rw [readField_append hmicrosecond]
    exact time?_fields t

/-- `value.strftime("%Y%m%dT%H%M%SZ")` -/
def basic (t : UtcDateTime) : List Char :=
  digits 4 t.fields.year ++ ([] ++ (digits 2 t.fields.month ++ ([] ++ (digits 2 t.fields.day ++
    (['T'] ++ (digits 2 t.fields.hour ++ ([] ++ (digits 2 t.fields.minute ++ ([] ++
      (digits 2 t.fields.second ++ (['Z'] ++ [])))))))))))

/-- The DATE-TIME of a calendar, in UTC. -/
def readBasic (text : List Char) : Option UtcDateTime := do
  let (year, text) ← readField 4 [] text
  let (month, text) ← readField 2 [] text
  let (day, text) ← readField 2 ['T'] text
  let (hour, text) ← readField 2 [] text
  let (minute, text) ← readField 2 [] text
  let (second, text) ← readField 2 ['Z'] text
  if text = [] then DateFields.time? ⟨year, month, day, hour, minute, second, 0⟩ else none

/-- The time without its fraction. -/
def wholeSecond (t : UtcDateTime) : UtcDateTime where
  fields := { t.fields with microsecond := 0 }
  valid := { t.valid with microsecond := show 0 < 1000000 by decide }

/-- What the basic format drops is the part below the second. -/
theorem wholeSecond_eq_iff (t : UtcDateTime) : wholeSecond t = t ↔ t.fields.microsecond = 0 := by
  constructor
  · intro h
    exact (congrArg (fun t => t.fields.microsecond) h).symm
  · intro h
    obtain ⟨fields, valid⟩ := t
    cases fields
    cases h
    rfl

theorem readBasic_basic (t : UtcDateTime) : readBasic (basic t) = some (wholeSecond t) := by
  obtain ⟨hyear, hmonth, hday, hhour, hminute, hsecond, -⟩ := fields_lt t
  unfold readBasic basic
  simp only [readField_append hyear, readField_append hmonth, readField_append hday,
    readField_append hhour, readField_append hminute, readField_append hsecond, Option.bind_eq_bind,
    Option.bind_some]
  exact time?_fields (wholeSecond t)

end IncidentRelay.DateText
