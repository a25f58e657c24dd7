import Mathlib.Data.List.Basic
import Mathlib.Tactic.Common

/-!
# JSON values and dictionaries

The values that travel through the service are what a JSON parser returns.
Objects keep their keys in insertion order, as the dictionaries of the source
do, so that the printed form of a value is a function of the value. A float is
carried as the text of its `repr`, which determines it.

A dictionary is an association list. `Dict.set` overwrites in place or appends,
`Dict.pop` removes; `Dict.get_set_self` and `Dict.get_set_of_ne` are all that
later proofs need about them.
-/

namespace IncidentRelay

/-- The characters of the `repr` of an integer. -/
def integerChars : List Char := "-0123456789".toList

/-- The characters of the `repr` of a float. -/
def floatChars : List Char := integerChars ++ "+.einfa".toList

/-- The `repr` of a float: it is not the one of an integer. -/
structure FloatText where
  text : String
  chars : text.toList.all (· ∈ floatChars) = true
  not_integer : text.toList.any (· ∉ integerChars) = true
  deriving DecidableEq, Repr

inductive Json where
  | null
  | bool (b : Bool)
  | int (n : Int)
  | float (t : FloatText)
  | str (s : String)
  | list (xs : List Json)
  | obj (kvs : List (String × Json))
  deriving Repr, Inhabited

/-- A JSON object, keys in insertion order. -/
abbrev Dict := List (String × Json)

namespace Json

/-! ## Decidable equality -/

mutual
def beq : Json → Json → Bool
  | .null, .null => true
  | .bool a, .bool b => a == b
  | .int a, .int b => a == b
  | .float a, .float b => a == b
  | .str a, .str b => a == b
  | .list xs, .list ys => beqList xs ys
  | .obj xs, .obj ys => beqObj xs ys
  | _, _ => false

def beqList : List Json → List Json → Bool
  | [], [] => true
  | x :: xs, y :: ys => beq x y && beqList xs ys
  | _, _ => false

def beqObj : Dict → Dict → Bool
  | [], [] => true
  | (k, x) :: xs, (l, y) :: ys => k == l && beq x y && beqObj xs ys
  | _, _ => false
end

mutual
/-- **The comparison decides equality.** By induction on the value, with its items and entries.
-/
theorem beq_iff : ∀ a b : Json, beq a b = true ↔ a = b
  | .null, b => by cases b <;> simp [beq]
  | .bool a, b => by cases b <;> simp [beq]
  | .int a, b => by cases b <;> simp [beq]
  | .float a, b => by cases b <;> simp [beq]
  | .str a, b => by cases b <;> simp [beq]
  | .list xs, b => by cases b <;> simp [beq, beqList_iff xs]
  | .obj xs, b => by cases b <;> simp [beq, beqObj_iff xs]

theorem beqList_iff : ∀ xs ys : List Json, beqList xs ys = true ↔ xs = ys
  | [], ys => by cases ys <;> simp [beqList]
  | x :: xs, ys => by cases ys <;> simp [beqList, beq_iff x, beqList_iff xs]

/-- On the entries of an object. -/
theorem beqObj_iff : ∀ xs ys : Dict, beqObj xs ys = true ↔ xs = ys
  | [], ys => by cases ys <;> simp [beqObj]
  | (k, x) :: xs, ys => by
    rcases ys with _ | ⟨⟨l, y⟩, ys⟩
    · simp [beqObj]
    · simp [beqObj, beq_iff x, beqObj_iff xs, and_assoc]
end

instance : DecidableEq Json := fun a b => decidable_of_iff _ (beq_iff a b)

/-! ## Truth value and text -/

/-- `bool(value)`. -/
def truthy : Json → Bool
  | .null => false
  | .bool b => b
  | .int n => n != 0
  | .float t => t.text != "0.0" && t.text != "-0.0"
  | .str s => s != ""
  | .list xs => !xs.isEmpty
  | .obj kvs => !kvs.isEmpty

/-- `value or fallback`. -/
def orElse (value fallback : Json) : Json :=
  if value.truthy then value else fallback

/-- The dictionary behind an object, and `{}` behind anything else. -/
def asDict : Json → Dict
  | .obj kvs => kvs
  | _ => []

end Json

namespace Dict

/-- `data.get(key)`. -/
def get (d : Dict) (key : String) : Option Json :=
  (d.find? fun kv => kv.1 == key).map Prod.snd

/-- `data.get(key)` with Python's `None` for a missing key. -/
def getD (d : Dict) (key : String) : Json :=
  (d.get key).getD .null

/-- `key in data`. -/
def has (d : Dict) (key : String) : Bool :=
  d.any fun kv => kv.1 == key

/-- `data[key] = value`: in place when the key is there, at the end otherwise. -/
def set (d : Dict) (key : String) (value : Json) : Dict :=
  match d with
  | [] => [(key, value)]
  | (k, v) :: rest => if k == key then (k, value) :: rest else (k, v) :: set rest key value

/-- `data.pop(key, None)`. -/
def pop (d : Dict) (key : String) : Dict :=
  d.filter fun kv => kv.1 != key

/-- `data.setdefault(key, value)`. -/
def setdefault (d : Dict) (key : String) (value : Json) : Dict :=
  if d.has key then d else d.set key value

@[simp] theorem get_nil (key : String) : get [] key = none := rfl

/-- The first entry with the key counts. -/
theorem get_cons (k : String) (v : Json) (rest : Dict) (key : String) :
    get ((k, v) :: rest) key = if k = key then some v else get rest key := by
  unfold get
  rw [List.find?_cons]
  by_cases h : k = key
  · simp [h]
  · have hb : (k == key) = false := by simpa using h
    simp [hb, h]

/-- A key that is set has the value. -/
@[simp] theorem get_set_self (d : Dict) (key : String) (value : Json) :
    (d.set key value).get key = some value := by
  induction d with
  | nil => simp [set, get_cons]
  | cons kv rest ih =>
    obtain ⟨k, v⟩ := kv
    by_cases h : k = key <;> simp [set, get_cons, h, ih]

/-- Other keys keep theirs. -/
theorem get_set_of_ne (d : Dict) {key other : String} (value : Json) (h : other ≠ key) :
    (d.set key value).get other = d.get other := by
  induction d with
  | nil => simp [set, get_cons, h.symm]
  | cons kv rest ih =>
    obtain ⟨k, v⟩ := kv
    by_cases hk : k = key
    · simp [set, get_cons, hk, h.symm]
    · by_cases ho : k = other <;> simp [set, get_cons, hk, ho, ih, h]

/-- An entry that is there already. -/
theorem set_eq_self_iff (d : Dict) (key : String) (value : Json) :
    d.set key value = d ↔ d.get key = some value := by
  constructor
  · intro h
    rw [← h, get_set_self]
  · intro h
    induction d with
    | nil => cases h
    | cons kv rest ih =>
      obtain ⟨k, v⟩ := kv
      rw [get_cons] at h
      by_cases hk : k = key
      · rw [if_pos hk] at h
        cases h
        simp [set, hk]
      · rw [if_neg hk] at h
        simp [set, hk, ih h]

/-- A key that is removed is the only one. -/
theorem get_pop_of_ne (d : Dict) {key other : String} (h : other ≠ key) :
    (d.pop key).get other = d.get other := by
  induction d with
  | nil => rfl
  | cons kv rest ih =>
    obtain ⟨k, v⟩ := kv
    unfold pop at ih ⊢
    by_cases hk : k = key
    · subst hk
      simp [get_cons, h.symm, ih]
    · by_cases ho : k = other <;> simp [get_cons, hk, ho, ih, h]

@[simp] theorem get_pop_self (d : Dict) (key : String) : (d.pop key).get key = none := by
  unfold get pop
  simp [List.find?_eq_none]

end Dict

end IncidentRelay
