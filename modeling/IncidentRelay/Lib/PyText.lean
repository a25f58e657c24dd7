import IncidentRelay.Lib.PyRepr
import IncidentRelay.Lib.Reorder

/-!
# Text functions of the standard library

`strip`, `lower`, `upper`, `split` and `json.dumps` on the values of
`IncidentRelay.Json`. Texts that start and end with a character that is no white
space are what `strip` returns (`strip_eq_self`).

`lower` and `upper` map the ASCII letters and the characters whose lower case
contains an ASCII letter. Every other character stands for itself: the results
are compared with ASCII words, or have their other characters replaced.
-/

namespace IncidentRelay

/-! ## Characters -/

/-- `str.isspace` of one character. -/
def isSpace (c : Char) : Bool :=
  let n := c.toNat
  (9 ≤ n && n ≤ 13) || (28 ≤ n && n ≤ 32) || n == 0x85 || n == 0xA0 || n == 0x1680 ||
    (0x2000 ≤ n && n ≤ 0x200A) || n == 0x2028 || n == 0x2029 || n == 0x202F || n == 0x205F ||
    n == 0x3000

def lowerChar (c : Char) : List Char :=
  if c = Char.ofNat 0x212A then ['k']
  else if c = Char.ofNat 0x130 then ['i', Char.ofNat 0x307]
  else [c.toLower]

/-! ## Strings -/

/-- Drops a kind of character at both ends. -/
def trimBy (p : Char → Bool) (text : List Char) : List Char :=
  ((text.dropWhile p).reverse.dropWhile p).reverse

/-- `s.strip()`. -/
def strip (s : String) : String := String.ofList (trimBy isSpace s.toList)

/-- `s.lower()`. -/
def lower (s : String) : String := String.ofList (s.toList.flatMap lowerChar)

/-- `s.upper()`. -/
def upper (s : String) : String := s.map Char.toUpper

/-- `s[:n]`. -/
def takeText (s : String) (n : Nat) : String := String.ofList (s.toList.take n)

/-- A text that neither starts nor ends with such a character is kept. -/
theorem trimBy_eq_self {p : Char → Bool} {text : List Char} (hhead : ∀ c ∈ text.head?, p c = false)
    (hlast : ∀ c ∈ text.getLast?, p c = false) : trimBy p text = text := by
  have hdrop : ∀ xs : List Char, (∀ c ∈ xs.head?, p c = false) → xs.dropWhile p = xs := by
    intro xs hxs
    cases xs with
    | nil => rfl
    | cons c xs =>
      have hc : p c = false := hxs c rfl
      rw [List.dropWhile_cons, hc]
      rfl
  unfold trimBy
  rw [hdrop text hhead, hdrop text.reverse (by rwa [List.head?_reverse]), List.reverse_reverse]

theorem strip_eq_self {s : String} (hhead : ∀ c ∈ s.toList.head?, isSpace c = false)
    (hlast : ∀ c ∈ s.toList.getLast?, isSpace c = false) : strip s = s := by
  rw [strip, trimBy_eq_self hhead hlast, String.ofList_toList]

/-- A trimmed text starts with no such character. -/
theorem head_trimBy (p : Char → Bool) (text : List Char) :
    ∀ c ∈ (trimBy p text).head?, p c = false := by
  intro c hc
  unfold trimBy at hc
  rw [List.head?_reverse] at hc
  -- the last character of a suffix is the last character of the text it is cut from
  have hsuffix : ((text.dropWhile p).reverse.dropWhile p) <:+ (text.dropWhile p).reverse :=
    List.dropWhile_suffix p
  obtain ⟨front, hfront⟩ := hsuffix
  have hlast : (text.dropWhile p).reverse.getLast? = some c := by
    rw [← hfront, List.getLast?_append, hc]
    rfl
  rw [List.getLast?_reverse] at hlast
  have := List.head?_dropWhile_not p text
  rw [hlast] at this
  simpa using this

theorem getLast_trimBy (p : Char → Bool) (text : List Char) :
    ∀ c ∈ (trimBy p text).getLast?, p c = false := by
  intro c hc
  unfold trimBy at hc
  rw [List.getLast?_reverse] at hc
  have := List.head?_dropWhile_not p (text.dropWhile p).reverse
  rw [hc] at this
  simpa using this

/-- Stripping twice is stripping once. -/
theorem strip_strip (s : String) : strip (strip s) = strip s := by
  have htext : (strip s).toList = trimBy isSpace s.toList := by
    rw [strip, String.toList_ofList]
  apply strip_eq_self
  · rw [htext]
    exact head_trimBy isSpace s.toList
  · rw [htext]
    exact getLast_trimBy isSpace s.toList

/-! ## Texts of lists and objects -/

namespace Json

/-- A list is closed. -/
theorem getLast_reprItems (xs : List Json) (first : Bool) :
    (reprItems first xs).getLast? = some closeBracket := by
  induction xs generalizing first with
  | nil => rfl
  | cons x xs ih =>
    rw [reprItems, List.getLast?_append, List.getLast?_append, ih false]
    rfl

theorem getLast_reprEntries (kvs : Dict) (first : Bool) :
    (reprEntries first kvs).getLast? = some closeBrace := by
  induction kvs generalizing first with
  | nil => rfl
  | cons kv kvs ih =>
    obtain ⟨k, x⟩ := kv
    rw [reprEntries, List.getLast?_append, List.getLast?_append, List.getLast?_cons_cons,
      List.getLast?_cons, List.getLast?_append, ih false]
    rfl

/-- Nothing is stripped from the text of a list or an object. -/
theorem strip_repr_of_not_rigid {v : Json} (h : rigid v = false) : strip v.repr = v.repr := by
  cases v with
  | list xs =>
    apply strip_eq_self
    · rw [repr, String.toList_ofList]
      intro c hc
      obtain rfl : openBracket = c := by simpa [reprChars] using hc
      decide
    · rw [repr, String.toList_ofList, reprChars, List.getLast?_cons, getLast_reprItems]
      intro c hc
      obtain rfl : closeBracket = c := by simpa using hc
      decide
  | obj kvs =>
    apply strip_eq_self
    · rw [repr, String.toList_ofList]
      intro c hc
      obtain rfl : openBrace = c := by simpa [reprChars] using hc
      decide
    · rw [repr, String.toList_ofList, reprChars, List.getLast?_cons, getLast_reprEntries]
      intro c hc
      obtain rfl : closeBrace = c := by simpa using hc
      decide
  | _ => cases h

end Json

/-! ## `json.dumps` -/

namespace Json

structure Format where
  itemSeparator : String := ", "
  keySeparator : String := ": "
  sortKeys : Bool := false

def hexDigit (n : Nat) : Char := Nat.digitChar (n % 16)

/-- The escapes of `json.dumps(…, ensure_ascii=False)`. -/
def jsonEscape (c : Char) : List Char :=
  if c = doubleQuote then [backslash, doubleQuote]
  else if c = backslash then [backslash, backslash]
  else if c = '\n' then [backslash, 'n']
  else if c = '\r' then [backslash, 'r']
  else if c = '\t' then [backslash, 't']
  else if c = Char.ofNat 8 then [backslash, 'b']
  else if c = Char.ofNat 12 then [backslash, 'f']
  else if c.toNat < 32 then [backslash, 'u', '0', '0', hexDigit (c.toNat / 16), hexDigit c.toNat]
  else [c]

def jsonString (s : String) : String :=
  String.ofList (doubleQuote :: (s.toList.flatMap jsonEscape ++ [doubleQuote]))

def jsonFloat (t : FloatText) : String :=
  if t.text = "nan" then "NaN"
  else if t.text = "inf" then "Infinity"
  else if t.text = "-inf" then "-Infinity"
  else t.text

/-- The entries of an object, by key when the format says so. -/
def Format.arrange (fmt : Format) (entries : List (String × String)) : List (String × String) :=
  if fmt.sortKeys then entries.mergeSort fun a b => decide (a.1 ≤ b.1) else entries

def Format.entry (fmt : Format) (kv : String × String) : String :=
  jsonString kv.1 ++ fmt.keySeparator ++ kv.2

mutual
/-- `json.dumps(value, ensure_ascii=False, …)`. -/
def dumps (fmt : Format) : Json → String
  | .null => "null"
  | .bool true => "true"
  | .bool false => "false"
  | .int n => String.ofList (integerRepr n)
  | .float t => jsonFloat t
  | .str s => jsonString s
  | .list xs => "[" ++ fmt.itemSeparator.intercalate (dumpsItems fmt xs) ++ "]"
  | .obj kvs =>
    "\x7b" ++ fmt.itemSeparator.intercalate ((fmt.arrange (dumpsEntries fmt kvs)).map fmt.entry) ++
      "\x7d"

def dumpsItems (fmt : Format) : List Json → List String
  | [] => []
  | x :: xs => dumps fmt x :: dumpsItems fmt xs

def dumpsEntries (fmt : Format) : Dict → List (String × String)
  | [] => []
  | (k, x) :: kvs => (k, dumps fmt x) :: dumpsEntries fmt kvs
end

end Json

end IncidentRelay
