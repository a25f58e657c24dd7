import IncidentRelay.Lib.Json
import Mathlib.Tactic.IntervalCases

/-!
# The printed form of a value

`reprChars` is `repr` on the values a JSON parser returns. A dictionary prints
its entries in insertion order, a string with the quote it does not contain. A
printed value is self-delimiting before a comma, a bracket or the end
(`reprChars_cancel`), so the printed form determines the value, the order of the
keys included (`repr_injective`).

`repr` also escapes the characters it calls unprintable; here they stand for
themselves, and nothing depends on the difference.
-/

namespace IncidentRelay.Json

/-! ## Scalars -/

/-- The apostrophe. -/
def singleQuote : Char := Char.ofNat 39

/-- The quotation mark. -/
def doubleQuote : Char := Char.ofNat 34

def backslash : Char := Char.ofNat 92

def openBracket : Char := Char.ofNat 91

def closeBracket : Char := Char.ofNat 93

def openBrace : Char := Char.ofNat 123

def closeBrace : Char := Char.ofNat 125

def integerRepr : Int → List Char
  | .ofNat n => Nat.toDigits 10 n
  | .negSucc n => '-' :: Nat.toDigits 10 (n + 1)

/-- Single quotes, unless the text contains one and no double quote. -/
def quoteOf (text : List Char) : Char :=
  if singleQuote ∈ text ∧ doubleQuote ∉ text then doubleQuote else singleQuote

/-- What stands after the backslash for a character that is escaped. -/
def escapeLetter (quote c : Char) : Option Char :=
  if c = backslash then some backslash
  else if c = quote then some quote
  else if c = '\n' then some 'n'
  else if c = '\r' then some 'r'
  else if c = '\t' then some 't'
  else none

def escape (quote c : Char) : List Char :=
  match escapeLetter quote c with
  | some letter => [backslash, letter]
  | none => [c]

def stringRepr (text : List Char) : List Char :=
  quoteOf text :: (text.flatMap (escape (quoteOf text)) ++ [quoteOf text])

/-! ## Values -/

mutual
def reprChars : Json → List Char
  | .null => "None".toList
  | .bool true => "True".toList
  | .bool false => "False".toList
  | .int n => integerRepr n
  | .float t => t.text.toList
  | .str s => stringRepr s.toList
  | .list xs => openBracket :: reprItems true xs
  | .obj kvs => openBrace :: reprEntries true kvs

/-- The items of a list and its closing bracket; a comma stands before each item
but the first. -/
def reprItems (first : Bool) : List Json → List Char
  | [] => [closeBracket]
  | x :: xs => (if first then [] else [',', ' ']) ++ (reprChars x ++ reprItems false xs)

/-- The entries of a dictionary and its closing brace. -/
def reprEntries (first : Bool) : Dict → List Char
  | [] => [closeBrace]
  | (k, x) :: kvs =>
    (if first then [] else [',', ' ']) ++
      (stringRepr k.toList ++ (':' :: ' ' :: (reprChars x ++ reprEntries false kvs)))
end

/-- `repr(value)`. -/
def repr (v : Json) : String := String.ofList (reprChars v)

/-- `str(value)`. -/
def pyStr : Json → String
  | .str s => s
  | v => repr v

/-! ## Numbers -/

/-- An integer is written with digits and a sign. -/
theorem integerRepr_chars (n : Int) : ∀ c ∈ integerRepr n, c ∈ integerChars := by
  have hdigit : ∀ (k : Nat), ∀ c ∈ Nat.toDigits 10 k, c ∈ integerChars := by
    intro k c hc
    have h := Nat.isDigit_of_mem_toDigits (by decide) (by decide) hc
    have hrange : 48 ≤ c.toNat ∧ c.toNat ≤ 57 := by
      simp only [Char.isDigit, Bool.and_eq_true, decide_eq_true_eq, UInt32.le_iff_toNat_le] at h
      exact h
    have hof : c = Char.ofNat c.toNat := (Char.ofNat_toNat c).symm
    generalize c.toNat = m at hrange hof
    obtain ⟨h₁, h₂⟩ := hrange
    rw [hof]
    interval_cases m <;> decide
  intro c hc
  cases n with
  | ofNat n => exact hdigit n c hc
  | negSucc n =>
    rcases List.mem_cons.mp hc with rfl | hc
    · decide
    · exact hdigit _ c hc

theorem integerRepr_ne_nil (n : Int) : integerRepr n ≠ [] := by
  cases n with
  | ofNat n => exact Nat.toDigits_ne_nil
  | negSucc n => exact List.cons_ne_nil _ _

theorem toDigits_inj {a b : Nat} (h : Nat.toDigits 10 a = Nat.toDigits 10 b) : a = b := by
  rw [← Nat.ofDigitChars_ten_toDigits (n := a), h, Nat.ofDigitChars_ten_toDigits]

/-- No digit is a sign. -/
theorem minus_not_mem_toDigits (a : Nat) : '-' ∉ Nat.toDigits 10 a := by
  intro h
  exact absurd (Nat.isDigit_of_mem_toDigits (by decide) (by decide) h) (by decide)

theorem integerRepr_inj {a b : Int} (h : integerRepr a = integerRepr b) : a = b := by
  cases a with
  | ofNat a =>
    cases b with
    | ofNat b => exact congrArg Int.ofNat (toDigits_inj h)
    -- a sign is no digit
    | negSucc b =>
      have hmem : '-' ∈ Nat.toDigits 10 a := by
        rw [show Nat.toDigits 10 a = _ from h]
        exact List.mem_cons_self
      exact absurd hmem (minus_not_mem_toDigits a)
  | negSucc a =>
    cases b with
    | ofNat b =>
      have hmem : '-' ∈ Nat.toDigits 10 b := by
        rw [show Nat.toDigits 10 b = _ from h.symm]
        exact List.mem_cons_self
      exact absurd hmem (minus_not_mem_toDigits b)
    | negSucc b =>
      have := toDigits_inj (List.cons.inj h).2
      congr
      omega

/-- What stands after a value: nothing, or something that is no part of a number. -/
def Ends (rest : List Char) : Prop := ∀ c ∈ rest.head?, c ∉ floatChars

/-- Two numbers in front of such a rest. -/
theorem number_cancel {x y s t : List Char} (hx : ∀ c ∈ x, c ∈ floatChars)
    (hy : ∀ c ∈ y, c ∈ floatChars) (hs : Ends s) (ht : Ends t) (h : x ++ s = y ++ t) :
    x = y ∧ s = t := by
  -- by induction on the first number; behind a number there is no character of one
  induction x generalizing y with
  | nil =>
    cases y with
    | nil => exact ⟨rfl, h⟩
    | cons c y =>
      rw [List.nil_append] at h
      exact absurd (hy c (by simp)) (hs c (by rw [h]; rfl))
  | cons c x ih =>
    cases y with
    | nil =>
      rw [List.nil_append] at h
      exact absurd (hx c (by simp)) (ht c (by rw [← h]; rfl))
    | cons d y =>
      obtain ⟨hcd, h⟩ := List.cons.inj h
      have hx' : ∀ e ∈ x, e ∈ floatChars := fun e he => hx e (List.mem_cons_of_mem _ he)
      have hy' : ∀ e ∈ y, e ∈ floatChars := fun e he => hy e (List.mem_cons_of_mem _ he)
      obtain ⟨hxy, hst⟩ := ih hx' hy' h
      rw [hcd, hxy]
      exact ⟨rfl, hst⟩

/-! ## Strings -/

/-- A text is written between quotes of one of two kinds. -/
theorem quoteOf_cases (text : List Char) :
    quoteOf text = singleQuote ∨ quoteOf text = doubleQuote := by
  unfold quoteOf
  split
  · exact .inr rfl
  · exact .inl rfl

/-- The letter tells the character. -/
theorem escapeLetter_inj {quote c d letter : Char} (hq : quote = singleQuote ∨ quote = doubleQuote)
    (hc : escapeLetter quote c = some letter) (hd : escapeLetter quote d = some letter) : c = d := by
  have hn : quote ≠ backslash ∧ quote ≠ 'n' ∧ quote ≠ 'r' ∧ quote ≠ 't' := by
    rcases hq with rfl | rfl <;> decide
  have hb : backslash ≠ 'n' ∧ backslash ≠ 'r' ∧ backslash ≠ 't' := by decide
  have hl : 'n' ≠ 'r' ∧ 'n' ≠ 't' ∧ 'r' ≠ 't' := by decide
  unfold escapeLetter at hc hd
  generalize backslash = bs at hn hb hc hd
  grind

/-- A character that stands for itself is no backslash and not the quote. -/
theorem escapeLetter_none {quote c : Char} (h : escapeLetter quote c = none) :
    c ≠ backslash ∧ c ≠ quote := by
  constructor
  · rintro rfl
    simp [escapeLetter] at h
  · rintro rfl
    by_cases hb : c = backslash
    · simp [escapeLetter, hb] at h
    · simp [escapeLetter, hb] at h

/-- An escaped character is not the closing quote. -/
theorem escape_ne_quote {quote : Char} (hq : quote = singleQuote ∨ quote = doubleQuote)
    (c : Char) (s t : List Char) : escape quote c ++ s ≠ quote :: t := by
  intro h
  unfold escape at h
  split at h
  · have hback : backslash = quote := (List.cons.inj h).1
    rcases hq with rfl | rfl
    · exact absurd hback (by decide)
    · exact absurd hback (by decide)
  · rename_i hnone
    exact (escapeLetter_none hnone).2 (List.cons.inj h).1

/-- An escaped character tells its character and leaves the rest. -/
theorem escape_cancel {quote : Char} (hq : quote = singleQuote ∨ quote = doubleQuote)
    {c d : Char} {s t : List Char} (h : escape quote c ++ s = escape quote d ++ t) :
    c = d ∧ s = t := by
  -- whether a character is escaped is seen from the character that follows
  unfold escape at h
  cases hc : escapeLetter quote c with
  | some l =>
    cases hd : escapeLetter quote d with
    | some m =>
      rw [hc, hd] at h
      obtain ⟨hlm, hst⟩ := List.cons.inj (List.cons.inj h).2
      rw [hlm] at hc
      exact ⟨escapeLetter_inj hq hc hd, hst⟩
    | none =>
      rw [hc, hd] at h
      exact absurd (List.cons.inj h).1.symm (escapeLetter_none hd).1
  | none =>
    cases hd : escapeLetter quote d with
    | some m =>
      rw [hc, hd] at h
      exact absurd (List.cons.inj h).1 (escapeLetter_none hc).1
    | none =>
      rw [hc, hd] at h
      exact List.cons.inj h

/-- The quote that ends a text is the first that is not escaped. -/
theorem body_cancel {quote : Char} (hq : quote = singleQuote ∨ quote = doubleQuote)
    (x y s t : List Char)
    (h : x.flatMap (escape quote) ++ quote :: s = y.flatMap (escape quote) ++ quote :: t) :
    x = y ∧ s = t := by
  -- by induction on the first text, which ends where the quote is
  induction x generalizing y with
  | nil =>
    cases y with
    | nil => exact ⟨rfl, (List.cons.inj h).2⟩
    | cons d y =>
      rw [List.flatMap_cons, List.append_assoc, List.flatMap_nil, List.nil_append] at h
      exact absurd h.symm (escape_ne_quote hq d _ _)
  | cons c x ih =>
    cases y with
    | nil =>
      rw [List.flatMap_cons, List.append_assoc, List.flatMap_nil, List.nil_append] at h
      exact absurd h (escape_ne_quote hq c _ _)
    | cons d y =>
      rw [List.flatMap_cons, List.flatMap_cons, List.append_assoc, List.append_assoc] at h
      obtain ⟨hcd, h⟩ := escape_cancel hq h
      obtain ⟨hxy, hst⟩ := ih y h
      rw [hcd, hxy]
      exact ⟨rfl, hst⟩

/-- A string literal is self-delimiting. -/
theorem stringRepr_cancel {x y s t : List Char} (h : stringRepr x ++ s = stringRepr y ++ t) :
    x = y ∧ s = t := by
  unfold stringRepr at h
  rw [List.cons_append, List.cons_append, List.append_assoc, List.append_assoc] at h
  obtain ⟨hq, h⟩ := List.cons.inj h
  rw [hq] at h
  exact body_cancel (quoteOf_cases y) x y s t h

/-! ## A printed value is self-delimiting -/

/-- The kind of a value, told by the first character of its text. -/
inductive Kind where
  | none
  | true
  | false
  | number
  | string
  | list
  | obj
  | stop
  deriving DecidableEq

def kindOf (c : Char) : Kind :=
  if c = 'N' then .none
  else if c = 'T' then .true
  else if c = 'F' then .false
  else if c = singleQuote ∨ c = doubleQuote then .string
  else if c = openBracket then .list
  else if c = openBrace then .obj
  else if c ∈ floatChars then .number
  else .stop

def kind : Json → Kind
  | .null => .none
  | .bool true => .true
  | .bool false => .false
  | .int _ => .number
  | .float _ => .number
  | .str _ => .string
  | .list _ => .list
  | .obj _ => .obj

theorem kindOf_floatChars (c : Char) (hc : c ∈ floatChars) : kindOf c = .number :=
  of_decide_eq_true (List.all_eq_true.mp (by decide : floatChars.all (kindOf · = .number)) c hc)

theorem integerChars_subset (c : Char) (hc : c ∈ integerChars) : c ∈ floatChars :=
  of_decide_eq_true (List.all_eq_true.mp (by decide : integerChars.all (· ∈ floatChars)) c hc)

theorem floatText_mem_floatChars (t : FloatText) : ∀ c ∈ t.text.toList, c ∈ floatChars := by
  intro c hc
  have h := List.all_eq_true.mp t.chars c hc
  simpa using h

/-- No float is written like an integer. -/
theorem floatText_ne_integerRepr (t : FloatText) (n : Int) : t.text.toList ≠ integerRepr n := by
  intro h
  obtain ⟨c, hc, hnot⟩ := List.any_eq_true.mp t.not_integer
  rw [h] at hc
  have := integerRepr_chars n c hc
  simp [this] at hnot

/-- None is written with nothing. -/
theorem floatText_ne_nil (t : FloatText) : t.text.toList ≠ [] := by
  intro h
  have := t.not_integer
  rw [h] at this
  exact absurd this (by decide)

/-- The first character of a printed value. -/
theorem reprChars_head (v : Json) : ∃ c rest, reprChars v = c :: rest ∧ kindOf c = kind v := by
  -- the text of a number begins with a character of numbers
  have hnum : ∀ x : List Char, x ≠ [] → (∀ c ∈ x, c ∈ floatChars) →
      ∃ c rest, x = c :: rest ∧ kindOf c = .number := by
    intro x hne hx
    cases x with
    | nil => exact absurd rfl hne
    | cons c rest => exact ⟨c, rest, rfl, kindOf_floatChars c (hx c List.mem_cons_self)⟩
  cases v with
  | null => exact ⟨'N', "one".toList, rfl, rfl⟩
  | bool b =>
    cases b with
    | true => exact ⟨'T', "rue".toList, rfl, rfl⟩
    | false => exact ⟨'F', "alse".toList, rfl, rfl⟩
  | int n =>
    exact hnum _ (integerRepr_ne_nil n)
      (fun c hc => integerChars_subset c (integerRepr_chars n c hc))
  | float t => exact hnum _ (floatText_ne_nil t) (floatText_mem_floatChars t)
  | str s =>
    refine ⟨quoteOf s.toList, _, rfl, ?_⟩
    rcases quoteOf_cases s.toList with h | h <;> rw [h] <;> rfl
  | list xs => exact ⟨openBracket, reprItems true xs, rfl, rfl⟩
  | obj kvs => exact ⟨openBrace, reprEntries true kvs, rfl, rfl⟩

/-- The first character tells the kind of a value. -/
theorem kind_eq_of_repr {v w : Json} {s t : List Char}
    (h : reprChars v ++ s = reprChars w ++ t) : kind v = kind w := by
  obtain ⟨c, x, hv, hc⟩ := reprChars_head v
  obtain ⟨d, y, hw, hd⟩ := reprChars_head w
  rw [hv, hw] at h
  rw [← hc, ← hd, (List.cons.inj h).1]

/-- Nothing that ends a value is part of a number. -/
theorem ends_comma (rest : List Char) : Ends (',' :: rest) := by
  intro c hc
  obtain rfl : ',' = c := by simpa using hc
  decide

theorem ends_closeBracket (rest : List Char) : Ends (closeBracket :: rest) := by
  intro c hc
  obtain rfl : closeBracket = c := by simpa using hc
  decide

theorem ends_closeBrace (rest : List Char) : Ends (closeBrace :: rest) := by
  intro c hc
  obtain rfl : closeBrace = c := by simpa using hc
  decide

theorem ends_nil : Ends [] := by
  intro c hc
  simp at hc

theorem ends_items (xs : List Json) (s : List Char) : Ends (reprItems false xs ++ s) := by
  cases xs with
  | nil => exact ends_closeBracket s
  | cons x xs => exact ends_comma _

theorem ends_entries (kvs : Dict) (s : List Char) : Ends (reprEntries false kvs ++ s) := by
  cases kvs with
  | nil => exact ends_closeBrace s
  | cons kv kvs => exact ends_comma _

theorem kind_ne_stop (v : Json) : kind v ≠ .stop := by
  cases v with
  | bool b => cases b <;> decide
  | _ => exact fun h => Kind.noConfusion h

/-- The text of an item does not start with a closing bracket. -/
theorem reprChars_ne_stop (v : Json) {c : Char} (hc : kindOf c = .stop) (s t : List Char) :
    reprChars v ++ s ≠ c :: t := by
  intro h
  obtain ⟨d, x, hv, hd⟩ := reprChars_head v
  rw [hv] at h
  have hcd : d = c := (List.cons.inj h).1
  rw [hcd, hc] at hd
  exact kind_ne_stop v hd.symm

/-- No key is taken for the end of the object. -/
theorem stringRepr_ne_closeBrace (x s t : List Char) : stringRepr x ++ s ≠ closeBrace :: t := by
  intro h
  have hq : quoteOf x = closeBrace := (List.cons.inj h).1
  rcases quoteOf_cases x with hx | hx
  · rw [hx] at hq
    exact absurd hq (by decide)
  · rw [hx] at hq
    exact absurd hq (by decide)

-- Along the two values at once; the flag says whether a comma stands in front.
mutual
/-- **A value is read off its text**, whatever follows it. By induction on the value, together
with its items and entries. -/
theorem reprChars_cancel : ∀ (v w : Json) (s t : List Char), Ends s → Ends t →
    reprChars v ++ s = reprChars w ++ t → v = w ∧ s = t
  | .null, w, s, t, _, _, h => by
    have hk := kind_eq_of_repr h
    -- the first character tells of which kind the other value is
    cases w with
    | null => exact ⟨rfl, List.append_cancel_left h⟩
    | bool b => cases b <;> cases hk
    | _ => cases hk
  | .bool b, w, s, t, _, _, h => by
    have hk := kind_eq_of_repr h
    cases w with
    | bool c =>
      cases b <;> cases c
      · exact ⟨rfl, List.append_cancel_left h⟩
      · cases hk
      · cases hk
      · exact ⟨rfl, List.append_cancel_left h⟩
    | _ => cases b <;> cases hk
  | .int n, w, s, t, hs, ht, h => by
    have hk := kind_eq_of_repr h
    have hn : ∀ c ∈ integerRepr n, c ∈ floatChars :=
      fun c hc => integerChars_subset c (integerRepr_chars n c hc)
    cases w with
    | int m =>
      have hm : ∀ c ∈ integerRepr m, c ∈ floatChars :=
        fun c hc => integerChars_subset c (integerRepr_chars m c hc)
      obtain ⟨hnm, hst⟩ := number_cancel hn hm hs ht h
      rw [integerRepr_inj hnm]
      exact ⟨rfl, hst⟩
    -- the text of a float is never that of an integer
    | float y =>
      obtain ⟨hny, -⟩ := number_cancel hn (floatText_mem_floatChars y) hs ht h
      exact absurd hny.symm (floatText_ne_integerRepr y n)
    | bool c => cases c <;> cases hk
    | _ => cases hk
  | .float x, w, s, t, hs, ht, h => by
    have hk := kind_eq_of_repr h
    have hx := floatText_mem_floatChars x
    cases w with
    | int m =>
      have hm : ∀ c ∈ integerRepr m, c ∈ floatChars :=
        fun c hc => integerChars_subset c (integerRepr_chars m c hc)
      obtain ⟨hxm, -⟩ := number_cancel hx hm hs ht h
      exact absurd hxm (floatText_ne_integerRepr x m)
    | float y =>
      obtain ⟨hxy, hst⟩ := number_cancel hx (floatText_mem_floatChars y) hs ht h
      have htext : x.text = y.text := String.toList_injective hxy
      cases x
      cases y
      cases htext
      exact ⟨rfl, hst⟩
    | bool c => cases c <;> cases hk
    | _ => cases hk
  | .str x, w, s, t, _, _, h => by
    have hk := kind_eq_of_repr h
    cases w with
    | str y =>
      obtain ⟨hxy, hst⟩ := stringRepr_cancel h
      rw [String.toList_injective hxy]
      exact ⟨rfl, hst⟩
    | bool c => cases c <;> cases hk
    | _ => cases hk
  | .list xs, w, s, t, _, _, h => by
    have hk := kind_eq_of_repr h
    cases w with
    | list ys =>
      obtain ⟨hxy, hst⟩ := reprItems_cancel xs ys true s t (List.cons.inj h).2
      rw [hxy]
      exact ⟨rfl, hst⟩
    | bool c => cases c <;> cases hk
    | _ => cases hk
  | .obj xs, w, s, t, _, _, h => by
    have hk := kind_eq_of_repr h
    cases w with
    | obj ys =>
      obtain ⟨hxy, hst⟩ := reprEntries_cancel xs ys true s t (List.cons.inj h).2
      rw [hxy]
      exact ⟨rfl, hst⟩
    | bool c => cases c <;> cases hk
    | _ => cases hk

/-- The items of a list. -/
theorem reprItems_cancel : ∀ (xs ys : List Json) (first : Bool) (s t : List Char),
    reprItems first xs ++ s = reprItems first ys ++ t → xs = ys ∧ s = t
  | [], [], _, s, t, h => ⟨rfl, List.append_cancel_left h⟩
  | [], y :: ys, first, s, t, h => by
    cases first with
    | true =>
      rw [reprItems, reprItems, if_pos rfl, List.nil_append, List.append_assoc] at h
      exact absurd h.symm (reprChars_ne_stop y (by decide) _ _)
    | false => exact absurd (List.cons.inj h).1 (by decide)
  | x :: xs, [], first, s, t, h => by
    cases first with
    | true =>
      rw [reprItems, reprItems, if_pos rfl, List.nil_append, List.append_assoc] at h
      exact absurd h (reprChars_ne_stop x (by decide) _ _)
    | false => exact absurd (List.cons.inj h).1 (by decide)
  -- the items are cancelled one by one, the rest beginning with a comma or the bracket
  | x :: xs, y :: ys, first, s, t, h => by
    rw [reprItems, reprItems] at h
    simp only [List.append_assoc] at h
    have h' := List.append_cancel_left h
    obtain ⟨hxy, hrest⟩ := reprChars_cancel x y _ _ (ends_items xs s) (ends_items ys t) h'
    obtain ⟨hxys, hst⟩ := reprItems_cancel xs ys false s t hrest
    rw [hxy, hxys]
    exact ⟨rfl, hst⟩

/-- The entries of an object. -/
theorem reprEntries_cancel : ∀ (xs ys : Dict) (first : Bool) (s t : List Char),
    reprEntries first xs ++ s = reprEntries first ys ++ t → xs = ys ∧ s = t
  | [], [], _, s, t, h => ⟨rfl, List.append_cancel_left h⟩
  | [], (k, y) :: ys, first, s, t, h => by
    cases first with
    | true =>
      rw [reprEntries, reprEntries, if_pos rfl, List.nil_append, List.append_assoc] at h
      exact absurd h.symm (stringRepr_ne_closeBrace _ _ _)
    | false => exact absurd (List.cons.inj h).1 (by decide)
  | (k, x) :: xs, [], first, s, t, h => by
    cases first with
    | true =>
      rw [reprEntries, reprEntries, if_pos rfl, List.nil_append, List.append_assoc] at h
      exact absurd h (stringRepr_ne_closeBrace _ _ _)
    | false => exact absurd (List.cons.inj h).1 (by decide)
  -- the key is cancelled first, then what separates it, then the value
  | (k, x) :: xs, (l, y) :: ys, first, s, t, h => by
    rw [reprEntries, reprEntries] at h
    simp only [List.append_assoc, List.cons_append] at h
    have h' := List.append_cancel_left h
    obtain ⟨hkl, h'⟩ := stringRepr_cancel h'
    have h'' := (List.cons.inj (List.cons.inj h').2).2
    obtain ⟨hxy, hrest⟩ := reprChars_cancel x y _ _ (ends_entries xs s) (ends_entries ys t) h''
    obtain ⟨hxys, hst⟩ := reprEntries_cancel xs ys false s t hrest
    rw [String.toList_injective hkl, hxy, hxys]
    exact ⟨rfl, hst⟩
end

/-- **The printed form determines the value, the order of the keys included.** -/
theorem repr_injective : Function.Injective repr := by
  intro v w h
  have hchars : reprChars v = reprChars w := by
    have := congrArg String.toList h
    rwa [repr, repr, String.toList_ofList, String.toList_ofList] at this
  have happ : reprChars v ++ [] = reprChars w ++ [] := by
    rw [hchars]
  exact (reprChars_cancel v w [] [] ends_nil ends_nil happ).1

end IncidentRelay.Json
