import Mathlib.Data.List.Basic

/-!
# The codecs `utf-8` and `unicode_escape`

A text is encoded into bytes, and the bytes are read as Latin-1 with backslash escapes. A byte
is a number below 256. The names of characters are a parameter.

 * `decode_escapeQuotes`: an escaped text is decoded to its bytes.
 * `decode_dangling`: a backslash at the end is not decoded.
 * `latin_eq_iff`: the two codecs fit together on ASCII only.
-/

namespace IncidentRelay.UnicodeEscape

/-! ## Encoding -/

/-- The bytes of a character. -/
def utf8Char (c : Char) : List ℕ :=
  let n := c.toNat
  if n < 0x80 then [n]
  else if n < 0x800 then [0xC0 + n / 64, 0x80 + n % 64]
  else if n < 0x10000 then [0xE0 + n / 4096, 0x80 + n / 64 % 64, 0x80 + n % 64]
  else [0xF0 + n / 262144, 0x80 + n / 4096 % 64, 0x80 + n / 64 % 64, 0x80 + n % 64]

/-- `bytes(text, "utf-8")` -/
def utf8 (text : List Char) : List ℕ := text.flatMap utf8Char

theorem utf8Char_ascii {c : Char} (h : c.toNat < 128) : utf8Char c = [c.toNat] := if_pos h

/-- The bytes of another character are neither few nor small. -/
theorem utf8Char_wide {c : Char} (h : 128 ≤ c.toNat) :
    1 < (utf8Char c).length ∧ ∀ b ∈ utf8Char c, 128 ≤ b ∧ b < 256 := by
  have hmax : c.toNat < 0x110000 := by
    rcases c.valid with hlow | hhigh
    · exact Nat.lt_of_lt_of_le hlow (by decide)
    · exact hhigh.2
  unfold utf8Char
  dsimp only
  rw [if_neg (by omega)]
  split_ifs <;> refine ⟨by simp, fun b hb => ?_⟩ <;>
    simp only [List.mem_cons, List.not_mem_nil, or_false] at hb <;> omega

/-- An encoded text consists of bytes. -/
theorem utf8_lt (text : List Char) : ∀ b ∈ utf8 text, b < 256 := by
  intro b hb
  obtain ⟨c, -, hb⟩ := List.mem_flatMap.mp hb
  rcases Nat.lt_or_ge c.toNat 128 with hascii | hwide
  · rw [utf8Char_ascii hascii, List.mem_singleton] at hb
    omega
  · exact ((utf8Char_wide hwide).2 b hb).2

/-! ## Decoding -/

/-- What stands for one code behind a backslash. -/
def letterEscape : ℕ → Option ℕ
  | 92 => some 92
  | 39 => some 39
  | 34 => some 34
  | 97 => some 7
  | 98 => some 8
  | 116 => some 9
  | 110 => some 10
  | 118 => some 11
  | 102 => some 12
  | 114 => some 13
  | _ => none

/-- The value of a digit in a base up to 16. -/
def digitValue (base b : ℕ) : Option ℕ :=
  let value :=
    if 48 ≤ b ∧ b ≤ 57 then b - 48
    else if 97 ≤ b ∧ b ≤ 102 then b - 87
    else if 65 ≤ b ∧ b ≤ 70 then b - 55
    else base
  if value < base then some value else none

/-- At most so many digits, their value and what follows. -/
def takeDigits (base : ℕ) : ℕ → ℕ → List ℕ → ℕ × ℕ × List ℕ
  | 0, value, bytes => (0, value, bytes)
  | _ + 1, value, [] => (0, value, [])
  | count + 1, value, b :: bytes =>
    match digitValue base b with
    | none => (0, value, b :: bytes)
    | some digit =>
      let (taken, value, rest) := takeDigits base count (base * value + digit) bytes
      (taken + 1, value, rest)

/-- The number of hexadecimal digits behind `\x`, `\u` and `\U`. -/
def hexCount : ℕ → Option ℕ
  | 120 => some 2
  | 117 => some 4
  | 85 => some 8
  | _ => none

variable (names : List ℕ → Option ℕ)

/-- What stands behind a backslash: the codes and the bytes that follow, or nothing where the
escape is cut off or names no character. -/
def readEscape : List ℕ → Option (List ℕ × List ℕ)
  | [] => none
  | e :: rest =>
    if e = 10 then some ([], rest)
    else
      match letterEscape e with
      | some code => some ([code], rest)
      | none =>
        match hexCount e with
        | some count =>
          let (taken, code, behind) := takeDigits 16 count 0 rest
          if taken = count ∧ code < 0x110000 then some ([code], behind) else none
        | none =>
          if (digitValue 8 e).isSome then
            let (_, code, behind) := takeDigits 8 3 0 (e :: rest)
            some ([code], behind)
          else if e = 78 then
            if rest.head? = some 123 ∧ 125 ∈ rest then
              (names ((rest.drop 1).takeWhile (· ≠ 125))).map fun code =>
                ([code], (rest.dropWhile (· ≠ 125)).drop 1)
            else none
          else some ([92, e], rest)

/-- The codes of the bytes. Every step reads a byte, so the number of bytes is fuel enough. -/
def decodeFrom : ℕ → List ℕ → Option (List ℕ)
  | _, [] => some []
  | 0, _ :: _ => none
  | fuel + 1, b :: bytes =>
    if b = 92 then
      (readEscape names bytes).bind fun (codes, rest) => (decodeFrom fuel rest).map (codes ++ ·)
    else (decodeFrom fuel bytes).map (b :: ·)

/-- `bytes(text, "utf-8").decode("unicode_escape")`, by the codes of the characters. -/
def decode (text : List Char) : Option (List ℕ) :=
  decodeFrom names (utf8 text).length (utf8 text)

/-! ## Escaping -/

/-- The backslash and the two quotes. -/
def special (b : ℕ) : Bool := b = 92 || b = 39 || b = 34

def escapeBytes (bytes : List ℕ) : List ℕ := bytes.flatMap fun b => if special b then [92, b] else [b]

/-- A text with a backslash before every backslash and every quote. -/
def escapeQuotes (text : List Char) : List Char :=
  text.flatMap fun c => if special c.toNat then [Char.ofNat 92, c] else [c]

theorem special_cases {b : ℕ} (h : special b = true) : b = 92 ∨ b = 39 ∨ b = 34 := by
  simpa [special, or_assoc] using h

theorem ne_backslash {b : ℕ} (h : special b = false) : b ≠ 92 := by
  rintro rfl
  cases h

theorem escapeBytes_append (bytes bytes' : List ℕ) :
    escapeBytes (bytes ++ bytes') = escapeBytes bytes ++ escapeBytes bytes' := List.flatMap_append

/-- Without special bytes nothing is escaped. -/
theorem escapeBytes_plain {bytes : List ℕ} (h : ∀ b ∈ bytes, special b = false) :
    escapeBytes bytes = bytes := by
  induction bytes with
  | nil => rfl
  | cons b bytes ih =>
    obtain ⟨hb, hbytes⟩ := List.forall_mem_cons.mp h
    unfold escapeBytes at ih ⊢
    rw [List.flatMap_cons, hb, ih hbytes]
    rfl

/-- A text is escaped as its bytes are. -/
theorem utf8_escapeQuotes (text : List Char) : utf8 (escapeQuotes text) = escapeBytes (utf8 text) := by
  induction text with
  | nil => rfl
  | cons c text ih =>
    have hchar : utf8 (if special c.toNat then [Char.ofNat 92, c] else [c]) = escapeBytes (utf8Char c) := by
      -- a character below 128 is one byte, and only such a byte can be special
      rcases Nat.lt_or_ge c.toNat 128 with hascii | hwide
      · have hbyte : utf8 [c] = [c.toNat] := by
          rw [utf8, List.flatMap_singleton, utf8Char_ascii hascii]
        rw [utf8Char_ascii hascii]
        cases hspecial : special c.toNat with
        | true =>
          show utf8Char (Char.ofNat 92) ++ utf8 [c] = escapeBytes [c.toNat]
          rw [hbyte, escapeBytes, List.flatMap_singleton, hspecial]
          rfl
        | false =>
          show utf8 [c] = escapeBytes [c.toNat]
          rw [hbyte, escapeBytes, List.flatMap_singleton, hspecial]
          rfl
      -- a wider one is written in bytes from 128 on, none of which is escaped
      · have hplain (b : ℕ) (hb : 128 ≤ b) : special b = false := by
          simp [special]
          omega
        rw [hplain _ hwide, escapeBytes_plain fun b hb => hplain b ((utf8Char_wide hwide).2 b hb).1]
        exact List.flatMap_singleton ..
    unfold escapeQuotes utf8 at ih ⊢
    rw [List.flatMap_cons, List.flatMap_append, ih, List.flatMap_cons, escapeBytes_append]
    exact congrArg (· ++ _) hchar

/-- **Escaped bytes are decoded to themselves**, up to whatever follows them. -/
theorem decodeFrom_escapeBytes (bytes rest : List ℕ) (fuel : ℕ) :
    decodeFrom names (bytes.length + fuel) (escapeBytes bytes ++ rest) =
      (decodeFrom names fuel rest).map (bytes ++ ·) := by
  induction bytes with
  | nil =>
    rw [List.length_nil, Nat.zero_add]
    exact Option.map_id'.symm
  | cons b bytes ih =>
    have hlength : (b :: bytes).length + fuel = (bytes.length + fuel) + 1 := by
      rw [List.length_cons]
      omega
    have hmap : (decodeFrom names (bytes.length + fuel) (escapeBytes bytes ++ rest)).map (b :: ·) =
        (decodeFrom names fuel rest).map (b :: bytes ++ ·) := by
      rw [ih, Option.map_map]
      rfl
    rw [hlength]
    -- each byte costs one unit of fuel, whether it was escaped or not
    cases hspecial : special b with
    | true =>
      have hescape : escapeBytes (b :: bytes) ++ rest = 92 :: b :: (escapeBytes bytes ++ rest) := by
        rw [escapeBytes, List.flatMap_cons, hspecial]
        rfl
      have hread : readEscape names (b :: (escapeBytes bytes ++ rest)) =
          some ([b], escapeBytes bytes ++ rest) := by
        rcases special_cases hspecial with rfl | rfl | rfl <;> rfl
      rw [hescape, decodeFrom, if_pos rfl, hread]
      exact hmap
    | false =>
      have hescape : escapeBytes (b :: bytes) ++ rest = b :: (escapeBytes bytes ++ rest) := by
        rw [escapeBytes, List.flatMap_cons, hspecial]
        rfl
      rw [hescape, decodeFrom, if_neg (ne_backslash hspecial)]
      exact hmap

/-- Escaping makes no text shorter. -/
theorem length_escapeBytes (bytes : List ℕ) : bytes.length ≤ (escapeBytes bytes).length := by
  induction bytes with
  | nil => exact Nat.le_refl _
  | cons b bytes ih =>
    unfold escapeBytes at ih ⊢
    rw [List.flatMap_cons, List.length_append, List.length_cons]
    split_ifs <;> simp only [List.length_cons, List.length_nil] <;> omega

/-- **An escaped text is decoded into its bytes.** -/
theorem decode_escapeQuotes (text : List Char) : decode names (escapeQuotes text) = some (utf8 text) := by
  obtain ⟨fuel, hfuel⟩ := Nat.exists_eq_add_of_le (length_escapeBytes (utf8 text))
  have hdecode := decodeFrom_escapeBytes names (utf8 text) [] fuel
  rw [List.append_nil] at hdecode
  rw [decode, utf8_escapeQuotes, hfuel, hdecode, decodeFrom]
  exact congrArg some (List.append_nil _)

/-- **A backslash at the end is not decoded.** -/
theorem decode_dangling (text : List Char) : decode names (escapeQuotes text ++ [Char.ofNat 92]) = none := by
  have hbytes : utf8 (escapeQuotes text ++ [Char.ofNat 92]) = escapeBytes (utf8 text) ++ [92] := by
    rw [← utf8_escapeQuotes, utf8, List.flatMap_append]
    rfl
  have hlength : (escapeBytes (utf8 text) ++ [92]).length = (escapeBytes (utf8 text)).length + 1 := by
    simp
  obtain ⟨fuel, hfuel⟩ := Nat.exists_eq_add_of_le (length_escapeBytes (utf8 text))
  rw [decode, hbytes, hlength, hfuel, Nat.add_assoc, decodeFrom_escapeBytes, decodeFrom, if_pos rfl]
  rfl

/-! ## The two codecs -/

/-- The bytes of a text as the characters with these codes. -/
def latin (text : List Char) : List Char := (utf8 text).map Char.ofNat

/-- Neither does encoding. -/
theorem length_le_utf8 (text : List Char) : text.length ≤ (utf8 text).length := by
  induction text with
  | nil => exact Nat.le_refl _
  | cons c text ih =>
    have hchar : 1 ≤ (utf8Char c).length := by
      rcases Nat.lt_or_ge c.toNat 128 with hascii | hwide
      · rw [utf8Char_ascii hascii]
        exact Nat.le_refl _
      · exact Nat.le_of_lt (utf8Char_wide hwide).1
    unfold utf8 at ih ⊢
    rw [List.flatMap_cons, List.length_append, List.length_cons]
    omega

/-- **The bytes are the text where all of it is ASCII, and only there.** -/
theorem latin_eq_iff (text : List Char) : latin text = text ↔ ∀ c ∈ text, c.toNat < 128 := by
  induction text with
  | nil => simp [latin, utf8]
  | cons c text ih =>
    have hcons : latin (c :: text) = (utf8Char c).map Char.ofNat ++ latin text := by
      unfold latin utf8
      rw [List.flatMap_cons, List.map_append]
    rw [hcons, List.forall_mem_cons, ← ih]
    -- Latin-1 gives an ASCII character back and makes two or more of a wider one
    rcases Nat.lt_or_ge c.toNat 128 with hascii | hwide
    · rw [utf8Char_ascii hascii, List.map_singleton, Char.ofNat_toNat, List.singleton_append,
        List.cons.injEq]
      exact ⟨fun h => ⟨hascii, h.2⟩, fun h => ⟨rfl, h.2⟩⟩
    · -- the text gets longer
      refine iff_of_false (fun h => ?_) fun h => absurd h.1 (Nat.not_lt_of_ge hwide)
      have hlength := congrArg List.length h
      have hmore := (utf8Char_wide hwide).1
      have hrest : text.length ≤ (latin text).length := by
        rw [latin, List.length_map]
        exact length_le_utf8 text
      rw [List.length_append, List.length_map, List.length_cons] at hlength
      omega

end IncidentRelay.UnicodeEscape
