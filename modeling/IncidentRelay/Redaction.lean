import IncidentRelay.Lib.PyText

/-!
# Redaction of secrets

`redact_string` substitutes five patterns one after the other, and
`redact_secrets` applies it to every text of a value; what stands under a
sensitive key is replaced. Each pattern is a function on the text that follows a
position. Where the expression could backtrack, the order of its alternatives is
kept.

The patterns are matched with `IGNORECASE`: a letter of a pattern stands for
every character whose folding it is.
-/

namespace IncidentRelay.Redaction

def redacted : List Char := "***REDACTED***".toList

/-- The character classes of the Unicode database, as `\w` and `\d` read it. -/
structure CharClasses where
  alnum : Char → Bool
  decimal : Char → Bool

/-- The ASCII letter that stands for the character in a pattern. -/
def fold (c : Char) : Char :=
  if c = Char.ofNat 0x130 ∨ c = Char.ofNat 0x131 then 'i'
  else if c = Char.ofNat 0x17F then 's'
  else if c = Char.ofNat 0x212A then 'k'
  else c.toLower

/-! ## Parts of a pattern -/

/-- What is left behind a literal part. -/
def literal : List Char → List Char → Option (List Char)
  | [], text => some text
  | _ :: _, [] => none
  | p :: ps, c :: text => if fold c = p then literal ps text else none

/-- What is left behind the first of the words that stands here. -/
def oneOf (words : List String) (text : List Char) : Option (List Char) :=
  words.findSome? fun word => literal word.toList text

/-- What is left behind at least one character of a class. -/
def many1 (p : Char → Bool) (text : List Char) : Option (List Char) :=
  match text with
  | [] => none
  | c :: rest => if p c then some (rest.dropWhile p) else none

/-- `\s*`. -/
def spaces (text : List Char) : List Char := text.dropWhile isSpace

/-- The text in front of what is left. -/
def consumed (text rest : List Char) : List Char := text.take (text.length - rest.length)

/-- A match at a position: what it is replaced by, and what is left. The first
argument is the character in front of the position. -/
abbrev Pattern := Option Char → List Char → Option (List Char × List Char)

/-! ## The patterns -/

def tokenChar (c : Char) : Bool :=
  let c := fold c
  ('a' ≤ c && c ≤ 'z') || ('0' ≤ c && c ≤ '9') || c == '_' || c == '-'

/-- `(/bot)(\d{5,20}:[A-Za-z0-9_-]{20,})`. -/
def telegramToken (u : CharClasses) : Pattern := fun _ text => do
  let start ← literal "/bot".toList text
  let digits := start.takeWhile u.decimal
  let key ← literal [':'] (start.dropWhile u.decimal)
  if 5 ≤ digits.length ∧ digits.length ≤ 20 ∧ 20 ≤ (key.takeWhile tokenChar).length then
    some (consumed text start ++ redacted, key.dropWhile tokenChar)
  else none

def queryNames : List String :=
  ["token=", "api_token=", "access_token=", "refresh_token=", "bot_token=", "telegram_token=",
    "password=", "secret=", "api_key=", "key="]

/-- `([?&](?:token|…)=)([^&\s]+)`. -/
def queryParam : Pattern := fun _ text =>
  match text with
  | c :: name =>
    if c = '?' ∨ c = '&' then do
      let value ← oneOf queryNames name
      let rest ← many1 (fun c => c != '&' && !isSpace c) value
      some (consumed text value ++ redacted, rest)
    else none
  | [] => none

/-- `[^\s,;]+`. -/
def credential : List Char → Option (List Char) :=
  many1 fun c => !isSpace c && c != ',' && c != ';'

/-- `((?:Authorization|Proxy-Authorization)\s*:\s*)(?:Bearer|Basic)?\s*[^\s,;]+`. -/
def authorizationHeader : Pattern := fun _ text => do
  let name ← oneOf ["authorization", "proxy-authorization"] text
  let colon ← literal [':'] (spaces name)
  let value := spaces colon
  -- the scheme is left out where nothing follows it
  let withScheme := (oneOf ["bearer", "basic"] value).bind fun rest => credential (spaces rest)
  let rest ← withScheme <|> credential value
  some (consumed text value ++ redacted, rest)

/-- `://([^:/?#\s]+):([^@/\s]+)@`. -/
def urlCredentials : Pattern := fun _ text => do
  let user ← literal "://".toList text
  let colon ← many1 (fun c => c != ':' && c != '/' && c != '?' && c != '#' && !isSpace c) user
  let password ← literal [':'] colon
  let host ← many1 (fun c => c != '@' && c != '/' && !isSpace c) password
  let rest ← literal ['@'] host
  some (consumed text password ++ redacted ++ ['@'], rest)

def secretNames : List String :=
  ["password", "passwd", "secret", "client_secret", "token", "api_token", "access_token",
    "refresh_token", "bot_token", "telegram_token", "api_key", "private_key"]

/-- The rest of a quoted text, behind its first quote. A backslash first takes the
next character with it, and stands for itself where that leads nowhere. -/
def quoted (quote : Char) : List Char → Option (List Char)
  | [] => none
  | [c] => if c = quote then some [] else none
  | c :: d :: rest =>
    if c = '\\' then
      (if d = '\n' then none else quoted quote rest) <|> quoted quote (d :: rest)
    else if c = quote then some (d :: rest)
    else quoted quote (d :: rest)

/-- `"(?:\\.|[^"])*"|'(?:\\.|[^'])*'|[^\s,;&]+`. -/
def assignedValue (text : List Char) : Option (List Char) :=
  let plain := many1 (fun c => !isSpace c && c != ',' && c != ';' && c != '&') text
  match text with
  | '"' :: rest => quoted '"' rest <|> plain
  | '\'' :: rest => quoted '\'' rest <|> plain
  | _ => plain

/-- `(\b(?:password|…)\s*[=:]\s*)("…"|'…'|[^\s,;&]+)`. -/
def assignment (u : CharClasses) : Pattern := fun previous text => do
  let start ← secretNames.findSome? fun name => do
    let rest ← literal name.toList text
    let rest ← literal ['='] (spaces rest) <|> literal [':'] (spaces rest)
    some (spaces rest)
  let rest ← assignedValue start
  if previous.any fun c => u.alnum c || c == '_' then none
  else some (consumed text start ++ redacted, rest)

/-- `REDACTION_PATTERNS`. -/
def patterns (u : CharClasses) : List Pattern :=
  [telegramToken u, queryParam, authorizationHeader, urlCredentials, assignment u]

/-! ## Substitution -/

/-- `pattern.sub(…, text)` from a position on, which is at most `n` characters
from the end. A match is never empty. -/
def substituteFrom (p : Pattern) : Nat → Option Char → List Char → List Char
  | 0, _, text => text
  | _ + 1, _, [] => []
  | n + 1, previous, c :: text =>
    match p previous (c :: text) with
    | some (replacement, rest) =>
      replacement ++ substituteFrom p n (consumed (c :: text) rest).getLast? rest
    | none => c :: substituteFrom p n (some c) text

def substitute (text : List Char) (p : Pattern) : List Char :=
  substituteFrom p text.length none text

/-- `redact_string(value)`. -/
def redactString (u : CharClasses) (value : String) : String :=
  String.ofList ((patterns u).foldl substitute value.toList)

/-! ## Texts that no pattern matches -/

/-- Every pattern has one of these characters in it. -/
def marks : List Char := ['/', '?', '&', ':', '=']

def Plain (text : List Char) : Prop := ∀ c ∈ text, c ∉ marks

instance (text : List Char) : Decidable (Plain text) :=
  List.decidableBAll (· ∉ marks) text

theorem Plain.suffix {text rest : List Char} (h : Plain text) (hs : rest <:+ text) : Plain rest :=
  fun c hc => h c (hs.subset hc)

/-- Only a mark folds to a mark. -/
theorem fold_mark {c m : Char} (hm : m ∈ marks) (h : fold c = m) : c = m := by
  have hletters : ∀ l ∈ ['i', 's', 'k'], l ∉ marks := by simp [marks]
  unfold fold at h
  split_ifs at h with _ _ _
  · exact absurd hm (h ▸ hletters 'i' (by simp))
  · exact absurd hm (h ▸ hletters 's' (by simp))
  · exact absurd hm (h ▸ hletters 'k' (by simp))
  · unfold Char.toLower at h
    split_ifs at h with hupper
    · -- an upper case letter folds to a letter
      have h65 : 65 ≤ c.toNat := UInt32.le_iff_toNat_le.mp hupper.1
      have h90 : c.toNat ≤ 90 := UInt32.le_iff_toNat_le.mp hupper.2
      have hsum : (c.val + 32).toNat = m.toNat := congrArg Char.toNat h
      have hcode : (c.toNat + 32) % 2 ^ 32 = m.toNat := hsum
      have hmarks : ∀ m ∈ marks, m.toNat < 97 := by simp [marks]
      have := hmarks m hm
      omega
    · exact h

/-- A literal takes its letters off the text. -/
theorem literal_suffix {p text rest : List Char} (h : literal p text = some rest) :
    rest <:+ text := by
  induction p generalizing text with
  | nil =>
    cases text <;> cases h <;> exact List.suffix_refl _
  | cons p ps ih =>
    cases text with
    | nil => cases h
    | cons c text =>
      rw [literal] at h
      split_ifs at h with hc
      exact (ih h).trans (List.suffix_cons c text)

/-- A plain text starts with no mark. -/
theorem literal_of_plain {m : Char} {ps text : List Char} (hm : m ∈ marks) (h : Plain text) :
    literal (m :: ps) text = none := by
  cases text with
  | nil => rfl
  | cons c text =>
    rw [literal, if_neg]
    intro hc
    exact h c (List.mem_cons_self ..) (fold_mark hm hc ▸ hm)

theorem spaces_suffix (text : List Char) : spaces text <:+ text := List.dropWhile_suffix _

theorem oneOf_suffix {words : List String} {text rest : List Char}
    (h : oneOf words text = some rest) : rest <:+ text := by
  obtain ⟨word, -, hword⟩ := List.exists_of_findSome?_eq_some h
  exact literal_suffix hword

/-- No pattern matches at the start of a plain text. -/
theorem pattern_of_plain (u : CharClasses) {p : Pattern} (hp : p ∈ patterns u)
    (previous : Option Char) {text : List Char} (h : Plain text) : p previous text = none := by
  simp only [patterns, List.mem_cons, List.not_mem_nil, or_false] at hp
  rcases hp with rfl | rfl | rfl | rfl | rfl
  · have hslash : literal "/bot".toList text = none :=
      literal_of_plain (m := '/') (by decide) h
    unfold telegramToken
    rw [hslash]
    rfl
  · unfold queryParam
    cases text with
    | nil => rfl
    | cons c rest =>
      dsimp only
      rw [if_neg]
      rintro (rfl | rfl)
      · exact h '?' (List.mem_cons_self ..) (by decide)
      · exact h '&' (List.mem_cons_self ..) (by decide)
  · unfold authorizationHeader
    cases hname : oneOf ["authorization", "proxy-authorization"] text with
    | none => rfl
    | some name =>
      have hplain := h.suffix ((spaces_suffix name).trans (oneOf_suffix hname))
      dsimp only [bind, Option.bind]
      rw [literal_of_plain (by decide) hplain]
  · have hcolon : literal "://".toList text = none :=
      literal_of_plain (m := ':') (by decide) h
    unfold urlCredentials
    rw [hcolon]
    rfl
  · unfold assignment
    have hstart : (secretNames.findSome? fun name => do
        let rest ← literal name.toList text
        let rest ← literal ['='] (spaces rest) <|> literal [':'] (spaces rest)
        some (spaces rest)) = none := by
      rw [List.findSome?_eq_none_iff]
      intro name _
      cases hname : literal name.toList text with
      | none => rfl
      | some rest =>
        have hplain := h.suffix ((spaces_suffix rest).trans (literal_suffix hname))
        dsimp only [bind, Option.bind]
        rw [literal_of_plain (by decide) hplain, literal_of_plain (by decide) hplain]
        rfl
    rw [hstart]
    rfl

/-- **No pattern matches in a plain text**, by induction on it. -/
theorem substituteFrom_of_plain (u : CharClasses) {p : Pattern} (hp : p ∈ patterns u) (n : Nat)
    (previous : Option Char) {text : List Char} (h : Plain text) :
    substituteFrom p n previous text = text := by
  induction n generalizing previous text with
  | zero => rfl
  | succ n ih =>
    cases text with
    | nil => rfl
    | cons c text =>
      rw [substituteFrom, pattern_of_plain u hp previous h]
      show c :: substituteFrom p n (some c) text = c :: text
      rw [ih _ (h.suffix (List.suffix_cons c text))]

/-- **A text without marks is not redacted.** -/
theorem redactString_of_plain (u : CharClasses) {s : String} (h : Plain s.toList) :
    redactString u s = s := by
  have hfold : ∀ ps : List Pattern, (∀ p ∈ ps, p ∈ patterns u) →
      ps.foldl substitute s.toList = s.toList := by
    intro ps hps
    induction ps with
    | nil => rfl
    | cons p ps ih =>
      rw [List.foldl_cons, substitute, substituteFrom_of_plain u (hps p (by simp)) _ _ h]
      exact ih fun q hq => hps q (List.mem_cons_of_mem p hq)
  rw [redactString, hfold _ (fun p hp => hp), String.ofList_toList]

/-! ## Values -/

def sensitiveKeyParts : List String :=
  ["token", "secret", "password", "passwd", "authorization", "api_key", "apikey", "access_key",
    "private_key", "webhook_url"]

/-- `part in text`. -/
def occursIn (part : List Char) : List Char → Bool
  | [] => part.isEmpty
  | c :: text => part.isPrefixOf (c :: text) || occursIn part text

/-- `is_sensitive_key(key)`, on the characters of `key.lower()`. -/
def isSensitiveKey (key : String) : Bool :=
  sensitiveKeyParts.any fun part => occursIn part.toList (key.toList.flatMap lowerChar)

mutual
/-- `redact_secrets(value)`. -/
def redactSecrets (u : CharClasses) : Json → Json
  | .str s => .str (redactString u s)
  | .list xs => .list (redactItems u xs)
  | .obj kvs => .obj (redactEntries u kvs)
  | .null => .null
  | .bool b => .bool b
  | .int n => .int n
  | .float t => .float t

def redactItems (u : CharClasses) : List Json → List Json
  | [] => []
  | x :: xs => redactSecrets u x :: redactItems u xs

def redactEntries (u : CharClasses) : Dict → Dict
  | [] => []
  | (k, x) :: kvs =>
    (k, if isSensitiveKey k then .str (String.ofList redacted) else redactSecrets u x) ::
      redactEntries u kvs
end

/-- The items of a list are redacted one by one. -/
theorem redactItems_eq_map (u : CharClasses) (xs : List Json) :
    redactItems u xs = xs.map (redactSecrets u) := by
  induction xs with
  | nil => rfl
  | cons x xs ih => rw [redactItems, ih, List.map_cons]

/-- A value under a key that is not sensitive is redacted in place. -/
theorem get_redactEntries (u : CharClasses) {key : String} (hkey : isSensitiveKey key = false)
    (kvs : Dict) :
    Dict.get (redactEntries u kvs) key = (Dict.get kvs key).map (redactSecrets u) := by
  induction kvs with
  | nil => rfl
  | cons kv kvs ih =>
    obtain ⟨k, x⟩ := kv
    rw [redactEntries, Dict.get_cons, Dict.get_cons]
    by_cases hk : k = key
    · rw [if_pos hk, if_pos hk, hk, hkey]
      rfl
    · rw [if_neg hk, if_neg hk, ih]

/-- Redaction neither makes nor removes a `None`. -/
theorem redactSecrets_eq_null (u : CharClasses) {v : Json} :
    redactSecrets u v = .null ↔ v = .null := by
  cases v <;> simp [redactSecrets]

end IncidentRelay.Redaction
