import IncidentRelay.Lib.UnicodeEscape
import IncidentRelay.Orchestration.Definitions
import IncidentRelay.Orchestration.Extraction
import Mathlib.Data.List.Induction

/-!
# Paths that are written for a position

A position of a value is written as a path of brackets: an index as it is, a key between quotes
with quotes and backslashes escaped. `_parse_json_path` ends a bracket at its first closing
one, and reads the bytes of a key as Latin-1.

* `pathTokens_ends`, `pathTokens_fuel`: the parser needs no more steps than the text has characters.
* `pathTokens_printed`, `pathTokens_broken`: what a printed path is read as.
* `paths_address_iff`: a path addresses its position in every value, if and only if its keys are
  ASCII without a closing bracket.
-/

namespace IncidentRelay.Orchestration

open Json UnicodeEscape

def maxJsonPathLength : ℕ := 512

section Paths

variable (lib : PyLibrary)

/-- `_validate_json_path(path)`: the message where the path is refused. -/
def validateJsonPath (path : Json) : Except PyError (Option String) :=
  match path with
  | .str text =>
    if text = "" then .ok (some "JSON path is required")
    else if maxJsonPathLength < text.length then .ok (some "JSON path exceeds the size limit")
    else
      match parseJsonPath lib text with
      | .ok _ => .ok none
      | .error (.evaluation message _) => .ok (some message)
      | .error e => .error e
  | _ => .ok (some "JSON path is required")

/-! ## Positions -/

/-- What is at a step from a value. -/
def valueAt (value : Json) : PathToken → Option Json
  | .index n =>
    match value with
    | .list xs => xs[n]?
    | _ => none
  | .key key =>
    match value with
    | .obj kvs => Dict.get kvs key
    | _ => none

/-- What is at a position. -/
def valueAtPath (value : Json) : List PathToken → Option Json
  | [] => some value
  | token :: tokens => (valueAt value token).bind (valueAtPath · tokens)

/-- What is written between the brackets of a step. -/
def tokenBody (quote : Char) : PathToken → List Char
  | .index n => Nat.toDigits 10 n
  | .key key => quote :: (escapeQuotes key.toList ++ [quote])

def printToken (quote : Char) (token : PathToken) : List Char :=
  openBracket :: (tokenBody quote token ++ [closeBracket])

def printTokens (quote : Char) (tokens : List PathToken) : List Char :=
  tokens.flatMap (printToken quote)

def printPath (quote : Char) (tokens : List PathToken) : String :=
  String.ofList ('$' :: printTokens quote tokens)

/-- The path is accepted, and it gives what is at the position, or an `ExtractionError` where
nothing is. -/
structure Addresses (quote : Char) (value : Json) (tokens : List PathToken) : Prop where
  accepted : validateJsonPath lib (.str (printPath quote tokens)) = .ok none
  found : ∀ x, valueAtPath value tokens = some x → jsonPathGet lib value (printPath quote tokens) = .ok x
  missing : valueAtPath value tokens = none →
    ∃ message, jsonPathGet lib value (printPath quote tokens) = .error (extractionError message)

/-- One step from a value. -/
theorem getToken_eq (value : Json) (token : PathToken) :
    (∀ x, valueAt value token = some x → getToken value token = .ok x) ∧
      (valueAt value token = none → ∃ message, getToken value token = .error (extractionError message)) := by
  unfold valueAt getToken
  cases token <;> cases value <;> dsimp only <;>
    first
    | exact ⟨nofun, fun _ => ⟨_, rfl⟩⟩
    | split <;> rename_i hvalue <;> rw [hvalue]
      · exact ⟨fun x h => congrArg Except.ok (Option.some.inj h), nofun⟩
      · exact ⟨nofun, fun _ => ⟨_, rfl⟩⟩

/-- The tokens of a path lead to its position. -/
theorem foldlM_getToken (value : Json) (tokens : List PathToken) :
    (∀ x, valueAtPath value tokens = some x → tokens.foldlM getToken value = .ok x) ∧
      (valueAtPath value tokens = none →
        ∃ message, tokens.foldlM getToken value = .error (extractionError message)) := by
  induction tokens generalizing value with
  | nil => exact ⟨fun x h => congrArg Except.ok (Option.some.inj h), nofun⟩
  | cons token tokens ih =>
    obtain ⟨hfound, hmissing⟩ := getToken_eq value token
    rw [valueAtPath, List.foldlM_cons]
    cases hvalue : valueAt value token with
    | none =>
      obtain ⟨message, herror⟩ := hmissing hvalue
      rw [herror]
      exact ⟨nofun, fun _ => ⟨message, rfl⟩⟩
    | some next =>
      rw [hfound next hvalue]
      exact ih next

/-! ## The parser -/

variable {lib} in
/-- What is between the brackets is refused with an `ExtractionError` only. -/
theorem bracketToken_error {raw : String} {e : PyError} (h : bracketToken lib raw = .error e) :
    ∃ message, e = extractionError message := by
  unfold bracketToken at h
  repeat' split at h
  all_goals first
    | cases h; exact ⟨_, rfl⟩
    | cases h

/-- A token takes characters away: what follows a name is shorter. -/
theorem pathName_rest {cs name rest : List Char} (h : pathName cs = some (name, rest)) :
    rest.length ≤ cs.length := by
  unfold pathName at h
  split at h
  · cases h
  · split_ifs at h
    cases h
    exact (List.dropWhile_suffix _).length_le.trans (Nat.le_succ _)

/-- And so is what follows a bracket. -/
theorem length_behind_bracket (cs : List Char) :
    ((cs.dropWhile (· ≠ closeBracket)).drop 1).length ≤ cs.length := by
  rw [List.length_drop]
  exact (Nat.sub_le _ _).trans (List.dropWhile_suffix _).length_le

variable {lib} in
/-- **With as much fuel as there are characters the parser raises its own errors only**: it does
not run out of fuel. -/
theorem pathTokens_error {fuel : ℕ} {text : List Char} {e : PyError} (hfuel : text.length ≤ fuel)
    (h : pathTokens lib fuel text = .error e) : ∃ message, e = extractionError message := by
  induction fuel generalizing text with
  | zero =>
    obtain rfl := List.length_eq_zero_iff.mp (Nat.le_zero.mp hfuel)
    cases h
  | succ fuel ih =>
    cases text with
    | nil => cases h
    | cons c text =>
      have htext : text.length ≤ fuel := Nat.le_of_succ_le_succ hfuel
      rw [pathTokens] at h
      -- a dot begins a name, a bracket an index or a key, and anything else is an error
      split_ifs at h
      · cases hname : pathName text with
        | none =>
          rw [hname] at h
          exact ⟨_, (Except.error.inj h).symm⟩
        | some found =>
          rw [hname] at h
          exact ih ((pathName_rest hname).trans htext) (map_eq_error.mp h)
      · obtain htoken | ⟨token, -, h⟩ := bind_eq_error.mp h
        · exact bracketToken_error htoken
        · obtain hrest | ⟨tokens, -, h⟩ := bind_eq_error.mp h
          · exact ih ((length_behind_bracket text).trans htext) hrest
          · cases h
      · exact ⟨_, (Except.error.inj h).symm⟩
      · exact ⟨_, (Except.error.inj h).symm⟩

theorem pathTokens_ends {fuel : ℕ} {text : List Char} (hfuel : text.length ≤ fuel) :
    pathTokens lib fuel text ≠ .error outOfFuel := by
  intro h
  obtain ⟨message, hown⟩ := pathTokens_error hfuel h
  cases hown

/-- **The parser needs no more steps than there are characters.** -/
theorem pathTokens_fuel (text : List Char) {fuel fuel' : ℕ} (h : text.length ≤ fuel)
    (h' : text.length ≤ fuel') : pathTokens lib fuel text = pathTokens lib fuel' text := by
  -- each token takes a character at least
  induction fuel generalizing text fuel' with
  | zero =>
    obtain rfl := List.length_eq_zero_iff.mp (Nat.le_zero.mp h)
    cases fuel' <;> rfl
  | succ fuel ih =>
    cases text with
    | nil => cases fuel' <;> rfl
    | cons c cs =>
      cases fuel' with
      | zero => exact absurd h' (by simp)
      | succ fuel' =>
        have hlength : cs.length ≤ fuel ∧ cs.length ≤ fuel' :=
          ⟨Nat.le_of_succ_le_succ h, Nat.le_of_succ_le_succ h'⟩
        have hrest (rest : List Char) (hrest : rest.length ≤ cs.length) :
            pathTokens lib fuel rest = pathTokens lib fuel' rest :=
          ih rest (hrest.trans hlength.1) (hrest.trans hlength.2)
        rw [pathTokens, pathTokens, hrest _ (length_behind_bracket cs)]
        cases hname : pathName cs with
        | none => rfl
        | some found =>
          obtain ⟨name, rest⟩ := found
          dsimp only
          rw [hrest rest (pathName_rest hname)]

end Paths

/-! ## Printed tokens -/

/-- An index is written without a zero in front. -/
theorem head_toDigits (n : ℕ) : ∀ c ∈ (Nat.toDigits 10 n).head?, c = '0' → n = 0 := by
  induction n using Nat.strong_induction_on with
  | _ n ih =>
    rw [Nat.toDigits_eq_if (by decide)]
    split_ifs with hsmall
    · intro c hc hzero
      obtain rfl := Option.some.inj hc
      interval_cases n <;> first | rfl | exact absurd hzero (by decide)
    · intro c hc hzero
      rw [List.head?_append_of_ne_nil _ Nat.toDigits_ne_nil] at hc
      have hquotient := ih (n / 10) (by omega) c hc hzero
      omega

/-- A number is read as an index. -/
theorem isIndex_toDigits (n : ℕ) : isIndex (String.ofList (Nat.toDigits 10 n)) = true := by
  unfold isIndex
  rw [String.toList_ofList]
  have hdigits : ∀ c ∈ Nat.toDigits 10 n, c.isDigit = true :=
    fun c hc => Nat.isDigit_of_mem_toDigits (by decide) (by decide) hc
  have hhead := head_toDigits n
  cases hchars : Nat.toDigits 10 n with
  | nil => exact absurd hchars Nat.toDigits_ne_nil
  | cons c cs =>
    rw [hchars] at hdigits hhead
    obtain ⟨hc, hcs⟩ := List.forall_mem_cons.mp hdigits
    -- a number is written without a nought in front
    have hzero : (cs.isEmpty || c != '0') = true := by
      by_cases hfirst : c = '0'
      · -- only nought starts with a zero
        rw [hhead c rfl hfirst, Nat.toDigits_zero] at hchars
        rw [← (List.cons.inj hchars).2]
        rfl
      · simp [hfirst]
    show (c.isDigit && cs.all Char.isDigit && (cs.isEmpty || c != '0')) = true
    rw [hc, List.all_eq_true.mpr hcs, hzero]
    rfl

theorem indexValue_toDigits (n : ℕ) : indexValue (String.ofList (Nat.toDigits 10 n)) = n := by
  unfold indexValue
  rw [String.toList_ofList]
  exact Nat.ofDigitChars_ten_toDigits

/-- The characters of an escaped key. -/
theorem mem_escapeQuotes {text : List Char} {c : Char} (hc : c ≠ backslash) : c ∈ escapeQuotes text ↔ c ∈ text := by
  unfold escapeQuotes
  simp only [List.mem_flatMap]
  constructor
  · rintro ⟨d, hd, hmem⟩
    split_ifs at hmem
    · rcases List.mem_pair.mp hmem with rfl | rfl
      · exact absurd rfl hc
      · exact hd
    · rwa [List.mem_singleton.mp hmem]
  · intro hmem
    refine ⟨c, hmem, ?_⟩
    split_ifs
    · exact List.mem_pair.mpr (.inr rfl)
    · exact List.mem_singleton.mpr rfl

section Parse

variable {lib : PyLibrary} {names : List ℕ → Option ℕ}

/-- The decoder of the library, where the codes are those of characters. -/
structure DecodesUnicodeEscape (lib : PyLibrary) (names : List ℕ → Option ℕ) : Prop where
  undecoded : ∀ text, decode names text.toList = none → lib.unicodeEscape text = none
  decoded : ∀ text codes, decode names text.toList = some codes → (∀ n ∈ codes, n.isValidChar) →
    lib.unicodeEscape text = some (String.ofList (codes.map Char.ofNat))

/-- The token that a printed token is read as. -/
def readToken : PathToken → PathToken
  | .index n => .index n
  | .key key => .key (String.ofList (latin key.toList))

/-- One bracket of a path. -/
theorem pathTokens_bracket (fuel : ℕ) {body : List Char} (hbody : closeBracket ∉ body) (rest : List Char) :
    pathTokens lib (fuel + 1) (openBracket :: (body ++ closeBracket :: rest)) = (do
      let token ← bracketToken lib (strip (String.ofList body))
      let tokens ← pathTokens lib fuel rest
      return token :: tokens) := by
  have hfree : ∀ c ∈ body, (fun c => decide (c ≠ closeBracket)) c = true :=
    fun c hc => decide_eq_true (ne_of_mem_of_not_mem hc hbody)
  have htake : (body ++ closeBracket :: rest).takeWhile (· ≠ closeBracket) = body := by
    rw [List.takeWhile_append_of_pos hfree]
    simp
  have hdrop : (body ++ closeBracket :: rest).dropWhile (· ≠ closeBracket) = closeBracket :: rest := by
    rw [List.dropWhile_append_of_pos hfree]
    simp
  have hdot : openBracket ≠ '.' := by decide
  have hmem : ¬closeBracket ∉ body ++ closeBracket :: rest :=
    not_not.mpr (List.mem_append_right _ List.mem_cons_self)
  rw [pathTokens, if_neg hdot, if_pos rfl, if_neg hmem, htake, hdrop]
  rfl

/-- A key in quotes has no blanks at its ends. -/
theorem strip_quoted {quote : Char} (hquote : quote = singleQuote ∨ quote = doubleQuote)
    (text : List Char) : strip (String.ofList (quote :: (text ++ [quote]))) =
      String.ofList (quote :: (text ++ [quote])) := by
  have hspace : isSpace quote = false := by rcases hquote with rfl | rfl <;> decide
  refine strip_eq_self ?_ ?_
  · rw [String.toList_ofList]
    intro c hc
    rwa [← Option.some.inj hc]
  · rw [String.toList_ofList, ← List.cons_append, List.getLast?_concat]
    intro c hc
    rwa [← Option.some.inj hc]

/-- **A key between quotes is read as its bytes.** -/
theorem bracketToken_key (h : DecodesUnicodeEscape lib names) {quote : Char}
    (hquote : quote = singleQuote ∨ quote = doubleQuote) {key : String} (hkey : key ≠ "") :
    bracketToken lib (String.ofList (quote :: (escapeQuotes key.toList ++ [quote]))) =
      .ok (readToken (.key key)) := by
  -- escaping the quotes and decoding gives the octets of the key back
  have hdecode : lib.unicodeEscape (String.ofList (escapeQuotes key.toList)) =
      some (String.ofList (latin key.toList)) := by
    refine h.decoded _ _ ?_ fun n hn => .inl ((utf8_lt _ n hn).trans (by decide))
    rw [String.toList_ofList]
    exact decode_escapeQuotes names key.toList
  have hindex : isIndex (String.ofList (quote :: (escapeQuotes key.toList ++ [quote]))) = false := by
    unfold isIndex
    rw [String.toList_ofList]
    rcases hquote with rfl | rfl <;> rfl
  have hnonempty : String.ofList (latin key.toList) ≠ "" := by
    intro hempty
    have hlength := length_le_utf8 key.toList
    have hnil : latin key.toList = [] := String.ofList_eq_empty_iff.mp hempty
    rw [← List.length_map (f := Char.ofNat), show (utf8 key.toList).map Char.ofNat = [] from hnil] at hlength
    exact hkey (String.toList_eq_nil_iff.mp (List.length_eq_zero_iff.mp (Nat.le_zero.mp hlength)))
  unfold bracketToken
  rw [hindex, String.toList_ofList]
  -- the text is in quotes, so it is no index and its quotes are taken off
  dsimp only
  rw [if_neg Bool.false_ne_true, if_pos ⟨by simp, by simp, hquote⟩, List.dropLast_concat, hdecode]
  split
  · rename_i hnone
    cases hnone
  · rename_i hempty
    exact absurd (Option.some.inj hempty) hnonempty
  · rename_i hsome
    rw [← Option.some.inj hsome]
    rfl

/-- Escaping the last character. -/
theorem escapeQuotes_concat (text : List Char) (c : Char) : escapeQuotes (text ++ [c]) =
    escapeQuotes text ++ if special c.toNat then [backslash, c] else [c] := by
  unfold escapeQuotes
  rw [List.flatMap_append, List.flatMap_singleton]
  rfl

/-- Only spaces of the key are stripped. -/
theorem strip_cut {quote : Char} (hquote : quote = singleQuote ∨ quote = doubleQuote) (text : List Char) :
    ∃ kept, strip (String.ofList (quote :: escapeQuotes text)) =
      String.ofList (quote :: escapeQuotes kept) := by
  have hspace : isSpace quote = false := by rcases hquote with rfl | rfl <;> decide
  unfold strip
  rw [String.toList_ofList]
  suffices hkept : ∃ kept, trimBy isSpace (quote :: escapeQuotes text) = quote :: escapeQuotes kept by
    obtain ⟨kept, hkept⟩ := hkept
    exact ⟨kept, congrArg String.ofList hkept⟩
  -- by induction from the end: a space there is cut off, anything else stays
  induction text using List.reverseRecOn with
  | nil => exact ⟨[], trimBy_eq_self (by simp [hspace]) (by simp [escapeQuotes, hspace])⟩
  | append_singleton text c ih =>
    rw [escapeQuotes_concat]
    cases hc : isSpace c with
    | true =>
      have hplain : special c.toNat = false := by
        rw [Bool.eq_false_iff]
        intro hspecial
        rcases special_cases hspecial with h | h | h
        all_goals
          rw [← Char.ofNat_toNat c, h] at hc
          exact absurd hc (by decide)
      obtain ⟨kept, hkept⟩ := ih
      refine ⟨kept, ?_⟩
      rw [hplain, ← hkept]
      unfold trimBy
      simp [hspace, hc]
    | false =>
      refine ⟨text ++ [c], ?_⟩
      rw [escapeQuotes_concat]
      have hlast : (quote :: (escapeQuotes text ++
          if special c.toNat then [backslash, c] else [c])).getLast? = some c := by
        rw [← List.cons_append, List.getLast?_append_of_ne_nil _ (by split_ifs <;> simp)]
        split_ifs <;> rfl
      refine trimBy_eq_self (by simp [hspace]) fun d hd => ?_
      rw [hlast] at hd
      rw [← Option.some.inj hd, hc]

/-- A key that is cut at a closing bracket is not read. -/
theorem bracketToken_cut (h : DecodesUnicodeEscape lib names) {quote : Char}
    (hquote : quote = singleQuote ∨ quote = doubleQuote) (text : List Char) : ∃ message,
      bracketToken lib (strip (String.ofList (quote :: escapeQuotes text))) =
        .error (extractionError message) := by
  obtain ⟨kept, hkept⟩ := strip_cut hquote text
  rw [hkept]
  have hindex : isIndex (String.ofList (quote :: escapeQuotes kept)) = false := by
    unfold isIndex
    rw [String.toList_ofList]
    rcases hquote with rfl | rfl <;> rfl
  unfold bracketToken
  rw [hindex, String.toList_ofList, if_neg Bool.false_ne_true]
  dsimp only
  -- without its closing quote the text must end with a quote of the key to be taken for a key
  split_ifs with hlast
  · -- the quote at the end is one of the key, and its backslash is left behind
    rcases List.eq_nil_or_concat kept with rfl | ⟨init, c, rfl⟩
    · exact absurd rfl hlast.1
    · rw [List.concat_eq_append, escapeQuotes_concat] at hlast ⊢
      have hspecial : special quote.toNat = true := by rcases hquote with rfl | rfl <;> rfl
      have hc : c = quote := by
        have hgetLast := hlast.2.1
        split_ifs at hgetLast <;> simpa using hgetLast
      subst hc
      rw [if_pos hspecial]
      have hdrop : (escapeQuotes init ++ [backslash, c]).dropLast = escapeQuotes init ++ [backslash] := by
        rw [List.dropLast_append_of_ne_nil (by simp)]
        rfl
      rw [hdrop, h.undecoded _ (by rw [String.toList_ofList]; exact decode_dangling names init)]
      exact ⟨_, rfl⟩
  · exact ⟨_, rfl⟩

/-! ## Printed paths -/

/-- No closing bracket in a key. -/
def Unbroken : PathToken → Prop
  | .index _ => True
  | .key key => closeBracket ∉ key.toList

/-- A key without a closing bracket is not cut. -/
theorem closeBracket_not_mem_body {quote : Char} (hquote : quote = singleQuote ∨ quote = doubleQuote)
    {token : PathToken} (h : Unbroken token) : closeBracket ∉ tokenBody quote token := by
  cases token with
  | index n =>
    exact fun hmem => absurd (Nat.isDigit_of_mem_toDigits (by decide) (by decide) hmem) (by decide)
  | key key =>
    have hne : closeBracket ≠ quote := by rcases hquote with rfl | rfl <;> decide
    simp only [tokenBody, List.mem_cons, List.mem_append, List.not_mem_nil, or_false, hne, false_or,
      mem_escapeQuotes (show closeBracket ≠ backslash by decide)]
    exact h

/-- What is between the brackets is read as the token. -/
theorem bracketToken_body (h : DecodesUnicodeEscape lib names) {quote : Char}
    (hquote : quote = singleQuote ∨ quote = doubleQuote) {token : PathToken} (hkey : token ≠ .key "") :
    bracketToken lib (strip (String.ofList (tokenBody quote token))) = .ok (readToken token) := by
  cases token with
  | index n =>
    have hspace : ∀ c ∈ Nat.toDigits 10 n, isSpace c = false := fun c hc =>
      isSpace_of_isDigit (Nat.isDigit_of_mem_toDigits (by decide) (by decide) hc)
    have hstrip : strip (String.ofList (Nat.toDigits 10 n)) = String.ofList (Nat.toDigits 10 n) := by
      refine strip_eq_self (fun c hc => ?_) fun c hc => ?_
      · rw [String.toList_ofList] at hc
        exact hspace c (List.mem_of_mem_head? hc)
      · rw [String.toList_ofList] at hc
        exact hspace c (List.mem_of_mem_getLast? hc)
    rw [tokenBody, hstrip, bracketToken, if_pos (isIndex_toDigits n), indexValue_toDigits]
    rfl
  | key key =>
    rw [tokenBody, strip_quoted hquote]
    exact bracketToken_key h hquote fun hempty => hkey (hempty ▸ rfl)

theorem printTokens_cons (quote : Char) (token : PathToken) (tokens : List PathToken) :
    printTokens quote (token :: tokens) =
      openBracket :: (tokenBody quote token ++ closeBracket :: printTokens quote tokens) := by
  simp [printTokens, printToken]

/-- **Keys without a closing bracket are read as their bytes.** -/
theorem pathTokens_printed (h : DecodesUnicodeEscape lib names) {quote : Char}
    (hquote : quote = singleQuote ∨ quote = doubleQuote) {tokens : List PathToken}
    (hkeys : ∀ token ∈ tokens, token ≠ .key "") (hunbroken : ∀ token ∈ tokens, Unbroken token)
    {fuel : ℕ} (hfuel : (printTokens quote tokens).length ≤ fuel) :
    pathTokens lib fuel (printTokens quote tokens) = .ok (tokens.map readToken) := by
  induction tokens generalizing fuel with
  | nil => cases fuel <;> rfl
  | cons token tokens ih =>
    obtain ⟨hkey, hkeys⟩ := List.forall_mem_cons.mp hkeys
    obtain ⟨hclosed, hunbroken⟩ := List.forall_mem_cons.mp hunbroken
    rw [printTokens_cons] at hfuel ⊢
    obtain ⟨fuel, rfl⟩ := Nat.exists_eq_succ_of_ne_zero (Nat.ne_of_gt (Nat.lt_of_lt_of_le (by simp) hfuel))
    have hrest : (printTokens quote tokens).length ≤ fuel := by
      simp only [List.length_cons, List.length_append] at hfuel
      omega
    rw [pathTokens_bracket fuel (closeBracket_not_mem_body hquote hclosed), bracketToken_body h hquote hkey,
      ih hkeys hunbroken hrest]
    rfl

/-- **A path with a closing bracket in a key is not read.** -/
theorem pathTokens_broken (h : DecodesUnicodeEscape lib names) {quote : Char}
    (hquote : quote = singleQuote ∨ quote = doubleQuote) {tokens : List PathToken}
    (hkeys : ∀ token ∈ tokens, token ≠ .key "") (hbroken : ∃ token ∈ tokens, ¬Unbroken token)
    {fuel : ℕ} (hfuel : (printTokens quote tokens).length ≤ fuel) : ∃ message,
      pathTokens lib fuel (printTokens quote tokens) = .error (extractionError message) := by
  induction tokens generalizing fuel with
  | nil =>
    obtain ⟨token, htoken, -⟩ := hbroken
    exact absurd htoken List.not_mem_nil
  | cons token tokens ih =>
    obtain ⟨hkey, hkeys⟩ := List.forall_mem_cons.mp hkeys
    rw [printTokens_cons] at hfuel ⊢
    obtain ⟨fuel, rfl⟩ := Nat.exists_eq_succ_of_ne_zero (Nat.ne_of_gt (Nat.lt_of_lt_of_le (by simp) hfuel))
    have hrest : (printTokens quote tokens).length ≤ fuel := by
      simp only [List.length_cons, List.length_append] at hfuel
      omega
    by_cases hclosed : Unbroken token
    · obtain ⟨other, hother, hnot⟩ := hbroken
      have htail : ∃ token ∈ tokens, ¬Unbroken token := by
        rcases List.mem_cons.mp hother with rfl | hother
        · exact absurd hclosed hnot
        · exact ⟨other, hother, hnot⟩
      obtain ⟨message, herror⟩ := ih hkeys htail hrest
      refine ⟨message, ?_⟩
      rw [pathTokens_bracket fuel (closeBracket_not_mem_body hquote hclosed),
        bracketToken_body h hquote hkey, herror]
      rfl
    · cases token with
      | index n => exact absurd trivial hclosed
      | key key =>
        -- the bracket ends within the key
        obtain ⟨front, behind, hsplit, hfront⟩ := List.eq_append_cons_of_mem (not_not.mp hclosed)
        obtain ⟨message, herror⟩ := bracketToken_cut h hquote front
        have hne : closeBracket ≠ quote := by rcases hquote with rfl | rfl <;> decide
        have hbody : closeBracket ∉ quote :: escapeQuotes front := by
          simp only [List.mem_cons, hne, false_or, mem_escapeQuotes (show closeBracket ≠ backslash by decide)]
          exact hfront
        have hescape : escapeQuotes (front ++ closeBracket :: behind) =
            escapeQuotes front ++ closeBracket :: escapeQuotes behind := by
          unfold escapeQuotes
          rw [List.flatMap_append, List.flatMap_cons]
          rfl
        have hprinted : tokenBody quote (.key key) ++ closeBracket :: printTokens quote tokens =
            (quote :: escapeQuotes front) ++ closeBracket ::
              (escapeQuotes behind ++ quote :: closeBracket :: printTokens quote tokens) := by
          rw [tokenBody, hsplit, hescape]
          simp only [List.cons_append, List.append_assoc, List.nil_append]
        refine ⟨message, ?_⟩
        rw [hprinted, pathTokens_bracket fuel hbody, herror]
        rfl

/-! ## What a path addresses -/

/-- A value with nothing but a position. -/
def hold : List PathToken → Json
  | [] => .null
  | .index n :: tokens => .list (List.replicate n .null ++ [hold tokens])
  | .key key :: tokens => .obj [(key, hold tokens)]

/-- A value that has the position. -/
theorem valueAtPath_hold (tokens : List PathToken) : valueAtPath (hold tokens) tokens = some .null := by
  induction tokens with
  | nil => rfl
  | cons token tokens ih =>
    cases token with
    | index n =>
      rw [valueAtPath, hold, valueAt, List.getElem?_append_right (by simp)]
      simpa using ih
    | key key =>
      rw [valueAtPath, hold, valueAt, Dict.get_cons, if_pos rfl]
      exact ih

/-- Other keys lead to nothing in it. -/
theorem readToken_of_hold {tokens : List PathToken} {x : Json}
    (h : valueAtPath (hold tokens) (tokens.map readToken) = some x) :
    ∀ token ∈ tokens, readToken token = token := by
  induction tokens with
  | nil => exact fun _ htoken => absurd htoken List.not_mem_nil
  | cons token tokens ih =>
    rw [List.map_cons, valueAtPath] at h
    obtain ⟨next, hnext, hrest⟩ := Option.bind_eq_some_iff.mp h
    cases token with
    | index n =>
      rw [readToken, hold, valueAt, List.getElem?_append_right (by simp)] at hnext
      have hsame : next = hold tokens := by simpa using hnext.symm
      exact List.forall_mem_cons.mpr ⟨rfl, ih (hsame ▸ hrest)⟩
    | key key =>
      rw [readToken, hold, valueAt, Dict.get_cons, Dict.get_nil] at hnext
      split_ifs at hnext with hkey
      exact List.forall_mem_cons.mpr
        ⟨congrArg PathToken.key hkey.symm, ih (Option.some.inj hnext ▸ hrest)⟩

/-- ASCII without a closing bracket. -/
def PlainKey : PathToken → Prop
  | .index _ => True
  | .key key => ∀ c ∈ key.toList, c.toNat < 128 ∧ c ≠ closeBracket

/-- The keys that are read as what they are. -/
theorem plainKey_iff (token : PathToken) : PlainKey token ↔ Unbroken token ∧ readToken token = token := by
  cases token with
  | index n => exact iff_of_true trivial ⟨trivial, rfl⟩
  | key key =>
    have hread : readToken (.key key) = .key key ↔ latin key.toList = key.toList := by
      rw [readToken, PathToken.key.injEq, ← String.toList_inj, String.toList_ofList]
    rw [hread, latin_eq_iff]
    constructor
    · intro h
      exact ⟨fun hmem => (h _ hmem).2 rfl, fun c hc => (h c hc).1⟩
    · rintro ⟨hclosed, hascii⟩ c hc
      exact ⟨hascii c hc, ne_of_mem_of_not_mem hc hclosed⟩

/-- A printed path starts where it should. -/
theorem parseJsonPath_printPath (quote : Char) (tokens : List PathToken) :
    parseJsonPath lib (printPath quote tokens) =
      pathTokens lib (printTokens quote tokens).length (printTokens quote tokens) := by
  unfold parseJsonPath printPath
  rw [String.toList_ofList]
  rfl

/-- **Plain keys are addressed.** -/
theorem addresses_of_plain (h : DecodesUnicodeEscape lib names) {quote : Char}
    (hquote : quote = singleQuote ∨ quote = doubleQuote) {tokens : List PathToken}
    (hkeys : ∀ token ∈ tokens, token ≠ .key "")
    (hlength : (printPath quote tokens).length ≤ maxJsonPathLength)
    (hplain : ∀ token ∈ tokens, PlainKey token) (value : Json) : Addresses lib quote value tokens := by
  -- keys without special characters are read as they are written
  have hparse : parseJsonPath lib (printPath quote tokens) = .ok tokens := by
    rw [parseJsonPath_printPath, pathTokens_printed h hquote hkeys
      (fun token htoken => ((plainKey_iff token).mp (hplain token htoken)).1) le_rfl]
    refine congrArg Except.ok ((List.map_congr_left fun token htoken => ?_).trans (List.map_id _))
    exact ((plainKey_iff token).mp (hplain token htoken)).2
  have hget : jsonPathGet lib value (printPath quote tokens) = tokens.foldlM getToken value := by
    unfold jsonPathGet
    rw [hparse]
    rfl
  obtain ⟨hfound, hmissing⟩ := foldlM_getToken value tokens
  -- the path is found where the value has it, and not where it lacks it
  refine ⟨?_, fun x hx => hget.trans (hfound x hx), fun hnone => ?_⟩
  · have hne : printPath quote tokens ≠ "" := by
      intro hempty
      have hchars := congrArg String.toList hempty
      rw [printPath, String.toList_ofList] at hchars
      cases hchars
    rw [validateJsonPath, if_neg hne, if_neg (Nat.not_lt_of_ge hlength), hparse]
  · rw [hget]
    exact hmissing hnone

/-- A path that addresses its position in every value has plain keys. -/
theorem plain_of_addresses (h : DecodesUnicodeEscape lib names) {quote : Char}
    (hquote : quote = singleQuote ∨ quote = doubleQuote) {tokens : List PathToken}
    (hkeys : ∀ token ∈ tokens, token ≠ .key "")
    (haddresses : Addresses lib quote (hold tokens) tokens) : ∀ token ∈ tokens, PlainKey token := by
  have hget := haddresses.found .null (valueAtPath_hold tokens)
  unfold jsonPathGet at hget
  rw [parseJsonPath_printPath] at hget
  have hunbroken : ∀ token ∈ tokens, Unbroken token := by
    by_contra hbroken
    push Not at hbroken
    obtain ⟨message, herror⟩ := pathTokens_broken h hquote hkeys hbroken le_rfl
    rw [herror] at hget
    cases hget
  rw [pathTokens_printed h hquote hkeys hunbroken le_rfl] at hget
  -- what is read leads somewhere in a value that has this position only
  have hread : ∀ token ∈ tokens, readToken token = token := by
    obtain ⟨-, hmissing⟩ := foldlM_getToken (hold tokens) (tokens.map readToken)
    cases hvalue : valueAtPath (hold tokens) (tokens.map readToken) with
    | none =>
      obtain ⟨message, herror⟩ := hmissing hvalue
      have hboth := herror.symm.trans hget
      cases hboth
    | some x => exact readToken_of_hold hvalue
  exact fun token htoken => (plainKey_iff token).mpr ⟨hunbroken token htoken, hread token htoken⟩


/-- **A written path addresses its position in every value, if and only if its keys are plain.** The
parser ends on every text. -/
theorem paths_address_iff (h : DecodesUnicodeEscape lib names) :
    (∀ text fuel, text.length ≤ fuel → pathTokens lib fuel text ≠ .error outOfFuel ∧
      pathTokens lib fuel text = pathTokens lib text.length text) ∧
    ∀ quote tokens, quote = singleQuote ∨ quote = doubleQuote → (∀ token ∈ tokens, token ≠ .key "") →
      (printPath quote tokens).length ≤ maxJsonPathLength →
      ((∀ value, Addresses lib quote value tokens) ↔ ∀ token ∈ tokens, PlainKey token) :=
  ⟨fun text _ hfuel => ⟨pathTokens_ends lib hfuel, pathTokens_fuel lib text hfuel le_rfl⟩,
    fun _ tokens hquote hkeys hlength =>
    ⟨fun haddresses => plain_of_addresses h hquote hkeys (haddresses (hold tokens)),
      addresses_of_plain h hquote hkeys hlength⟩⟩

end Parse

/-! ## Keys -/

/-- The codec itself, without names of characters. -/
def codecLibrary : PyLibrary where
  re := plainRe
  floats := plainFloats
  find _ _ := none
  lower := lower
  upper := upper
  unicodeEscape text :=
    (decode (fun _ => none) text.toList).map fun codes => String.ofList (codes.map Char.ofNat)

/-- The codec decodes as it is assumed to. -/
theorem decodes_codecLibrary : DecodesUnicodeEscape codecLibrary fun _ => none where
  undecoded text h := by
    show Option.map _ (decode _ _) = none
    rw [h]
    rfl
  decoded text codes h _ := by
    show Option.map _ (decode _ _) = _
    rw [h]
    rfl

/-- Quotes and backslashes in a key. -/
theorem paths_address_quotes :
    Addresses codecLibrary doubleQuote (.obj [("it's a \"\\\"", .list (List.replicate 13 .null))])
      [.key "it's a \"\\\"", .index 12] := by
  refine ((paths_address_iff decodes_codecLibrary).2 doubleQuote _ (.inr rfl) (by decide)
    (by decide +kernel)).mpr ?_ _
  refine List.forall_mem_cons.mpr ⟨fun c hc => ?_, List.forall_mem_singleton.mpr trivial⟩
  have hall : ("it's a \"\\\"".toList.all fun c => decide (c.toNat < 128 ∧ c ≠ closeBracket)) = true := by
    decide +kernel
  exact of_decide_eq_true (List.all_eq_true.mp hall c hc)

/-- A letter with an accent is read as two others, and a closing bracket ends the key. -/
theorem accent_not_addressed :
    ¬Addresses codecLibrary singleQuote (.obj [("é", .null)]) [.key "é"] ∧
      ¬Addresses codecLibrary singleQuote (.obj [("a]", .null)]) [.key "a]"] := by
  have hnot (key : String) (hkey : key ≠ "")
      (hchar : ∃ c ∈ key.toList, ¬(c.toNat < 128 ∧ c ≠ closeBracket)) :
      ¬Addresses codecLibrary singleQuote (.obj [(key, .null)]) [.key key] := by
    intro haddresses
    have hplain := plain_of_addresses decodes_codecLibrary (.inl rfl)
      (List.forall_mem_singleton.mpr fun h => hkey (PathToken.key.inj h)) haddresses
    obtain ⟨c, hc, hbad⟩ := hchar
    exact hbad (List.forall_mem_singleton.mp hplain c hc)
  exact ⟨hnot "é" (by decide) ⟨'é', by decide, by decide⟩,
    hnot "a]" (by decide) ⟨closeBracket, by decide, by decide⟩⟩

end IncidentRelay.Orchestration
