import IncidentRelay.Caldav.Ics

/-!
# What a calendar feed says

The text of `build_calendar_ics` is read back by the rules of the format. Escapes and folds lose
nothing; but the folds count characters where the format counts octets, and the times lose their
fractions.

 * `icsEscape_eq`: the six replacements are one escape of the normalized text.
 * `fits_foldChunks`: which lines are folded into lines of 75 octets.
 * `calendar_faithful_iff`: the feed is faithful if and only if its lines fit and its times are
   whole seconds.
-/

namespace IncidentRelay.Caldav

open ContentLines DateText Rotations

/-! ## Escapes -/

/-- The last three replacements. -/
def escapeBreaks (text : Text) : Text :=
  replace ['\r'] ['\\', 'n'] (replace ['\n'] ['\\', 'n'] (replace ['\r', '\n'] ['\\', 'n'] text))

theorem icsEscape_marks (text : Text) : icsEscape text = escapeBreaks (text.flatMap markChar) := by
  rw [← marks_eq]
  rfl

def breakChar (c : Char) : Text := if c = '\r' ∨ c = '\n' then ['\\', 'n'] else [c]

/-- A pair of breaks is one. -/
theorem escapeBreaks_pair (text : Text) :
    escapeBreaks ('\r' :: '\n' :: text) = ['\\', 'n'] ++ escapeBreaks text := by
  unfold escapeBreaks
  rw [replace_crlf_pair]
  simp only [replace_char, List.flatMap_append]
  rfl

/-- Otherwise breaks are escaped one by one. -/
theorem escapeBreaks_cons (text : Text) {c : Char}
    (h : ¬(c = '\r' ∧ ∃ rest, text = '\n' :: rest)) :
    escapeBreaks (c :: text) = breakChar c ++ escapeBreaks text := by
  unfold escapeBreaks
  rw [replace_crlf_cons _ _ h]
  simp only [replace_char, List.flatMap_cons, List.flatMap_append]
  congr 1
  unfold breakChar
  by_cases hlf : c = '\n'
  · subst hlf
    rfl
  · by_cases hcr : c = '\r'
    · subst hcr
      rfl
    · simp [hlf, hcr]

/-- In front of what has no break the two do not mix. -/
theorem escapeBreaks_append {marks : Text} (h : '\r' ∉ marks) (text : Text) :
    escapeBreaks (marks ++ text) = marks.flatMap breakChar ++ escapeBreaks text := by
  induction marks with
  | nil => rfl
  | cons c marks ih =>
    rw [List.mem_cons, not_or] at h
    rw [List.cons_append, escapeBreaks_cons _ fun hc => h.1 hc.1.symm, ih h.2, List.flatMap_cons,
      List.append_assoc]

/-- A line break of the marked text is one of the text. -/
theorem head_marks {text rest : Text} (h : text.flatMap markChar = '\n' :: rest) :
    ∃ rest', text = '\n' :: rest' := by
  cases text with
  | nil => cases h
  | cons c text =>
    rw [List.flatMap_cons, markChar] at h
    split_ifs at h
    · exact absurd (List.cons.inj h).1 (by decide)
    · exact absurd (List.cons.inj h).1 (by decide)
    · exact absurd (List.cons.inj h).1 (by decide)
    · exact ⟨text, by rw [(List.cons.inj h).1]⟩

/-- What the marks of a character become. -/
theorem breaks_markChar {c : Char} (h : c ≠ '\r') :
    '\r' ∉ markChar c ∧ (markChar c).flatMap breakChar = escapeChar c := by
  unfold markChar escapeChar
  split_ifs with hslash hsemicolon hcomma hbreak
  · exact ⟨by decide, rfl⟩
  · exact ⟨by decide, rfl⟩
  · exact ⟨by decide, rfl⟩
  · rw [hbreak]
    exact ⟨by decide, rfl⟩
  · refine ⟨fun hmem => h (List.mem_singleton.mp hmem).symm, ?_⟩
    simp [breakChar, h, hbreak]

/-- **The six replacements are one escape** of the text with normalized line breaks. -/
theorem icsEscape_eq (text : Text) : icsEscape text = escape (normalizeNewlines text) := by
  rw [icsEscape_marks]
  -- by the cases of the normalisation: a pair, a single return, any other character
  fun_induction normalizeNewlines text with
  | case1 => rfl
  | case2 text ih =>
    show escapeBreaks ('\r' :: '\n' :: text.flatMap markChar) = _
    rw [escapeBreaks_pair, ih]
    rfl
  | case3 text hsingle ih =>
    have hcons : escapeBreaks ('\r' :: text.flatMap markChar) =
        breakChar '\r' ++ escapeBreaks (text.flatMap markChar) := by
      -- behind a single return there is no line feed, nor in its escaped text
      refine escapeBreaks_cons _ ?_
      rintro ⟨-, rest, hrest⟩
      obtain ⟨rest', rfl⟩ := head_marks hrest
      exact hsingle rest' rfl
    show escapeBreaks ('\r' :: text.flatMap markChar) = _
    rw [hcons, ih]
    rfl
  | case4 c text _ hc ih =>
    obtain ⟨hmarks, hescape⟩ := breaks_markChar (c := c) hc
    rw [List.flatMap_cons, escapeBreaks_append hmarks, hescape, ih]
    rfl

/-- **What is escaped is read back**, up to the kind of its line breaks. -/
theorem unescape_icsEscape (text : Text) : unescape (icsEscape text) = normalizeNewlines text := by
  rw [icsEscape_eq, unescape_escape]

theorem not_mem_icsEscape (text : Text) : '\r' ∉ icsEscape text := by
  rw [icsEscape_eq]
  exact (plain_escape (not_mem_normalizeNewlines text)).1

/-! ## Folds -/

/-- **Folded lines are joined again.** By induction on the cursor. -/
theorem unfoldFrom_foldFrom (line : Text) (cursor : ℕ) (before : Text) (rest : List Text) :
    unfoldFrom before (foldFrom line cursor ++ rest) = unfoldFrom (before ++ line.drop cursor) rest := by
  fun_induction foldFrom line cursor generalizing before with
  | case1 cursor hlt ih =>
    rw [List.cons_append, unfoldFrom, ih, List.append_assoc, ← List.drop_drop, List.take_append_drop]
  | case2 cursor hge =>
    rw [List.drop_eq_nil_of_le (not_lt.mp hge), List.append_nil]
    rfl

/-- **The chunks of a line are the line.** -/
theorem folds_foldChunks {line : Text} (h : Starts line) : Folds line (foldChunks line) := by
  unfold foldChunks
  split_ifs with hshort
  · exact ⟨line, [], rfl, h, fun _ => rfl⟩
  · refine ⟨line.take 75, foldFrom line 75, rfl, ?_, fun rest => ?_⟩
    · obtain ⟨c, text, rfl, hc⟩ := h
      exact ⟨c, text.take 74, rfl, hc⟩
    · rw [unfoldFrom_foldFrom, List.take_append_drop]

/-- A fold adds blanks only. -/
theorem mem_foldFrom {line piece : Text} {cursor : ℕ} {c : Char} (h : piece ∈ foldFrom line cursor)
    (hc : c ∈ piece) : c = ' ' ∨ c ∈ line := by
  fun_induction foldFrom line cursor with
  | case1 cursor hlt ih =>
    rcases List.mem_cons.mp h with rfl | hrest
    · rcases List.mem_cons.mp hc with hspace | hmem
      · exact .inl hspace
      · exact .inr (List.mem_of_mem_drop (List.mem_of_mem_take hmem))
    · exact ih hrest
  | case2 cursor hge => exact absurd h List.not_mem_nil

/-- Folding adds nothing but blanks. -/
theorem mem_foldChunks {line piece : Text} {c : Char} (h : piece ∈ foldChunks line) (hc : c ∈ piece) :
    c = ' ' ∨ c ∈ line := by
  unfold foldChunks at h
  split_ifs at h
  · exact .inr (List.mem_singleton.mp h ▸ hc)
  · rcases List.mem_cons.mp h with rfl | hrest
    · exact .inr (List.mem_of_mem_take hc)
    · exact mem_foldFrom hrest hc

/-! ## Octets -/

/-- One octet for each character. -/
def Ascii (text : Text) : Prop := ∀ c ∈ text, c.utf8Size = 1

instance (text : Text) : Decidable (Ascii text) :=
  List.decidableBAll (fun c : Char => c.utf8Size = 1) text

theorem octets_append (a b : Text) : octets (a ++ b) = octets a + octets b := by
  unfold octets
  rw [List.map_append, List.sum_append]

/-- A character has one octet at least. -/
theorem length_le_octets (text : Text) : text.length ≤ octets text := by
  induction text with
  | nil => exact le_rfl
  | cons c text ih =>
    have hc : 0 < c.utf8Size := c.utf8Size_pos
    show text.length + 1 ≤ octets ([c] ++ text)
    rw [octets_append]
    show _ ≤ c.utf8Size + 0 + octets text
    omega

/-- A text has as many octets as characters only where it is ASCII. -/
theorem octets_le_length_iff (text : Text) : octets text ≤ text.length ↔ Ascii text := by
  induction text with
  | nil => exact iff_of_true le_rfl fun _ hc => absurd hc List.not_mem_nil
  | cons c text ih =>
    have hc : 0 < c.utf8Size := c.utf8Size_pos
    have htext := length_le_octets text
    have hcons : octets (c :: text) = c.utf8Size + octets text := by
      show octets ([c] ++ text) = _
      rw [octets_append]
      rfl
    unfold Ascii at ih ⊢
    rw [List.forall_mem_cons, ← ih, hcons, List.length_cons]
    omega

/-- The start of the last continuation of a text. -/
def lastFold (length : ℕ) : ℕ := 74 * ((length - 1) / 74)

/-- The start of the last physical line. -/
def lastBreak (line : Text) : ℕ := if line.length ≤ 75 then 0 else 75 + lastFold (line.length - 75)

/-- **The line fits**: it is ASCII up to its last fold, and the octets behind it have room. -/
def Fits (line : Text) : Prop :=
  Ascii (line.take (lastBreak line)) ∧
    octets (line.drop (lastBreak line)) ≤ if line.length ≤ 75 then 75 else 74

/-- **The pieces fit, if and only if** all that is folded is ASCII, and the rest is short
enough. -/
theorem fits_foldFrom (line : Text) (cursor : ℕ) :
    (∀ piece ∈ foldFrom line cursor, octets piece ≤ 75) ↔
      Ascii ((line.drop cursor).take (lastFold (line.drop cursor).length)) ∧
        octets ((line.drop cursor).drop (lastFold (line.drop cursor).length)) ≤ 74 := by
  fun_induction foldFrom line cursor with
  | case1 cursor hlt ih =>
    obtain ⟨rest, hrest⟩ : ∃ rest, rest = line.drop cursor := ⟨_, rfl⟩
    have hnext : line.drop (cursor + 74) = rest.drop 74 := by rw [hrest, List.drop_drop]
    have hpos : 0 < rest.length := by
      rw [hrest, List.length_drop]
      omega
    have hblank (text : Text) : octets (' ' :: text) = 1 + octets text := octets_append [' '] text
    rw [List.forall_mem_cons, ih, hnext, ← hrest, hblank]
    rcases le_or_gt rest.length 74 with hshort | hlong
    · -- the last chunk
      have hzero : lastFold rest.length = 0 := by unfold lastFold; omega
      rw [hzero, List.take_zero, List.drop_zero, List.take_of_length_le hshort,
        List.drop_eq_nil_of_le hshort]
      have hnil : Ascii ([] : Text) := fun _ hc => absurd hc List.not_mem_nil
      simp only [List.take_nil, List.drop_nil]
      constructor
      · rintro ⟨hpiece, -⟩
        exact ⟨hnil, by omega⟩
      · rintro ⟨-, hoctets⟩
        exact ⟨by omega, hnil, by decide⟩
    · -- a full chunk is ASCII
      have hstep : lastFold rest.length = 74 + lastFold (rest.drop 74).length := by
        unfold lastFold
        rw [List.length_drop]
        omega
      have hchunk : 1 + octets (rest.take 74) ≤ 75 ↔ Ascii (rest.take 74) := by
        have hlength : (rest.take 74).length = 74 := List.length_take_of_le hlong.le
        rw [← octets_le_length_iff, hlength]
        omega
      rw [hchunk, hstep, List.take_add, ← List.drop_drop, ← and_assoc]
      refine and_congr_left fun _ => ?_
      unfold Ascii
      rw [List.forall_mem_append]
  -- nothing is left
  | case2 cursor hge =>
    rw [List.drop_eq_nil_of_le (not_lt.mp hge)]
    refine iff_of_true (fun _ hp => absurd hp List.not_mem_nil) ⟨?_, by simp [octets]⟩
    rw [List.take_nil]
    exact fun _ hc => absurd hc List.not_mem_nil

/-- **Which lines are folded into lines of 75 octets.** -/
theorem fits_foldChunks (line : Text) :
    (∀ piece ∈ foldChunks line, octets piece ≤ 75) ↔ Fits line := by
  unfold foldChunks Fits lastBreak
  split_ifs with hshort
  · rw [List.forall_mem_singleton, List.take_zero, List.drop_zero]
    exact ⟨fun h => ⟨fun _ hc => absurd hc List.not_mem_nil, h⟩, fun h => h.2⟩
  · have hfirst : octets (line.take 75) ≤ 75 ↔ Ascii (line.take 75) := by
      have hlength : (line.take 75).length = 75 := List.length_take_of_le (by omega)
      rw [← octets_le_length_iff, hlength]
    rw [List.forall_mem_cons, fits_foldFrom, hfirst, List.length_drop, List.take_add,
      ← List.drop_drop, ← and_assoc]
    refine and_congr_left fun _ => ?_
    unfold Ascii
    rw [List.forall_mem_append]

/-- ASCII lines are folded right. -/
theorem fits_of_ascii {line : Text} (h : Ascii line) : Fits line := by
  have hdrop : Ascii (line.drop (lastBreak line)) := fun c hc => h c (List.mem_of_mem_drop hc)
  refine ⟨fun c hc => h c (List.mem_of_mem_take hc), ((octets_le_length_iff _).mpr hdrop).trans ?_⟩
  rw [List.length_drop, lastBreak, lastFold]
  split_ifs <;> omega

theorem ascii_append {a b : Text} (ha : Ascii a) (hb : Ascii b) : Ascii (a ++ b) :=
  List.forall_mem_append.mpr ⟨ha, hb⟩

/-! ## Times -/

/-- A replacement finds nothing where the first character of the text is missing. -/
theorem replace_append {c : Char} {before : Text} (h : c ∉ before) (old new text : Text) :
    replace (c :: old) new (before ++ text) = before ++ replace (c :: old) new text := by
  induction before with
  | nil => rfl
  | cons d before ih =>
    rw [List.mem_cons, not_or] at h
    have hstep : replace (c :: old) new (d :: (before ++ text)) =
        d :: replace (c :: old) new (before ++ text) := by
      rw [replace, replaceFrom, if_neg]
      · rfl
      · rw [List.isPrefixOf_iff_prefix]
        rintro ⟨rest, hrest⟩
        exact h.1 (List.cons.inj hrest).1
    rw [List.cons_append, hstep, ih h.2]
    rfl

theorem utcIsoformat_eq (t : UtcDateTime) : utcIsoformat t = stem t ++ ['Z'] :=
  replace_append (not_mem_stem t) "00:00".toList "Z".toList "+00:00".toList

/-- **The text of a time parses to the time.** -/
theorem parseDatetime_utcIsoformat (t : UtcDateTime) : parseDatetime (utcIsoformat t) = some t := by
  have hlast : (stem t ++ ['Z']).getLast? = some 'Z' := List.getLast?_concat
  unfold parseDatetime
  rw [utcIsoformat_eq, if_pos hlast, List.dropLast_concat]
  exact readExtended_extended t

/-- Digits are ASCII. -/
theorem utf8Size_of_isDigit {c : Char} (h : c.isDigit = true) : c.utf8Size = 1 := by
  have hbound : c.val ≤ 57 := by
    simp only [Char.isDigit, Bool.and_eq_true, decide_eq_true_eq] at h
    exact h.2
  exact Char.utf8Size_eq_one_iff.mpr (UInt32.le_trans hbound (by decide))

theorem ascii_basic (t : UtcDateTime) : Ascii (basic t) := by
  have hdigits (width n : ℕ) : Ascii (digits width n) :=
    fun c hc => utf8Size_of_isDigit (isDigit_of_mem_digits hc)
  have hnil : Ascii ([] : Text) := fun _ hc => absurd hc List.not_mem_nil
  have hT : Ascii ['T'] := List.forall_mem_singleton.mpr (by decide)
  have hZ : Ascii ['Z'] := List.forall_mem_singleton.mpr (by decide)
  refine ascii_append (hdigits 4 _) (ascii_append hnil (ascii_append (hdigits 2 _) (ascii_append hnil ?_)))
  refine ascii_append (hdigits 2 _) (ascii_append hT (ascii_append (hdigits 2 _) (ascii_append hnil ?_)))
  exact ascii_append (hdigits 2 _) (ascii_append hnil (ascii_append (hdigits 2 _) (ascii_append hZ hnil)))

/-! ## The feed as a component -/

def property (name : String) (value : Text) : Property := ⟨name.toList, [], value⟩

section Encoding

variable (sha : Sha256) (now : UtcDateTime)

def eventProperties (e : Event) : List Property :=
  [property "UID" (eventUid e sha),
    property "DTSTAMP" (basic now),
    property "DTSTART" (basic e.start),
    property "DTEND" (basic e.stop),
    property "SUMMARY" (icsEscape (summary e)),
    property "DESCRIPTION" (icsEscape (description e)),
    property "LOCATION" (icsEscape (teamName e)),
    property "TRANSP" "OPAQUE".toList]

def calendarProperties (calendarName : Text) : List Property :=
  [property "VERSION" "2.0".toList,
    property "PRODID" "-//IncidentRelay//On-call Calendar//EN".toList,
    property "CALSCALE" "GREGORIAN".toList,
    property "METHOD" "PUBLISH".toList,
    property "X-WR-CALNAME" (icsEscape calendarName),
    property "X-WR-TIMEZONE" "UTC".toList,
    ⟨"REFRESH-INTERVAL".toList, ";VALUE=DURATION".toList, "PT15M".toList⟩,
    property "X-PUBLISHED-TTL" "PT15M".toList]

def eventEncoding (e : Event) : List Property :=
  opening "VEVENT".toList ::
    (eventProperties sha now e ++ (([] : List (List Property)).flatten ++ [closing "VEVENT".toList]))

def calendarEncoding (calendarName : Text) (events : List Event) : List Property :=
  opening "VCALENDAR".toList :: (calendarProperties calendarName ++
    ((events.map (eventEncoding sha now)).flatten ++ [closing "VCALENDAR".toList]))

def eventComponent (e : Event) : Component := .node "VEVENT".toList (eventProperties sha now e) []

def calendarComponent (calendarName : Text) (events : List Event) : Component :=
  .node "VCALENDAR".toList (calendarProperties calendarName) (events.map (eventComponent sha now))

/-- The lines of an event are those of its properties. -/
theorem buildVeventLines_eq (e : Event) :
    buildVeventLines e sha now = some ((eventEncoding sha now e).map Property.line) := by
  unfold buildVeventLines
  rw [parseDatetime_utcIsoformat, parseDatetime_utcIsoformat]
  rfl

theorem calendarHead_eq (calendarName : Text) :
    calendarHead calendarName =
      (opening "VCALENDAR".toList :: calendarProperties calendarName).map Property.line := by
  rfl

/-- The names and the parameters of an event are those of every event. -/
def eventHeads : List (Text × Text) :=
  ["UID", "DTSTAMP", "DTSTART", "DTEND", "SUMMARY", "DESCRIPTION", "LOCATION", "TRANSP"].map
    fun name => (name.toList, [])

def calendarHeads : List (Text × Text) :=
  ["VERSION", "PRODID", "CALSCALE", "METHOD", "X-WR-CALNAME", "X-WR-TIMEZONE"].map
      (fun name => (name.toList, [])) ++
    [("REFRESH-INTERVAL".toList, ";VALUE=DURATION".toList), ("X-PUBLISHED-TTL".toList, [])]

theorem heads_event (e : Event) : (eventProperties sha now e).map Property.head = eventHeads := rfl

theorem heads_calendar (calendarName : Text) :
    (calendarProperties calendarName).map Property.head = calendarHeads := rfl

/-- A head that starts a line and is one octet for each character. -/
def LineHead (head : Text × Text) : Prop :=
  ProperHead head ∧ head.1 ≠ [] ∧ ∀ c ∈ head.1 ++ head.2, c.utf8Size = 1 ∧ c ≠ '\r'

instance (head : Text × Text) : Decidable (LineHead head) :=
  have : Decidable (∀ c ∈ head.1 ++ head.2, c.utf8Size = 1 ∧ c ≠ '\r') := List.decidableBAll _ _
  inferInstanceAs (Decidable (_ ∧ _ ∧ _))

theorem good_heads : (∀ head ∈ eventHeads, InnerHead head ∧ LineHead head) ∧
    ∀ head ∈ calendarHeads, InnerHead head ∧ LineHead head := by
  decide +kernel

theorem good_event (e : Event) :
    ∀ p ∈ eventProperties sha now e, InnerHead p.head ∧ LineHead p.head :=
  fun _ hp => good_heads.1 _ (heads_event sha now e ▸ List.mem_map_of_mem hp)

theorem good_calendar (calendarName : Text) :
    ∀ p ∈ calendarProperties calendarName, InnerHead p.head ∧ LineHead p.head :=
  fun _ hp => good_heads.2 _ (heads_calendar calendarName ▸ List.mem_map_of_mem hp)

theorem good_bounds (name : Text) : LineHead (opening name).head ∧ LineHead (closing name).head := by
  show LineHead ("BEGIN".toList, []) ∧ LineHead ("END".toList, [])
  decide +kernel

theorem encodes_event (e : Event) : Encodes (eventEncoding sha now e) (eventComponent sha now e) :=
  encodes_node (fun p hp => (good_event sha now e p hp).1) .nil

/-- The lines of a calendar encode it and its events. -/
theorem encodes_calendar (calendarName : Text) (events : List Event) :
    Encodes (calendarEncoding sha now calendarName events)
      (calendarComponent sha now calendarName events) := by
  refine encodes_node (fun p hp => (good_calendar calendarName p hp).1) ?_
  rw [List.forall₂_map_left_iff, List.forall₂_map_right_iff, List.forall₂_same]
  exact fun e _ => encodes_event sha now e

/-- The properties of a feed, by what they are for. -/
theorem forall_mem_encoding {P : Property → Prop} {calendarName : Text} {events : List Event} :
    (∀ p ∈ calendarEncoding sha now calendarName events, P p) ↔
      (P (opening "VCALENDAR".toList) ∧ P (closing "VCALENDAR".toList)) ∧
        (∀ p ∈ calendarProperties calendarName, P p) ∧
          ∀ e ∈ events, (P (opening "VEVENT".toList) ∧ P (closing "VEVENT".toList)) ∧
            ∀ p ∈ eventProperties sha now e, P p := by
  -- the properties are those of the calendar and those of each event
  have hevent (e : Event) : (∀ p ∈ eventEncoding sha now e, P p) ↔
      (P (opening "VEVENT".toList) ∧ P (closing "VEVENT".toList)) ∧
        ∀ p ∈ eventProperties sha now e, P p := by
    unfold eventEncoding
    rw [List.forall_mem_cons, List.forall_mem_append, List.flatten_nil, List.nil_append,
      List.forall_mem_singleton]
    tauto
  unfold calendarEncoding
  rw [List.forall_mem_cons, List.forall_mem_append, List.forall_mem_append, List.forall_mem_singleton]
  simp only [List.mem_flatten, List.mem_map, exists_exists_and_eq_and, forall_exists_index, and_imp]
  have hswap : (∀ (p : Property) (e : Event), e ∈ events → p ∈ eventEncoding sha now e → P p) ↔
      ∀ e ∈ events, ∀ p ∈ eventEncoding sha now e, P p :=
    ⟨fun h e he p hp => h p e he hp, fun h p e he hp => h e he p hp⟩
  rw [hswap]
  simp only [hevent]
  tauto

end Encoding

/-! ## Lines -/

section Lines

variable {p : Property}

/-- A line starts with its head. -/
theorem starts_line (h : LineHead p.head) : Starts p.line := by
  obtain ⟨⟨hnames, -⟩, hne, -⟩ := h
  obtain ⟨c, name, hname⟩ := List.exists_cons_of_ne_nil hne
  have hc : isNameChar c = true := hnames c (hname ▸ List.mem_cons_self)
  refine ⟨c, name ++ p.params ++ ':' :: p.value, ?_, ?_, ?_⟩
  · show p.head.1 ++ p.params ++ ':' :: p.value = _
    rw [hname]
    rfl
  · rintro rfl
    exact absurd hc (by decide)
  · rintro rfl
    exact absurd hc (by decide)

/-- A line has no carriage return if its value has none. -/
theorem not_mem_line (h : LineHead p.head) (hvalue : '\r' ∉ p.value) : '\r' ∉ p.line := by
  intro hmem
  rcases List.mem_append.mp hmem with hhead | hrest
  · exact (h.2.2 _ hhead).2 rfl
  · rcases List.mem_cons.mp hrest with hcolon | hval
    · exact absurd hcolon (by decide)
    · exact hvalue hval

theorem ascii_line (h : LineHead p.head) (hvalue : Ascii p.value) : Ascii p.line := by
  refine ascii_append (fun c hc => (h.2.2 c hc).1) ?_
  exact List.forall_mem_cons.mpr ⟨by decide, hvalue⟩

end Lines

/-- The uid of an event is ASCII. -/
theorem ascii_eventUid (e : Event) (sha : Sha256) : Ascii (eventUid e sha) := by
  refine ascii_append (fun c hc => ?_) ?_
  · have hhex : Ascii "0123456789abcdef".toList := by decide +kernel
    exact hhex c (sha.hex _ c hc)
  · show Ascii "@incidentrelay".toList
    decide +kernel

/-- A text of one octet for each character has a line break only where it is written there. -/
theorem not_mem_eventUid (e : Event) (sha : Sha256) : '\r' ∉ eventUid e sha := by
  intro h
  rcases List.mem_append.mp h with hmem | hmem
  · exact absurd (sha.hex _ _ hmem) (by decide)
  · exact absurd hmem (by decide)

/-- A time has no carriage return. -/
theorem not_mem_basic (t : UtcDateTime) : '\r' ∉ basic t := by
  have hdigits (width n : ℕ) : '\r' ∉ digits width n :=
    fun h => absurd (isDigit_of_mem_digits h) (by decide)
  unfold basic
  simp only [List.mem_append, hdigits, false_or, not_or]
  decide +kernel

/-! ## The text of a feed -/

section Feed

variable (sha : Sha256) (now : UtcDateTime) (calendarName : Text) (events : List Event)

/-- A separator behind the joined lines ends the last one. -/
theorem intercalate_append {lines : List Text} (h : lines ≠ []) (sep : Text) :
    sep.intercalate lines ++ sep = lines.flatMap (· ++ sep) := by
  induction lines with
  | nil => exact absurd rfl h
  | cons line lines ih =>
    cases lines with
    | nil => simp [List.intercalate]
    | cons next lines =>
      rw [List.flatMap_cons, ← ih (List.cons_ne_nil next lines)]
      simp [List.intercalate, List.intersperse]

/-- A folded line is its pieces, each of them ended. -/
theorem foldIcsLine_append (line : Text) : foldIcsLine line ++ crlf = joinLines (foldChunks line) := by
  refine intercalate_append ?_ crlf
  unfold foldChunks
  split_ifs
  · exact List.cons_ne_nil _ _
  · exact List.cons_ne_nil _ _

/-- The folded lines of a feed. -/
def feedLines : List (List Text) :=
  ((calendarEncoding sha now calendarName events).map Property.line).map foldChunks

/-- **The feed is the pieces of its lines.** -/
theorem buildCalendarIcs_eq :
    buildCalendarIcs sha now calendarName events =
      some (joinLines (feedLines sha now calendarName events).flatten) := by
  -- every event is written
  have hvevents : events.mapM (fun e => buildVeventLines e sha now) =
      some ((events.map (eventEncoding sha now)).map (List.map Property.line)) := by
    induction events with
    | nil => rfl
    | cons e events ih =>
      rw [List.mapM_cons, buildVeventLines_eq, ih]
      rfl
  have hlines : calendarHead calendarName ++
      ((events.map (eventEncoding sha now)).map (List.map Property.line)).flatten ++
        ["END:VCALENDAR".toList] = (calendarEncoding sha now calendarName events).map Property.line := by
    unfold calendarEncoding
    rw [calendarHead_eq, List.map_cons, List.map_cons, List.map_append, List.map_append,
      List.map_flatten, List.cons_append, List.cons_append, List.append_assoc]
    rfl
  -- lines are folded one by one, so the folded feed is the feed of folded lines
  unfold buildCalendarIcs
  rw [hvevents]
  show some (crlf.intercalate (List.map foldIcsLine (calendarHead calendarName ++
    ((events.map (eventEncoding sha now)).map (List.map Property.line)).flatten ++
      ["END:VCALENDAR".toList])) ++ crlf) = _
  rw [hlines, intercalate_append (by simp [calendarEncoding])]
  unfold feedLines
  generalize (calendarEncoding sha now calendarName events).map Property.line = lines
  rw [List.flatMap_map]
  simp only [foldIcsLine_append, joinLines, ← List.flatMap_def, List.flatMap_assoc]

/-- Each property of the feed can be read. -/
theorem good_encoding :
    ∀ p ∈ calendarEncoding sha now calendarName events, LineHead p.head ∧ '\r' ∉ p.value := by
  rw [forall_mem_encoding]
  refine ⟨⟨⟨(good_bounds _).1, by decide⟩, ⟨(good_bounds _).2, by decide⟩⟩, fun p hp => ?_, fun e _ =>
    ⟨⟨⟨(good_bounds _).1, by decide⟩, ⟨(good_bounds _).2, by decide⟩⟩, fun p hp => ?_⟩⟩
  · refine ⟨(good_calendar calendarName p hp).2, ?_⟩
    revert p
    unfold calendarProperties
    simp only [List.forall_mem_cons, property]
    exact ⟨by decide +kernel, by decide +kernel, by decide +kernel, by decide +kernel,
      not_mem_icsEscape _, by decide +kernel, by decide +kernel, by decide +kernel,
      fun _ h => absurd h List.not_mem_nil⟩
  · refine ⟨(good_event sha now e p hp).2, ?_⟩
    revert p
    unfold eventProperties
    simp only [List.forall_mem_cons, property]
    exact ⟨not_mem_eventUid e sha, not_mem_basic _, not_mem_basic _, not_mem_basic _, not_mem_icsEscape _,
      not_mem_icsEscape _, not_mem_icsEscape _, by decide +kernel, fun _ h => absurd h List.not_mem_nil⟩

/-- No piece has a carriage return. -/
theorem plain_feed : ∀ pieces ∈ feedLines sha now calendarName events, ∀ piece ∈ pieces, '\r' ∉ piece := by
  intro pieces hpieces piece hpiece hmem
  unfold feedLines at hpieces
  rw [List.map_map] at hpieces
  obtain ⟨p, hp, rfl⟩ := List.mem_map.mp hpieces
  obtain ⟨hhead, hvalue⟩ := good_encoding sha now calendarName events p hp
  rcases mem_foldChunks hpiece hmem with hblank | hline
  · exact absurd hblank (by decide)
  · exact not_mem_line hhead hvalue hline

/-- **The feed is the component that was written.** -/
theorem parseText_feed :
    parseText (joinLines (feedLines sha now calendarName events).flatten) =
      some [calendarComponent sha now calendarName events] := by
  have hgood := good_encoding sha now calendarName events
  refine parseText_of_encodes (encodes_calendar sha now calendarName events)
    (fun p hp => (hgood p hp).1.1) ?_ (plain_feed sha now calendarName events)
  unfold feedLines
  rw [List.forall₂_map_right_iff, List.forall₂_same]
  intro line hline
  obtain ⟨p, hp, rfl⟩ := List.mem_map.mp hline
  exact folds_foldChunks (starts_line (hgood p hp).1)

theorem splitLines_feed :
    splitLines (joinLines (feedLines sha now calendarName events).flatten) =
      (feedLines sha now calendarName events).flatten := by
  refine splitLines_joinLines fun line hline => ?_
  obtain ⟨pieces, hpieces, hmem⟩ := List.mem_flatten.mp hline
  exact plain_feed sha now calendarName events pieces hpieces line hmem

/-- The part shows the event. -/
structure Shows (e : Event) (part : Component) : Prop where
  name : part.name = "VEVENT".toList
  properties : part.properties.map (·.name) =
    ["UID", "DTSTAMP", "DTSTART", "DTEND", "SUMMARY", "DESCRIPTION", "LOCATION", "TRANSP"].map String.toList
  parts : part.parts = []
  start : (part.value "DTSTART".toList).bind readBasic = some e.start
  stop : (part.value "DTEND".toList).bind readBasic = some e.stop
  summary : (part.value "SUMMARY".toList).map unescape = some (normalizeNewlines (summary e))
  description : (part.value "DESCRIPTION".toList).map unescape = some (normalizeNewlines (description e))
  location : (part.value "LOCATION".toList).map unescape = some (normalizeNewlines (teamName e))

/-- The text is one calendar with the properties of every calendar and a part for each event. -/
def Faithful (text : Text) (events : List Event) : Prop :=
  ∃ calendar, parseText text = some [calendar] ∧ calendar.name = "VCALENDAR".toList ∧
    calendar.properties.map (·.name) =
      ["VERSION", "PRODID", "CALSCALE", "METHOD", "X-WR-CALNAME", "X-WR-TIMEZONE", "REFRESH-INTERVAL",
        "X-PUBLISHED-TTL"].map String.toList ∧
    List.Forall₂ Shows events calendar.parts

/-- Start and end are whole seconds. -/
def WholeSeconds (e : Event) : Prop :=
  e.start.fields.microsecond = 0 ∧ e.stop.fields.microsecond = 0

/-- An event is shown as it is exactly when it starts and ends on a second. -/
theorem shows_iff (e : Event) : Shows e (eventComponent sha now e) ↔ WholeSeconds e := by
  have hstart : ((eventComponent sha now e).value "DTSTART".toList).bind readBasic =
      some (wholeSecond e.start) := readBasic_basic e.start
  have hstop : ((eventComponent sha now e).value "DTEND".toList).bind readBasic =
      some (wholeSecond e.stop) := readBasic_basic e.stop
  constructor
  · intro h
    rw [WholeSeconds, ← wholeSecond_eq_iff, ← wholeSecond_eq_iff]
    exact ⟨Option.some.inj (hstart.symm.trans h.start), Option.some.inj (hstop.symm.trans h.stop)⟩
  · rintro ⟨hwhole, hwhole'⟩
    exact
      { name := rfl
        properties := rfl
        parts := rfl
        start := by rw [hstart, (wholeSecond_eq_iff e.start).mpr hwhole]
        stop := by rw [hstop, (wholeSecond_eq_iff e.stop).mpr hwhole']
        summary := congrArg some (unescape_icsEscape (Caldav.summary e))
        description := congrArg some (unescape_icsEscape (Caldav.description e))
        location := congrArg some (unescape_icsEscape (teamName e)) }

/-- The feed is read back exactly when all its events are. -/
theorem faithful_feed_iff :
    Faithful (joinLines (feedLines sha now calendarName events).flatten) events ↔
      ∀ e ∈ events, WholeSeconds e := by
  have hparts : List.Forall₂ Shows events (calendarComponent sha now calendarName events).parts ↔
      ∀ e ∈ events, WholeSeconds e := by
    show List.Forall₂ Shows events (events.map (eventComponent sha now)) ↔ _
    rw [List.forall₂_map_right_iff, List.forall₂_same]
    exact forall₂_congr fun e _ => shows_iff sha now e
  rw [← hparts]
  constructor
  · rintro ⟨calendar, hparse, -, -, hshows⟩
    rw [parseText_feed] at hparse
    obtain rfl := (List.cons.inj (Option.some.inj hparse)).1
    exact hshows
  · intro hshows
    exact ⟨_, parseText_feed sha now calendarName events, rfl, rfl, hshows⟩

/-- The lines of an event that have room for their texts. -/
def EventFits (e : Event) : Prop :=
  Fits ("SUMMARY:".toList ++ icsEscape (summary e)) ∧
    Fits ("DESCRIPTION:".toList ++ icsEscape (description e)) ∧
      Fits ("LOCATION:".toList ++ icsEscape (teamName e))

/-- And its lines are short exactly when the names and texts of it allow so. -/
theorem fits_encoding :
    (∀ p ∈ calendarEncoding sha now calendarName events, Fits p.line) ↔
      Fits ("X-WR-CALNAME:".toList ++ icsEscape calendarName) ∧ ∀ e ∈ events, EventFits e := by
  -- a property with a plain value fits if its head does
  have hfits {p : Property} (hhead : LineHead p.head) (hvalue : Ascii p.value) : Fits p.line :=
    fits_of_ascii (ascii_line hhead hvalue)
  have hbounds (name : Text) (h : Ascii name) : Fits (opening name).line ∧ Fits (closing name).line :=
    ⟨hfits (good_bounds name).1 h, hfits (good_bounds name).2 h⟩
  have hcalendar := fun p hp => (good_calendar calendarName p hp).2
  rw [forall_mem_encoding]
  refine (and_iff_right (hbounds _ (by decide +kernel))).trans
    (and_congr ?_ (forall₂_congr fun e _ => ?_))
  -- of the calendar only its name may not fit
  · unfold calendarProperties at hcalendar ⊢
    simp only [List.forall_mem_cons] at hcalendar ⊢
    obtain ⟨h₁, h₂, h₃, h₄, -, h₆, h₇, h₈, -⟩ := hcalendar
    constructor
    · rintro ⟨-, -, -, -, hname, -⟩
      exact hname
    · intro hname
      exact ⟨hfits h₁ (show Ascii "2.0".toList by decide +kernel),
        hfits h₂ (show Ascii "-//IncidentRelay//On-call Calendar//EN".toList by decide +kernel),
        hfits h₃ (show Ascii "GREGORIAN".toList by decide +kernel),
        hfits h₄ (show Ascii "PUBLISH".toList by decide +kernel), hname,
        hfits h₆ (show Ascii "UTC".toList by decide +kernel),
        hfits h₇ (show Ascii "PT15M".toList by decide +kernel),
        hfits h₈ (show Ascii "PT15M".toList by decide +kernel), fun _ h => absurd h List.not_mem_nil⟩
  · refine (and_iff_right (hbounds _ (by decide +kernel))).trans ?_
    -- of an event only the summary, the description and the location
    have hevent := fun p hp => (good_event sha now e p hp).2
    unfold eventProperties at hevent ⊢
    simp only [List.forall_mem_cons] at hevent ⊢
    obtain ⟨h₁, h₂, h₃, h₄, -, -, -, h₈, -⟩ := hevent
    constructor
    · rintro ⟨-, -, -, -, hsummary, hdescription, hlocation, -⟩
      exact ⟨hsummary, hdescription, hlocation⟩
    · rintro ⟨hsummary, hdescription, hlocation⟩
      exact ⟨hfits h₁ (ascii_eventUid e sha), hfits h₂ (ascii_basic _), hfits h₃ (ascii_basic _),
        hfits h₄ (ascii_basic _), hsummary, hdescription, hlocation,
        hfits h₈ (show Ascii "OPAQUE".toList by decide +kernel), fun _ h => absurd h List.not_mem_nil⟩

/-- **A feed is faithful, in lines of 75 octets**, if and only if its times are whole seconds and
its texts fit their lines. -/
theorem calendar_faithful_iff :
    (∃ text, buildCalendarIcs sha now calendarName events = some text ∧ Faithful text events ∧
        ∀ line ∈ splitLines text, octets line ≤ 75) ↔
      (∀ e ∈ events, WholeSeconds e) ∧
        Fits ("X-WR-CALNAME:".toList ++ icsEscape calendarName) ∧ ∀ e ∈ events, EventFits e := by
  have hoctets : (∀ line ∈ (feedLines sha now calendarName events).flatten, octets line ≤ 75) ↔
      ∀ p ∈ calendarEncoding sha now calendarName events, Fits p.line := by
    unfold feedLines
    simp only [List.mem_flatten, List.mem_map, exists_exists_and_eq_and, forall_exists_index, and_imp]
    -- a line fits when its pieces do
    constructor
    · exact fun h p hp => (fits_foldChunks p.line).mp fun piece hpiece => h piece p hp hpiece
    · exact fun h piece p hp hpiece => (fits_foldChunks p.line).mpr (h p hp) piece hpiece
  rw [buildCalendarIcs_eq, ← fits_encoding sha now, ← hoctets,
    ← faithful_feed_iff sha now calendarName]
  -- the text is read back as it was written, and its lines are those that were folded
  constructor
  · rintro ⟨text, htext, hfaithful, hlines⟩
    obtain rfl := Option.some.inj htext
    rw [splitLines_feed] at hlines
    exact ⟨hfaithful, hlines⟩
  · rintro ⟨hfaithful, hlines⟩
    refine ⟨_, rfl, hfaithful, ?_⟩
    rw [splitLines_feed]
    exact hlines

end Feed

/-! ## A team with a name that is not ASCII -/

/-- The digest of the one event below. -/
def sampleSha : Sha256 where
  hexdigest := fun _ => "a2eb74e87e14f614ddc6034e8a9c3e159b9da8c665777db0aabb3fc59e7ce37f".toList
  length_eq := fun _ => by decide
  hex := fun _ => @of_decide_eq_true _ (List.decidableBAll _ _) rfl

def sampleTime (hour : ℕ) (h : DateFields.Valid ⟨2026, 1, 5, hour, 0, 0, 0⟩) : UtcDateTime := ⟨_, h⟩

def supportShift : Event where
  start := sampleTime 9 (by decide)
  stop := sampleTime 17 (by decide)
  value :=
    { type := .layer, rotationId := 1, rotationName := "primary", teamId := 1, teamSlug := "support",
      teamName := "Дежурная команда поддержки платформы", layerId := some 1, layerName := none,
      layerPriority := some 0, overrideId := none, userId := 1, username := "anna", displayName := none,
      timezone := "UTC", reason := none }

/-- A short line of 78 octets is not folded. -/
theorem location_exceeds_octets : WholeSeconds supportShift ∧
    ∃ text, buildCalendarIcs sampleSha (sampleTime 8 (by decide)) "on-call".toList [supportShift] =
      some text ∧ ∃ line ∈ splitLines text, 75 < octets line := by
  refine ⟨⟨rfl, rfl⟩, _, buildCalendarIcs_eq _ _ _ _, ?_⟩
  rw [splitLines_feed]
  refine ⟨"LOCATION:Дежурная команда поддержки платформы".toList, ?_, by decide⟩
  have hlocation : property "LOCATION" (icsEscape (teamName supportShift)) ∈
      calendarEncoding sampleSha (sampleTime 8 (by decide)) "on-call".toList [supportShift] := by
    simp [calendarEncoding, eventEncoding, eventProperties]
  refine List.mem_flatten.mpr ⟨_, List.mem_map_of_mem (List.mem_map_of_mem hlocation), ?_⟩
  decide +kernel

end IncidentRelay.Caldav
