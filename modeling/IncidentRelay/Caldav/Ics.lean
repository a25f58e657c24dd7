import IncidentRelay.Lib.ContentLines
import IncidentRelay.Lib.DateText
import IncidentRelay.Rotations.CalendarEvents

/-!
# Calendar feeds

`build_calendar_ics` writes the final events of a team as the text of one calendar. Texts are
escaped by six replacements one after the other, and the lines are folded by their characters.
-/

namespace IncidentRelay.Caldav

open ContentLines DateText Rotations

/-- A final event of a calendar, with the times behind its texts. -/
abbrev Event := Span UtcDateTime CalendarEvent

/-! ## Texts -/

/-- `text.replace(old, new)`: the characters of an occurrence that are still to be skipped come
first. -/
def replaceFrom (old new : Text) : ℕ → Text → Text
  | _, [] => []
  | skip + 1, _ :: text => replaceFrom old new skip text
  | 0, c :: text =>
    if old.isPrefixOf (c :: text) then new ++ replaceFrom old new (old.length - 1) text
    else c :: replaceFrom old new 0 text

def replace (old new text : Text) : Text := replaceFrom old new 0 text

/-- `value or default` -/
def orText (value default : Text) : Text := if value = [] then default else value

/-- `str(value)` -/
def idText (value : Id) : Text := (toString (value : ℕ)).toList

/-- `str(value or default)` of an id. -/
def orId (value : Option Id) (default : Text) : Text := value.elim default idText

/-- `hashlib.sha256(text.encode("utf-8")).hexdigest()` -/
structure Sha256 where
  hexdigest : Text → Text
  length_eq : ∀ text, (hexdigest text).length = 64
  hex : ∀ text, ∀ c ∈ hexdigest text, c ∈ "0123456789abcdef".toList

/-! ## Times -/

/-- `utc_isoformat(value)` -/
def utcIsoformat (value : UtcDateTime) : Text := replace "+00:00".toList "Z".toList (extended value)

/-- `parse_datetime(value)` -/
def parseDatetime (text : Text) : Option UtcDateTime :=
  readExtended (if text.getLast? = some 'Z' then text.dropLast ++ "+00:00".toList else text)

/-! ## Escapes and folds -/

/-- `ics_escape(value)` -/
def icsEscape (text : Text) : Text :=
  let text := replace ['\\'] ['\\', '\\'] text
  let text := replace [';'] ['\\', ';'] text
  let text := replace [','] ['\\', ','] text
  let text := replace ['\r', '\n'] ['\\', 'n'] text
  let text := replace ['\n'] ['\\', 'n'] text
  replace ['\r'] ['\\', 'n'] text

/-- The loop of `fold_ics_line` from the cursor on. -/
def foldFrom (line : Text) (cursor : ℕ) : List Text :=
  if cursor < line.length then (' ' :: (line.drop cursor).take 74) :: foldFrom line (cursor + 74)
  else []
termination_by line.length - cursor

/-- The chunks of a line. -/
def foldChunks (line : Text) : List Text :=
  if line.length ≤ 75 then [line] else line.take 75 :: foldFrom line 75

/-- `fold_ics_line(line)` -/
def foldIcsLine (line : Text) : Text := crlf.intercalate (foldChunks line)

/-! ## Events -/

def typeText : CalendarEventType → Text
  | .layer => "layer".toList
  | .override => "override".toList

section Event

variable (e : Event)

/-- `event_uid(event)` -/
def eventUid (sha : Sha256) : Text :=
  sha.hexdigest ([':'].intercalate
    ["incidentrelay".toList, orId (some e.value.teamId) "team".toList,
      orId (some e.value.rotationId) "rotation".toList,
      orId e.value.layerId (orId e.value.overrideId "shift".toList),
      orId (some e.value.userId) "user".toList, orText (utcIsoformat e.start) "start".toList]) ++
    "@incidentrelay".toList

def userLabel : Text :=
  orText (e.value.displayName.getD "").toList
    (orText e.value.username.toList ("user-".toList ++ idText e.value.userId))

def teamName : Text := orText e.value.teamName.toList (orText e.value.teamSlug.toList "team".toList)

def rotationName : Text :=
  orText e.value.rotationName.toList ("rotation #".toList ++ idText e.value.rotationId)

/-- A line of the description, where there is a value for it. -/
def labelled (label value : Text) : List Text := if value = [] then [] else [label ++ value]

def descriptionLines : List Text :=
  ["Team: ".toList ++ teamName e, "Rotation: ".toList ++ rotationName e] ++
    labelled "Layer: ".toList (e.value.layerName.getD "").toList ++
    labelled "Type: ".toList (typeText e.value.type) ++
    labelled "Reason: ".toList (e.value.reason.getD "").toList

def summary : Text := "On-call: ".toList ++ userLabel e

def description : Text := ['\n'].intercalate (descriptionLines e)

/-- `build_vevent_lines(event, dtstamp)`; there is none where a time does not parse. -/
def buildVeventLines (sha : Sha256) (dtstamp : UtcDateTime) : Option (List Text) := do
  let start ← parseDatetime (utcIsoformat e.start)
  let stop ← parseDatetime (utcIsoformat e.stop)
  return ["BEGIN:VEVENT".toList,
    "UID:".toList ++ eventUid e sha,
    "DTSTAMP:".toList ++ basic dtstamp,
    "DTSTART:".toList ++ basic start,
    "DTEND:".toList ++ basic stop,
    "SUMMARY:".toList ++ icsEscape (summary e),
    "DESCRIPTION:".toList ++ icsEscape (description e),
    "LOCATION:".toList ++ icsEscape (teamName e),
    "TRANSP:OPAQUE".toList,
    "END:VEVENT".toList]

end Event

def calendarHead (calendarName : Text) : List Text :=
  ["BEGIN:VCALENDAR".toList,
    "VERSION:2.0".toList,
    "PRODID:-//IncidentRelay//On-call Calendar//EN".toList,
    "CALSCALE:GREGORIAN".toList,
    "METHOD:PUBLISH".toList,
    "X-WR-CALNAME:".toList ++ icsEscape calendarName,
    "X-WR-TIMEZONE:UTC".toList,
    "REFRESH-INTERVAL;VALUE=DURATION:PT15M".toList,
    "X-PUBLISHED-TTL:PT15M".toList]

/-- `build_calendar_ics(calendar_name, events)` at a time. -/
def buildCalendarIcs (sha : Sha256) (now : UtcDateTime) (calendarName : Text) (events : List Event) :
    Option Text := do
  let vevents ← events.mapM fun e => buildVeventLines e sha now
  let lines := calendarHead calendarName ++ vevents.flatten ++ ["END:VCALENDAR".toList]
  return crlf.intercalate (lines.map foldIcsLine) ++ crlf

/-! ## Replacements -/

/-- A replacement of one character. -/
theorem replace_char (c : Char) (new text : Text) :
    replace [c] new text = text.flatMap fun d => if d = c then new else [d] := by
  induction text with
  | nil => rfl
  | cons d text ih =>
    rw [replace, replaceFrom, List.flatMap_cons, ← ih]
    by_cases hd : d = c
    · rw [if_pos hd, if_pos (by simp [hd])]
      rfl
    · rw [if_neg hd, if_neg (by simpa using fun h : c = d => hd h.symm)]
      rfl

theorem replace_crlf_pair (new text : Text) :
    replace ['\r', '\n'] new ('\r' :: '\n' :: text) = new ++ replace ['\r', '\n'] new text := by
  rfl

/-- Anything else is kept. -/
theorem replace_crlf_cons (new text : Text) {c : Char} (h : ¬(c = '\r' ∧ ∃ rest, text = '\n' :: rest)) :
    replace ['\r', '\n'] new (c :: text) = c :: replace ['\r', '\n'] new text := by
  rw [replace, replaceFrom, if_neg]
  · rfl
  · rw [List.isPrefixOf_iff_prefix]
    rintro ⟨rest, hrest⟩
    obtain ⟨hc, htext⟩ := List.cons.inj hrest
    exact h ⟨hc.symm, rest, htext.symm⟩

/-- The marks of the first three replacements. -/
def markChar (c : Char) : Text :=
  if c = '\\' then ['\\', '\\'] else if c = ';' then ['\\', ';'] else if c = ',' then ['\\', ','] else [c]

/-- The three replacements are one substitution of characters. -/
theorem marks_eq (text : Text) :
    replace [','] ['\\', ','] (replace [';'] ['\\', ';'] (replace ['\\'] ['\\', '\\'] text)) =
      text.flatMap markChar := by
  simp only [replace_char, List.flatMap_assoc]
  refine List.flatMap_congr fun c _ => ?_
  unfold markChar
  split_ifs with hslash hsemicolon hcomma
  · rfl
  · subst hsemicolon; rfl
  · subst hcomma; rfl
  · simp [hslash, hsemicolon, hcomma]

end IncidentRelay.Caldav
