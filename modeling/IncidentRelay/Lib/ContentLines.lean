import Mathlib.Algebra.BigOperators.Group.List.Basic
import Mathlib.Algebra.GroupWithZero.Nat
import Mathlib.Data.List.Forall2
import Mathlib.Tactic.Common

/-!
# Content lines

The text of a calendar is a list of physical lines, each ended by CRLF. A line that starts with
a blank continues the one before it, and an unfolded line is a property: a name, parameters and
a value. Properties between BEGIN and END make a component, which can have others as parts.

The parser is given here as a specification: `splitLines`, `unfoldLines`, `parseLine` and
`parseComponents` one after the other. `Encodes` says which properties are a component, and
`parseText_of_encodes` reads it back; `unescape_escape` is the law of text values.
-/

namespace IncidentRelay.ContentLines

abbrev Text := List Char

def crlf : Text := ['\r', '\n']

/-- The size of a line in UTF-8. -/
def octets (line : Text) : ℕ := (line.map Char.utf8Size).sum

/-- A line without line breaks of its own. -/
def Plain (line : Text) : Prop := '\r' ∉ line ∧ '\n' ∉ line

/-! ## Physical lines -/

def splitFrom (line : Text) : Text → List Text
  | [] => if line = [] then [] else [line]
  | '\r' :: '\n' :: text => line :: splitFrom [] text
  | c :: text => splitFrom (line ++ [c]) text

/-- The physical lines of a text. -/
def splitLines (text : Text) : List Text := splitFrom [] text

/-- The text of physical lines. -/
def joinLines (lines : List Text) : Text := lines.flatMap (· ++ crlf)

/-- A line ends at its break. -/
theorem splitFrom_append {line : Text} (h : '\r' ∉ line) (before text : Text) :
    splitFrom before (line ++ crlf ++ text) = (before ++ line) :: splitFrom [] text := by
  induction line generalizing before with
  | nil => rw [List.append_nil]; rfl
  | cons c line ih =>
    rw [List.mem_cons, not_or] at h
    obtain ⟨hc, hline⟩ := h
    have hstep : splitFrom before (c :: (line ++ crlf ++ text)) =
        splitFrom (before ++ [c]) (line ++ crlf ++ text) := by
      rw [splitFrom]
      rintro _ rfl
      exact absurd rfl hc
    rw [List.cons_append, List.cons_append, hstep, ih hline, List.append_assoc]
    rfl

/-- Lines that were joined are split again. -/
theorem splitLines_joinLines {lines : List Text} (h : ∀ line ∈ lines, '\r' ∉ line) :
    splitLines (joinLines lines) = lines := by
  induction lines with
  | nil => rfl
  | cons line lines ih =>
    rw [List.forall_mem_cons] at h
    show splitFrom [] (line ++ crlf ++ joinLines lines) = _
    rw [splitFrom_append h.1, List.nil_append]
    exact congrArg _ (ih h.2)

/-! ## Folds -/

/-- The line so far, and the lines that follow it. -/
def unfoldFrom (line : Text) : List Text → List Text
  | [] => [line]
  | (' ' :: more) :: lines => unfoldFrom (line ++ more) lines
  | ('\t' :: more) :: lines => unfoldFrom (line ++ more) lines
  | next :: lines => line :: unfoldFrom next lines

def unfoldLines : List Text → List Text
  | [] => []
  | line :: lines => unfoldFrom line lines

/-- A line that does not continue another one. -/
def Starts (line : Text) : Prop := ∃ c text, line = c :: text ∧ c ≠ ' ' ∧ c ≠ '\t'

/-- A line that starts afresh ends the one before. -/
theorem unfoldFrom_starts {next : Text} (h : Starts next) (line : Text) (lines : List Text) :
    unfoldFrom line (next :: lines) = line :: unfoldFrom next lines := by
  obtain ⟨c, text, rfl, hspace, htab⟩ := h
  rw [unfoldFrom]
  · rintro _ ⟨⟩
    exact hspace rfl
  · rintro _ ⟨⟩
    exact htab rfl

/-- The physical lines are those of the line: unfolded behind any other one they give it back. -/
structure Folds (line : Text) (pieces : List Text) : Prop where
  starts : ∃ piece more, pieces = piece :: more ∧ Starts piece ∧
    ∀ rest, unfoldFrom piece (more ++ rest) = unfoldFrom line rest

/-- By induction on the lines: each of them is joined from its pieces. -/
theorem unfoldFrom_folded {lines : List Text} {folded : List (List Text)}
    (h : List.Forall₂ Folds lines folded) (line : Text) :
    unfoldFrom line folded.flatten = line :: lines := by
  induction h generalizing line with
  | nil => rfl
  | @cons next pieces lines folded hnext _ ih =>
    obtain ⟨piece, more, rfl, hstarts, hunfold⟩ := hnext.starts
    rw [List.flatten_cons, List.cons_append, unfoldFrom_starts hstarts, hunfold, ih]

theorem unfoldLines_folded {lines : List Text} {folded : List (List Text)}
    (h : List.Forall₂ Folds lines folded) : unfoldLines folded.flatten = lines := by
  cases h with
  | nil => rfl
  | @cons next pieces lines folded hnext htail =>
    obtain ⟨piece, more, rfl, -, hunfold⟩ := hnext.starts
    show unfoldFrom piece (more ++ folded.flatten) = _
    rw [hunfold, unfoldFrom_folded htail]

/-! ## Properties -/

structure Property where
  name : Text
  params : Text
  value : Text
  deriving DecidableEq

def Property.line (p : Property) : Text := p.name ++ p.params ++ ':' :: p.value

/-- The value starts behind the first colon that is not quoted. -/
def splitValue (quoted : Bool) : Text → Option (Text × Text)
  | [] => none
  | c :: text =>
    if c = ':' ∧ quoted = false then some ([], text)
    else (splitValue (if c = '"' then !quoted else quoted) text).map fun split =>
      (c :: split.1, split.2)

def parseLine (line : Text) : Option Property :=
  (splitValue false line).map fun split =>
    { name := split.1.takeWhile (· ≠ ';'), params := split.1.dropWhile (· ≠ ';'), value := split.2 }

/-- The value starts at the first colon outside quotes. -/
theorem splitValue_append {head : Text} (h : ∀ c ∈ head, c ≠ ':' ∧ c ≠ '"') (value : Text) :
    splitValue false (head ++ ':' :: value) = some (head, value) := by
  induction head with
  | nil => rfl
  | cons c head ih =>
    rw [List.forall_mem_cons] at h
    rw [List.cons_append, splitValue, if_neg (fun hc => h.1.1 hc.1), if_neg h.1.2, ih h.2]
    rfl

/-- The characters of a name. -/
def isNameChar (c : Char) : Bool := c.isAlphanum || c = '-'

/-- What stands before the colon. -/
def Property.head (p : Property) : Text × Text := (p.name, p.params)

/-- A name and no parameters, or parameters that are not quoted. -/
def ProperHead (head : Text × Text) : Prop :=
  (∀ c ∈ head.1, isNameChar c = true) ∧ (head.2 = [] ∨ head.2.head? = some ';') ∧
    ∀ c ∈ head.2, c ≠ ':' ∧ c ≠ '"'

instance (head : Text × Text) : Decidable (ProperHead head) :=
  have : Decidable (∀ c ∈ head.1, isNameChar c = true) := List.decidableBAll _ _
  have : Decidable (∀ c ∈ head.2, c ≠ ':' ∧ c ≠ '"') := List.decidableBAll _ _
  inferInstanceAs (Decidable (_ ∧ _ ∧ _))

/-- A name that neither opens nor closes a component. -/
def InnerHead (head : Text × Text) : Prop := head.1 ≠ "BEGIN".toList ∧ head.1 ≠ "END".toList

instance (head : Text × Text) : Decidable (InnerHead head) := inferInstanceAs (Decidable (_ ∧ _))

theorem ne_of_isNameChar {c : Char} (h : isNameChar c = true) : c ≠ ';' ∧ c ≠ ':' ∧ c ≠ '"' :=
  ⟨by rintro rfl; exact absurd h (by decide), by rintro rfl; exact absurd h (by decide),
    by rintro rfl; exact absurd h (by decide)⟩

/-- A property is read from its line. -/
theorem parseLine_line {p : Property} (h : ProperHead p.head) : parseLine p.line = some p := by
  obtain ⟨hnames, hstart, hplain⟩ := h
  have hhead : ∀ c ∈ p.name ++ p.params, c ≠ ':' ∧ c ≠ '"' := by
    intro c hc
    rcases List.mem_append.mp hc with hname | hparams
    · exact (ne_of_isNameChar (hnames c hname)).2
    · exact hplain c hparams
  have hname : ∀ c ∈ p.name, decide (c ≠ ';') = true :=
    fun c hc => decide_eq_true (ne_of_isNameChar (hnames c hc)).1
  have hparams : p.params.takeWhile (· ≠ ';') = [] ∧ p.params.dropWhile (· ≠ ';') = p.params := by
    rcases hstart with hnone | hsome
    · rw [show p.params = [] from hnone]
      exact ⟨rfl, rfl⟩
    · obtain ⟨text, htext⟩ := List.head?_eq_some_iff.mp hsome
      rw [show p.params = ';' :: text from htext]
      exact ⟨rfl, rfl⟩
  unfold parseLine Property.line
  rw [splitValue_append hhead, Option.map_some, List.takeWhile_append_of_pos hname,
    List.dropWhile_append_of_pos hname, hparams.1, hparams.2, List.append_nil]

/-! ## Components -/

inductive Component where
  | node (name : Text) (properties : List Property) (parts : List Component)

namespace Component

def name : Component → Text
  | node name _ _ => name

def properties : Component → List Property
  | node _ properties _ => properties

def parts : Component → List Component
  | node _ _ parts => parts

def addProperty (c : Component) (p : Property) : Component := node c.name (c.properties ++ [p]) c.parts

def addPart (c part : Component) : Component := node c.name c.properties (c.parts ++ [part])

/-- The value of the one property with the name. -/
def value (c : Component) (name : Text) : Option Text :=
  match c.properties.filter (·.name = name) with
  | [p] => some p.value
  | _ => none

end Component

/-- The components that are read and those that are open, the innermost one first. -/
structure Reading where
  done : List Component
  opened : List Component

namespace Reading

/-- A component that is complete. -/
def attach (s : Reading) (c : Component) : Reading :=
  match s.opened with
  | [] => { s with done := s.done ++ [c] }
  | parent :: rest => { s with opened := parent.addPart c :: rest }

def step (s : Reading) (p : Property) : Option Reading :=
  if p.name = "BEGIN".toList then some { s with opened := .node p.value [] [] :: s.opened }
  else
    match s.opened with
    | [] => none
    | top :: rest =>
      if p.name = "END".toList then
        if top.name = p.value then some (attach { s with opened := rest } top) else none
      else some { s with opened := top.addProperty p :: rest }

def run (s : Reading) (ps : List Property) : Option Reading := ps.foldlM step s

end Reading

def parseComponents (ps : List Property) : Option (List Component) :=
  (Reading.run ⟨[], []⟩ ps).bind fun s => if s.opened.isEmpty then some s.done else none

/-- The components of a text. -/
def parseText (text : Text) : Option (List Component) :=
  ((unfoldLines (splitLines text)).mapM parseLine).bind parseComponents

/-- The properties are those of the component. -/
def Encodes (ps : List Property) (c : Component) : Prop :=
  ∀ s : Reading, s.run ps = some (s.attach c)

def opening (name : Text) : Property := ⟨"BEGIN".toList, [], name⟩

def closing (name : Text) : Property := ⟨"END".toList, [], name⟩

theorem run_append (s : Reading) (ps qs : List Property) :
    s.run (ps ++ qs) = (s.run ps).bind (·.run qs) :=
  List.foldlM_append

/-- Properties are put into the component that is open. -/
theorem run_inner {ps : List Property} (h : ∀ p ∈ ps, InnerHead p.head) (done : List Component)
    (c : Component) (rest : List Component) :
    Reading.run ⟨done, c :: rest⟩ ps =
      some ⟨done, .node c.name (c.properties ++ ps) c.parts :: rest⟩ := by
  induction ps generalizing c with
  | nil => rw [List.append_nil]; cases c; rfl
  | cons p ps ih =>
    rw [List.forall_mem_cons] at h
    have hstep : Reading.step ⟨done, c :: rest⟩ p = some ⟨done, c.addProperty p :: rest⟩ :=
      (if_neg h.1.1).trans (if_neg h.1.2)
    rw [Reading.run, List.foldlM_cons, hstep]
    show Reading.run _ ps = _
    rw [ih h.2, Component.addProperty]
    simp only [Component.name, Component.properties, Component.parts, List.append_assoc,
      List.singleton_append]

/-- Components within it become its parts. By induction on them. -/
theorem run_parts {lines : List (List Property)} {parts : List Component}
    (h : List.Forall₂ Encodes lines parts) (done : List Component) (c : Component)
    (rest : List Component) :
    Reading.run ⟨done, c :: rest⟩ lines.flatten =
      some ⟨done, .node c.name c.properties (c.parts ++ parts) :: rest⟩ := by
  induction h generalizing c with
  | nil => rw [List.append_nil]; cases c; rfl
  | @cons ps part lines parts hpart _ ih =>
    rw [List.flatten_cons, run_append, hpart]
    show Reading.run ⟨done, c.addPart part :: rest⟩ lines.flatten = _
    rw [ih, Component.addPart]
    simp only [Component.name, Component.properties, Component.parts, List.append_assoc,
      List.singleton_append]

/-- **A component is its properties and then its parts**, between BEGIN and END. -/
theorem encodes_node {name : Text} {ps : List Property} (hps : ∀ p ∈ ps, InnerHead p.head)
    {lines : List (List Property)} {parts : List Component} (hparts : List.Forall₂ Encodes lines parts) :
    Encodes (opening name :: (ps ++ (lines.flatten ++ [closing name]))) (.node name ps parts) := by
  intro s
  have hopen : s.step (opening name) = some { s with opened := .node name [] [] :: s.opened } := rfl
  rw [Reading.run, List.foldlM_cons, hopen]
  show Reading.run ⟨s.done, .node name [] [] :: s.opened⟩ _ = _
  rw [run_append, run_inner hps, Option.bind_some, run_append, run_parts hparts, Option.bind_some]
  -- END closes the component that was opened
  show Option.bind (Reading.step ⟨s.done, .node name ([] ++ ps) ([] ++ parts) :: s.opened⟩ (closing name)) _ = _
  have hclose : Reading.step ⟨s.done, .node name ([] ++ ps) ([] ++ parts) :: s.opened⟩ (closing name) =
      some (s.attach (.node name ps parts)) := by
    unfold Reading.step
    have hname : (closing name).name ≠ "BEGIN".toList := show "END".toList ≠ "BEGIN".toList by decide
    rw [if_neg hname]
    exact (if_pos rfl).trans (if_pos rfl)
  rw [hclose]
  rfl

/-- **What is encoded and folded is read back.** -/
theorem parseText_of_encodes {ps : List Property} {c : Component} {folded : List (List Text)}
    (hencodes : Encodes ps c) (hproper : ∀ p ∈ ps, ProperHead p.head)
    (hfolds : List.Forall₂ Folds (ps.map Property.line) folded)
    (hplain : ∀ pieces ∈ folded, ∀ piece ∈ pieces, '\r' ∉ piece) :
    parseText (joinLines folded.flatten) = some [c] := by
  have hlines : ∀ line ∈ folded.flatten, '\r' ∉ line := by
    intro line hline
    obtain ⟨pieces, hpieces, hmem⟩ := List.mem_flatten.mp hline
    exact hplain pieces hpieces line hmem
  -- each line is read back as the property it was written from
  have hparsed : (ps.map Property.line).mapM parseLine = some ps := by
    rw [List.mapM_map]
    clear hencodes hfolds
    induction ps with
    | nil => rfl
    | cons p ps ih =>
      rw [List.forall_mem_cons] at hproper
      rw [List.mapM_cons, Function.comp_apply, parseLine_line hproper.1, ih hproper.2]
      rfl
  unfold parseText
  rw [splitLines_joinLines hlines, unfoldLines_folded hfolds, hparsed, Option.bind_some,
    parseComponents, hencodes]
  rfl

/-! ## Text values -/

/-- Line breaks of any kind are one LF. -/
def normalizeNewlines : Text → Text
  | [] => []
  | '\r' :: '\n' :: text => '\n' :: normalizeNewlines text
  | '\r' :: text => '\n' :: normalizeNewlines text
  | c :: text => c :: normalizeNewlines text

def escapeChar (c : Char) : Text :=
  if c = '\\' then ['\\', '\\']
  else if c = ';' then ['\\', ';']
  else if c = ',' then ['\\', ',']
  else if c = '\n' then ['\\', 'n']
  else [c]

def escape (text : Text) : Text := text.flatMap escapeChar

def unescape : Text → Text
  | '\\' :: 'n' :: text => '\n' :: unescape text
  | '\\' :: 'N' :: text => '\n' :: unescape text
  | '\\' :: '\\' :: text => '\\' :: unescape text
  | '\\' :: ';' :: text => ';' :: unescape text
  | '\\' :: ',' :: text => ',' :: unescape text
  | c :: text => c :: unescape text
  | [] => []

/-- A character that was escaped is read back. -/
theorem unescape_escapeChar (c : Char) (text : Text) :
    unescape (escapeChar c ++ text) = c :: unescape text := by
  unfold escapeChar
  split_ifs with hslash hsemicolon hcomma hbreak
  · rw [hslash]; rfl
  · rw [hsemicolon]; rfl
  · rw [hcomma]; rfl
  · rw [hbreak]; rfl
  · rw [List.singleton_append, unescape]
    all_goals
      rintro _ rfl
      exact fun _ => hslash rfl

/-- **A text value is what was escaped.** -/
theorem unescape_escape (text : Text) : unescape (escape text) = text := by
  induction text with
  | nil => rfl
  | cons c text ih =>
    rw [escape, List.flatMap_cons, unescape_escapeChar]
    exact congrArg _ ih

/-- Normalized text has no carriage return. -/
theorem not_mem_normalizeNewlines (text : Text) : '\r' ∉ normalizeNewlines text := by
  fun_induction normalizeNewlines text with
  | case1 => exact List.not_mem_nil
  | case2 text ih => exact List.not_mem_cons_of_ne_of_not_mem (by decide) ih
  | case3 text _ ih => exact List.not_mem_cons_of_ne_of_not_mem (by decide) ih
  | case4 c text _ hc ih => exact List.not_mem_cons_of_ne_of_not_mem (fun h => hc h.symm) ih

/-- An escaped text has no line breaks. -/
theorem plain_escape {text : Text} (h : '\r' ∉ text) : Plain (escape text) := by
  constructor
  · intro hmem
    obtain ⟨c, hc, hchar⟩ := List.mem_flatMap.mp hmem
    unfold escapeChar at hchar
    -- no escaped character brings a break in
    split_ifs at hchar
    · exact absurd hchar (by decide)
    · exact absurd hchar (by decide)
    · exact absurd hchar (by decide)
    · exact absurd hchar (by decide)
    · rw [List.mem_singleton] at hchar
      exact h (hchar ▸ hc)
  · intro hmem
    obtain ⟨c, hc, hchar⟩ := List.mem_flatMap.mp hmem
    unfold escapeChar at hchar
    -- nor is a plain break left, since it is escaped
    split_ifs at hchar with _ _ _ hbreak
    · exact absurd hchar (by decide)
    · exact absurd hchar (by decide)
    · exact absurd hchar (by decide)
    · exact absurd hchar (by decide)
    · rw [List.mem_singleton] at hchar
      exact hbreak hchar.symm

end IncidentRelay.ContentLines
