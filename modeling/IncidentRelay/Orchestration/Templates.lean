import IncidentRelay.Lib.Checks
import IncidentRelay.Orchestration.Fields
import IncidentRelay.Orchestration.State

/-!
# Templates

`templates.py` as far as a definition is validated: which expressions a template has, how an
expression is split into a field and filters, what the arguments of a filter are, and which
issues are reported. `ast.literal_eval` is a parameter; of its exceptions two are caught.

* `reports_validateTemplate`: the validation of a template reports, if and only if the
  arguments it gets to are literals, or are refused with one of these two.
-/

namespace IncidentRelay.Orchestration

open Json

def maxTemplateLength : ℕ := 8192
def maxTemplateExpressions : ℕ := 64
def maxTemplateExpressionLength : ℕ := 512
def maxTemplateOutputLength : ℕ := 16384
def maxTemplateFilters : ℕ := 8

/-! ## Literals -/

/-- What `ast.literal_eval` returns. -/
inductive Literal where
  | none
  | bool (b : Bool)
  | int (n : Int)
  | float (t : FloatText)
  | str (s : String)
  | tuple (items : List Literal)
  /-- bytes, a complex number, `...`, a list, a dict or a set -/
  | other

/-- What `ast.literal_eval` raises. -/
inductive LiteralError where
  | valueError | typeError | syntaxError | memoryError | recursionError
  deriving DecidableEq

/-- `exc.__class__.__name__` -/
def LiteralError.className : LiteralError → String
  | .valueError => "ValueError"
  | .typeError => "TypeError"
  | .syntaxError => "SyntaxError"
  | .memoryError => "MemoryError"
  | .recursionError => "RecursionError"

/-- `except (SyntaxError, ValueError)` -/
def LiteralError.caught (e : LiteralError) : Bool := e = .syntaxError ∨ e = .valueError

/-- `isinstance(item, (str, int, float, bool, type(None)))` -/
def Literal.isScalar : Literal → Bool
  | .tuple _ | .other => false
  | _ => true

def Literal.isText : Literal → Bool
  | .str _ => true
  | _ => false

/-! ## Errors -/

/-- What the parser of an expression raises. -/
inductive TemplateError where
  | template (message : String)
  | field (message : String)
  /-- any other exception, by the name of its class -/
  | other (className : String)
  deriving DecidableEq

/-- `exc.code` -/
def TemplateError.code : TemplateError → String
  | .template _ => "invalid_template"
  | .field _ => "invalid_field_reference"
  | .other className => className

def TemplateError.message : TemplateError → String
  | .template message | .field message => message
  | .other className => className

/-- `except (TemplateValidationError, ValueError)` -/
def TemplateError.isCaught : TemplateError → Bool
  | .other _ => false
  | _ => true

/-! ## Expressions -/

/-- The text up to the first `}}`, and what follows it. -/
def closeExpression : List Char → Option (List Char × List Char)
  | [] => none
  | [_] => none
  | c :: d :: rest =>
    if c = closeBrace ∧ d = closeBrace then some ([], rest)
    else (closeExpression (d :: rest)).map fun (body, rest) => (c :: body, rest)

/-- `_EXPRESSION.finditer(text)` and `_EXPRESSION.sub("", text)`: the bodies of the expressions
and the text around them. A match is longer than nothing, so the length of the text is fuel
enough. -/
def expressions : ℕ → List Char → List (List Char) × List Char
  | 0, text => ([], text)
  | _, [] => ([], [])
  | fuel + 1, c :: text =>
    let opened := if c = openBrace ∧ text.head? = some openBrace then closeExpression (text.drop 1) else none
    match opened with
    | some (body, rest) =>
      let (bodies, around) := expressions fuel rest
      (body :: bodies, around)
    | none =>
      let (bodies, around) := expressions fuel text
      (bodies, c :: around)

/-- `"{{" in text` -/
def hasOpening (text : List Char) : Bool := decide ([openBrace, openBrace] <:+: text)

/-- `"}}" in text` -/
def hasClosing (text : List Char) : Bool := decide ([closeBrace, closeBrace] <:+: text)

/-- `"{{" in text or "}}" in text` -/
def hasDelimiter (text : List Char) : Bool := hasOpening text || hasClosing text

/-! ## The pipeline -/

/-- What `_split_pipeline` remembers: the parts, the part it reads, and where it is in it. -/
structure PipelineScan where
  parts : List (List Char) := []
  part : List Char := []
  quote : Option Char := none
  escaped : Bool := false
  depth : ℕ := 0

def PipelineScan.keep (s : PipelineScan) (c : Char) : PipelineScan := { s with part := s.part ++ [c] }

def PipelineScan.read (s : PipelineScan) (c : Char) : Except TemplateError PipelineScan :=
  if s.escaped then .ok { s.keep c with escaped := false }
  else if c = backslash ∧ s.quote.isSome then .ok { s.keep c with escaped := true }
  else if s.quote.isSome then .ok (if s.quote = some c then { s.keep c with quote := none } else s.keep c)
  else if c = singleQuote ∨ c = doubleQuote then .ok { s.keep c with quote := some c }
  else if c = '(' then .ok { s.keep c with depth := s.depth + 1 }
  else if c = ')' then
    if s.depth = 0 then .error (.template "unbalanced filter parentheses")
    else .ok { s.keep c with depth := s.depth - 1 }
  else if c = '|' ∧ s.depth = 0 then .ok { s with parts := s.parts ++ [s.part], part := [] }
  else .ok (s.keep c)

/-- `_split_pipeline(expression)` -/
def splitPipeline (expression : String) : Except TemplateError (List String) := do
  let s ← expression.toList.foldlM PipelineScan.read {}
  if s.quote.isSome ∨ s.depth ≠ 0 then throw (.template "unbalanced template expression")
  return (s.parts ++ [s.part]).map fun part => strip (String.ofList part)

/-- `[A-Za-z0-9_]` -/
def isWord (c : Char) : Bool := c.isAlphanum || c == '_'

/-- `_FILTER.fullmatch(raw)`: the name of a filter, and what is between its parentheses. -/
def matchFilter (raw : String) : Option (String × Option String) :=
  match raw.toList with
  | [] => none
  | c :: rest =>
    if isNameStart c then
      let name := String.ofList (c :: rest.takeWhile isWord)
      match rest.dropWhile isWord with
      | [] => some (name, none)
      | '(' :: body =>
        if body.getLast? = some ')' then some (name, some (String.ofList body.dropLast)) else none
      | _ => none
    else none

/-! ## Filters -/

/-- The filters, and how many arguments each takes. -/
def allowedFilters : List (String × ℕ) :=
  [("lower", 0), ("upper", 0), ("trim", 0), ("default", 1), ("replace", 2), ("truncate", 1)]

/-- The length of `truncate`. -/
def truncateLength : List Literal → Except TemplateError Unit
  | .int n :: _ =>
    if n < 0 then .error (.template "truncate length must be a non-negative integer")
    else if maxTemplateOutputLength < n then
      .error (.template "truncate length exceeds the output limit")
    else .ok ()
  | _ => .error (.template "truncate length must be a non-negative integer")

/-- `_validate_filter(name, args)` -/
def validateFilter (name : String) (args : List Literal) : Except TemplateError Unit :=
  match allowedFilters.lookup name with
  | none => .error (.template ("unsupported template filter " ++ (Json.str name).repr))
  | some required =>
    if args.length ≠ required then
      .error (.template ("filter " ++ name ++ " expects " ++ toString required ++ " argument(s)"))
    else if name = "replace" ∧ args.all Literal.isText = false then
      .error (.template "replace arguments must be strings")
    else if name = "truncate" then truncateLength args
    else .ok ()

structure ParsedExpression where
  field : String
  filters : List (String × List Literal)

section Parsing

variable (literalEval : String → Except LiteralError Literal)

/-- `_literal_arguments(raw)` -/
def literalArguments (raw : Option String) : Except TemplateError (List Literal) :=
  match raw with
  | none => .ok []
  | some raw =>
    if strip raw = "" then .ok []
    else
      match literalEval ("(" ++ raw ++ ",)") with
      | .ok (.tuple items) =>
        if items.all Literal.isScalar then .ok items
        else .error (.template "filter arguments cannot contain collections or objects")
      | .ok _ => .error (.template "invalid filter arguments")
      | .error e =>
        if e.caught then
          .error (.template "filter arguments must be string, number, boolean or null literals")
        else .error (.other e.className)

/-- One filter of an expression. -/
def readFilter (raw : String) : Except TemplateError (String × List Literal) :=
  match matchFilter raw with
  | none => .error (.template ("invalid template filter syntax " ++ (Json.str raw).repr))
  | some (name, arguments) => do
    let args ← literalArguments literalEval arguments
    validateFilter name args
    return (name, args)

/-- `normalize_field_reference(text)`: what it raises is an error of the field. -/
def fieldOf (text : String) : Except TemplateError String :=
  (normalizeFieldReference (.str text)).mapError fun e => .field e.message

/-- `parse_expression(expression)` -/
def parseExpression (expression : String) : Except TemplateError ParsedExpression := do
  let expression := strip expression
  if expression = "" then throw (.template "template expression cannot be empty")
  if maxTemplateExpressionLength < expression.length then
    throw (.template "template expression exceeds the size limit")
  let parts ← splitPipeline expression
  let field ← fieldOf (parts.headD "")
  if maxTemplateFilters < parts.length - 1 then
    throw (.template "template expression has too many filters")
  let filters ← parts.tail.mapM (readFilter literalEval)
  return { field := field, filters := filters }

/-- What is reported of an expression. -/
def expressionIssues (body : List Char) (path : String) : Except PyError (List ValidationIssue) :=
  match parseExpression literalEval (String.ofList body) with
  | .ok _ => .ok []
  | .error (.other className) => .error (.other className)
  | .error e => .ok [⟨path, e.code, e.message, "error"⟩]

/-- The issue where the condition holds. -/
def issueIf (bad : Bool) (path code message : String) : List ValidationIssue :=
  if bad then [⟨path, code, message, "error"⟩] else []

/-- `validate_template(template, path=…)`; its callers pass texts. -/
def validateTemplateText (template : String) (path : String) : Except PyError (List ValidationIssue) :=
  if maxTemplateLength < template.length then
    .ok [⟨path, "template_size_limit", "template exceeds the size limit", "error"⟩]
  else
    let (bodies, around) := expressions template.length template.toList
    runChecks (.ok (issueIf (maxTemplateExpressions < bodies.length) path "template_expression_limit"
        "template has too many expressions") ::
      .ok (issueIf (hasDelimiter around) path "unbalanced_template_delimiter"
        "template contains unbalanced delimiters") ::
      bodies.mapIdx fun index body =>
        expressionIssues literalEval body (path ++ ".expression[" ++ toString index ++ "]"))

end Parsing

/-! ## What is refused, and what escapes -/

/-- What is raised is caught. -/
def Refused {α : Type} (x : Except TemplateError α) : Prop := ∀ e, x = .error e → e.isCaught = true

@[simp] theorem refused_ok {α : Type} (a : α) : Refused (.ok a) := nofun

@[simp] theorem refused_template {α : Type} (message : String) :
    Refused (.error (.template message) : Except TemplateError α) := by
  rintro e ⟨⟩
  rfl

/-- What is refused first, or what follows. -/
theorem refused_bind {α β : Type} {x : Except TemplateError α} {f : α → Except TemplateError β} :
    Refused (x >>= f) ↔ Refused x ∧ ∀ a, x = .ok a → Refused (f a) := by
  cases x with
  | error e => simp [Refused, bind, Except.bind]
  | ok a => simp [Refused, bind, Except.bind]

/-- A field is refused by the validation. -/
theorem refused_fieldOf (text : String) : Refused (fieldOf text) := by
  intro e he
  unfold fieldOf at he
  cases hfield : normalizeFieldReference (.str text) with
  | ok field =>
    rw [hfield] at he
    cases he
  | error raised =>
    rw [hfield] at he
    cases he
    rfl

theorem refused_scan (c : Char) (s : PipelineScan) : Refused (s.read c) := by
  unfold PipelineScan.read
  split_ifs <;> simp

/-- By induction on the characters. -/
theorem refused_scans (text : List Char) (s : PipelineScan) :
    Refused (text.foldlM PipelineScan.read s) := by
  induction text generalizing s with
  | nil => exact refused_ok s
  | cons c text ih =>
    rw [List.foldlM_cons, refused_bind]
    exact ⟨refused_scan c s, fun after _ => ih after⟩

/-- Splitting raises nothing else. -/
theorem refused_splitPipeline (expression : String) : Refused (splitPipeline expression) := by
  unfold splitPipeline
  rw [refused_bind]
  refine ⟨refused_scans _ _, fun s _ => ?_⟩
  by_cases hopen : s.quote.isSome ∨ s.depth ≠ 0
  · rw [if_pos hopen]
    exact refused_template _
  · rw [if_neg hopen]
    exact refused_ok _

/-- Neither does the check of a filter. -/
theorem refused_validateFilter (name : String) (args : List Literal) :
    Refused (validateFilter name args) := by
  unfold validateFilter
  split
  · exact refused_template _
  · split_ifs
    · exact refused_template _
    · exact refused_template _
    · unfold truncateLength
      split
      · split_ifs <;> simp
      · exact refused_template _
    · exact refused_ok ()

section Escapes

variable (literalEval : String → Except LiteralError Literal)

/-- The arguments of a filter are a literal, or are refused as one. -/
def ArgumentsFit (arguments : Option String) : Prop :=
  ∀ raw ∈ arguments, strip raw ≠ "" → ∀ e, literalEval ("(" ++ raw ++ ",)") = .error e → e.caught = true

def FilterFits (raw : String) : Prop :=
  ∀ name arguments, matchFilter raw = some (name, arguments) → ArgumentsFit literalEval arguments

/-- A filter fits, where the filters before it are accepted. -/
def FiltersFit (raws : List String) : Prop :=
  ∀ before raw after, raws = before ++ raw :: after →
    (∀ accepted ∈ before, Reports (readFilter literalEval accepted)) → FilterFits literalEval raw

/-- The filters behind a field fit, where the limits let the parser get to them. -/
def ExpressionFits (expression : String) : Prop :=
  ∀ parts, splitPipeline expression = .ok parts → expression ≠ "" →
    expression.length ≤ maxTemplateExpressionLength → Reports (fieldOf (parts.headD "")) →
    parts.length - 1 ≤ maxTemplateFilters → FiltersFit literalEval parts.tail

/-- The expressions of a template that is not too long fit. -/
def TemplateFits (template : String) : Prop :=
  template.length ≤ maxTemplateLength → ∀ body ∈ (expressions template.length template.toList).1,
    ExpressionFits literalEval (strip (String.ofList body))

variable {literalEval}

/-- The arguments raise what their evaluation raises. -/
theorem refused_literalArguments {arguments : Option String} :
    Refused (literalArguments literalEval arguments) ↔ ArgumentsFit literalEval arguments := by
  cases arguments with
  | none => simp [literalArguments, ArgumentsFit]
  | some raw =>
    -- no argument text, a blank one, or a literal to be read
    by_cases hblank : strip raw = ""
    · simp [literalArguments, ArgumentsFit, hblank]
    · simp only [literalArguments, ArgumentsFit, Option.mem_some_iff, forall_eq', ne_eq, hblank,
        not_false_eq_true, forall_true_left]
      cases hvalue : literalEval ("(" ++ raw ++ ",)") with
      | ok value =>
        cases value with
        | tuple items =>
          dsimp only
          split_ifs <;> simp
        | _ => simp
      | error e =>
        dsimp only
        cases hcaught : e.caught with
        | true => simp [hcaught]
        | false => simp [Refused, TemplateError.isCaught, hcaught]

theorem refused_readFilter {raw : String} :
    Refused (readFilter literalEval raw) ↔ FilterFits literalEval raw := by
  unfold readFilter FilterFits
  cases hmatch : matchFilter raw with
  | none => simp
  | some found =>
    obtain ⟨name, arguments⟩ := found
    simp only [Option.some.injEq, Prod.mk.injEq]
    rw [refused_bind, refused_literalArguments]
    constructor
    · rintro ⟨hfits, -⟩ _ _ ⟨rfl, rfl⟩
      exact hfits
    · intro hfits
      refine ⟨hfits name arguments ⟨rfl, rfl⟩, fun args _ => ?_⟩
      rw [refused_bind]
      exact ⟨refused_validateFilter name args, fun _ _ => refused_ok _⟩

/-- The first filter, and those behind it if it is accepted. -/
theorem filtersFit_cons {raw : String} {raws : List String} :
    FiltersFit literalEval (raw :: raws) ↔ FilterFits literalEval raw ∧
      (Reports (readFilter literalEval raw) → FiltersFit literalEval raws) := by
  constructor
  · intro hall
    refine ⟨hall [] raw raws rfl nofun, fun haccepted before next after heq hbefore => ?_⟩
    exact hall (raw :: before) next after (by rw [heq]; rfl)
      (List.forall_mem_cons.mpr ⟨haccepted, hbefore⟩)
  · rintro ⟨hfirst, hrest⟩ before next after heq hbefore
    cases before with
    | nil =>
      obtain ⟨rfl, rfl⟩ := List.cons.inj heq
      exact hfirst
    | cons accepted before =>
      obtain ⟨rfl, rfl⟩ := List.cons.inj heq
      obtain ⟨haccepted, hbefore⟩ := List.forall_mem_cons.mp hbefore
      exact hrest haccepted before next after rfl hbefore

/-- By induction on the filters. -/
theorem refused_filters {raws : List String} :
    Refused (raws.mapM (readFilter literalEval)) ↔ FiltersFit literalEval raws := by
  induction raws with
  | nil =>
    refine iff_of_true (refused_ok []) ?_
    intro before raw after heq
    exact absurd heq (by simp)
  | cons raw raws ih =>
    rw [List.mapM_cons, refused_bind, refused_readFilter, filtersFit_cons]
    refine and_congr_right fun _ => ?_
    constructor
    · rintro hrest ⟨read, hread⟩
      exact ih.mp (refused_bind.mp (hrest read hread)).1
    · intro hrest read hread
      exact refused_bind.mpr ⟨ih.mpr (hrest ⟨read, hread⟩), fun _ _ => refused_ok _⟩

/-- **The parser raises what is caught, if and only if the expression fits.** -/
theorem refused_parseExpression {expression : String} :
    Refused (parseExpression literalEval expression) ↔ ExpressionFits literalEval (strip expression) := by
  unfold parseExpression ExpressionFits
  generalize strip expression = text
  -- the length is checked before anything is read
  by_cases hempty : text = ""
  · simp [hempty, throw, throwThe, MonadExceptOf.throw, bind, Except.bind]
  by_cases hlength : maxTemplateExpressionLength < text.length
  · simp [hempty, hlength, not_le.mpr hlength, throw, throwThe, MonadExceptOf.throw, bind, Except.bind]
  simp only [if_neg hempty, if_neg hlength]
  rw [refused_bind]
  simp only [ne_eq, hempty, not_false_eq_true, forall_true_left, not_lt.mp hlength,
    refused_splitPipeline text, true_and]
  refine forall₂_congr fun parts _ => ?_
  rw [refused_bind]
  simp only [refused_fieldOf, true_and]
  have htail : ∀ field, Refused (do
      if maxTemplateFilters < parts.length - 1 then
        throw (.template "template expression has too many filters")
      let filters ← parts.tail.mapM (readFilter literalEval)
      return ({ field := field, filters := filters } : ParsedExpression)) ↔
      (parts.length - 1 ≤ maxTemplateFilters → FiltersFit literalEval parts.tail) := by
    intro field
    -- then the number of filters
    by_cases hfilters : maxTemplateFilters < parts.length - 1
    · simp [hfilters, not_le.mpr hfilters, throw, throwThe, MonadExceptOf.throw, bind, Except.bind]
    · simp only [if_neg hfilters, not_lt.mp hfilters, forall_true_left]
      rw [refused_bind, refused_filters]
      exact and_iff_left fun _ _ => refused_ok _
  constructor
  · rintro hall ⟨field, hfield⟩
    exact (htail field).mp (hall field hfield)
  · intro hall field hfield
    exact (htail field).mpr (hall ⟨field, hfield⟩)

/-- An expression is reported on if it fits. -/
theorem reports_expressionIssues {body : List Char} {path : String} :
    Reports (expressionIssues literalEval body path) ↔
      ExpressionFits literalEval (strip (String.ofList body)) := by
  rw [← refused_parseExpression]
  unfold expressionIssues
  cases parseExpression literalEval (String.ofList body) with
  | ok parsed => simp
  | error e => cases e <;> simp [Refused, TemplateError.isCaught]

/-- **The validation of a template reports, if and only if its expressions fit.** -/
theorem reports_validateTemplate {template path : String} :
    Reports (validateTemplateText literalEval template path) ↔ TemplateFits literalEval template := by
  unfold validateTemplateText TemplateFits
  by_cases hlength : maxTemplateLength < template.length
  · simp [hlength, not_le.mpr hlength]
  · simp only [if_neg hlength, not_lt.mp hlength, forall_true_left]
    rw [reports_runChecks, List.forall_mem_cons, List.forall_mem_cons, ← reports_runChecks]
    simp only [reports_ok, true_and]
    exact reports_runChecks_mapIdx fun index body _ => reports_expressionIssues

/-- A text without an opening has no expression. -/
theorem expressions_of_no_opening (fuel : ℕ) {text : List Char}
    (h : ¬[openBrace, openBrace] <:+: text) : (expressions fuel text).1 = [] := by
  induction fuel generalizing text with
  | zero => rfl
  | succ fuel ih =>
    cases text with
    | nil => rfl
    | cons c text =>
      have hclosed : ¬(c = openBrace ∧ text.head? = some openBrace) := by
        rintro ⟨rfl, hhead⟩
        obtain ⟨rest, rfl⟩ := List.head?_eq_some_iff.mp hhead
        exact h ⟨[], rest, rfl⟩
      simp only [expressions, if_neg hclosed]
      exact ih fun hinfix => h (List.infix_cons hinfix)

/-- A text without delimiters has no expression. -/
theorem templateFits_of_no_delimiter {template : String} (h : hasDelimiter template.toList = false) :
    TemplateFits literalEval template := by
  intro _ body hbody
  have hopening : ¬[openBrace, openBrace] <:+: template.toList :=
    of_decide_eq_false (Bool.or_eq_false_iff.mp h).1
  rw [expressions_of_no_opening _ hopening] at hbody
  exact absurd hbody List.not_mem_nil

end Escapes

end IncidentRelay.Orchestration
