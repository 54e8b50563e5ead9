import NodeFlow.Json.Display
/-!
# Error reports

An error that concerns the caller is a `Report`: a technical message with
details, and wording for readers who know less. Which wording a reader sees
depends on the `Audience`; in production the technical part is withheld
from the public form. A report's kind fixes its name, its place among the
other kinds, and the wording used where the report brings none of its own.
-/

namespace NodeFlow

/-- Who an error is worded for. -/
inductive Audience where
  | beginner
  | casual
  | developer
  deriving DecidableEq

/-- The name of an audience in the environment. -/
def Audience.name : Audience → String
  | .beginner => "eli5"
  | .casual => "casual"
  | .developer => "developer"

/-- The audiences in order of how much they are told. -/
def Audience.all : List Audience := [.beginner, .casual, .developer]

/-- The audience with a given name. -/
def Audience.ofName? (s : String) : Option Audience := Audience.all.find? fun a => a.name = s

/-- How severe an error is. -/
inductive Severity where
  | debug
  | info
  | warning
  | error
  | critical
  deriving DecidableEq

/-- The name of a severity. -/
def Severity.name : Severity → String
  | .debug => "debug"
  | .info => "info"
  | .warning => "warning"
  | .error => "error"
  | .critical => "critical"

/-- The severity with a given name. -/
def Severity.ofName? (s : String) : Option Severity :=
  [Severity.debug, .info, .warning, .error, .critical].find? fun l => l.name = s

/-- The kinds of reported errors. -/
inductive ReportKind where
  | general
  /-- Any error about a workflow. -/
  | workflow
  /-- A text or value that is no workflow document. -/
  | unreadable
  /-- A workflow that may not be submitted. -/
  | invalid
  /-- A schema document that cannot be used. -/
  | schema
  /-- Any error about an argument. -/
  | validation
  /-- An argument with a value that is not accepted. -/
  | parameter
  deriving DecidableEq

namespace ReportKind

/-- The name of a kind. -/
def name : ReportKind → String
  | .general => "ComfyCompilerError"
  | .workflow => "WorkflowError"
  | .unreadable => "WorkflowParseError"
  | .invalid => "WorkflowValidationError"
  | .schema => "SchemaError"
  | .validation => "ValidationError"
  | .parameter => "InvalidParameterError"

/-- All kinds. -/
def all : List ReportKind :=
  [.general, .workflow, .unreadable, .invalid, .schema, .validation, .parameter]

/-- The kind with a given name. -/
def ofName? (s : String) : Option ReportKind := all.find? fun k => k.name = s

/-- The kinds above a kind, nearest first. -/
def ancestors : ReportKind → List ReportKind
  | .general => []
  | .workflow | .schema | .validation => [.general]
  | .unreadable | .invalid => [.workflow, .general]
  | .parameter => [.validation, .general]

/-- The code of a kind, where the kind fixes one. -/
def code? : ReportKind → Option String
  | .unreadable => some "WORKFLOW_PARSE_ERROR"
  | .invalid => some "WORKFLOW_VALIDATION_ERROR"
  | .schema => some "SCHEMA_ERROR"
  | .parameter => some "INVALID_PARAMETER"
  | _ => none

/-- The technical message of a report that is made without one. -/
def defaultMessage? : ReportKind → Option String
  | .unreadable => some "Failed to parse workflow"
  | .invalid => some "Workflow validation failed"
  | .schema => some "Invalid node type schema"
  | _ => none

/-- The wording for users. -/
def userMessage : ReportKind → String
  | .general => "An error occurred"
  | .workflow => "Workflow error"
  | .unreadable => "The workflow file could not be read"
  | .invalid => "Workflow is invalid"
  | .schema => "Node information from the server is invalid"
  | .validation | .parameter => "Invalid input"

/-- The wording for beginners. -/
def beginnerMessage : ReportKind → String
  | .general => "Something went wrong"
  | .workflow => "The recipe for making the image has a problem"
  | .unreadable => "The recipe file is broken"
  | .invalid => "Some parts of the recipe don't fit together"
  | .schema => "The server described its parts in a way we can't read"
  | .validation | .parameter => "Something you entered isn't quite right"

/-- What a user may try. -/
def suggestions : ReportKind → List String
  | .unreadable =>
    ["Check that the file is valid JSON", "Export the workflow again from the graph editor"]
  | .schema => ["Refresh the node information from the server"]
  | _ => []

end ReportKind

/-- The failure behind a report: the name of its kind and its wording. -/
structure Cause where
  kind : String
  text : String
  deriving DecidableEq

/-- The wording of a failure that brings no report along. -/
def Cause.messageFor (c : Cause) : Audience → String
  | .beginner => ReportKind.general.beginnerMessage
  | .casual => "Error: " ++ c.kind
  | .developer => c.kind ++ ": " ++ c.text

/-- An error as it is reported. -/
structure Report where
  kind : ReportKind
  /-- The technical message. -/
  message : String
  /-- The code, if it is not the one that follows from the kind. -/
  ownCode : Option String := none
  ownUserMessage : Option String := none
  ownBeginnerMessage : Option String := none
  details : Fields := []
  cause : Option Cause := none
  ownSuggestions : Option (List String) := none
  level : Severity := .error
  requestId : Option String := none
  /-- The text that could not be read, untouched. -/
  sourceText : Option String := none

/-- The first text that is there and not empty. -/
def firstText (own : Option String) (fallback : String) : String :=
  match own with
  | some s => if s = "" then fallback else s
  | none => fallback

namespace Report

/-- The code of a report. -/
def code (r : Report) : String :=
  match r.kind.code? with
  | some c => c
  | none => firstText r.ownCode r.kind.name

/-- The wording for users. -/
def userMessage (r : Report) : String := firstText r.ownUserMessage r.kind.userMessage

/-- The wording for beginners. -/
def beginnerMessage (r : Report) : String := firstText r.ownBeginnerMessage r.kind.beginnerMessage

/-- What a user may try. -/
def suggestions (r : Report) : List String :=
  match r.ownSuggestions with
  | some [] | none => r.kind.suggestions
  | some own => own

/-- The identifier of the request, if there is one that is not empty. -/
def request? (r : Report) : Option String := r.requestId.filter (· ≠ "")

/-- The details together with the identifier of the request. -/
def allDetails (r : Report) : Fields :=
  match r.request? with
  | some id => Entries.put r.details "request_id" (.str id)
  | none => r.details

/-- The wording for developers: code, message, details and cause. -/
def developerMessage (r : Report) : String :=
  let head := match r.request? with
    | some id => s!"[{r.code}:{id}]"
    | none => s!"[{r.code}]"
  let shown := r.allDetails.filter fun d => d.1 ≠ "request_id"
  let details := String.intercalate ", " (shown.map fun d => d.1 ++ "=" ++ d.2.display)
  let tail := match r.cause with
    | some c => s!" [caused by: {c.kind}: {c.text}]"
    | none => ""
  s!"{head} {r.message}" ++ (if shown.isEmpty then "" else s!" ({details})") ++ tail

/-- The wording for an audience. -/
def messageFor (r : Report) : Audience → String
  | .beginner => r.beginnerMessage
  | .casual => r.userMessage
  | .developer => r.developerMessage

/-- The wording in logs and on a terminal. -/
def text (r : Report) (production : Bool) : String :=
  if production then r.userMessage else r.developerMessage

/-- The report as an object; the technical part is left out of it unless asked for. -/
def fields (r : Report) (technical : Bool) : Fields :=
  [("error", .bool true), ("code", .str r.code), ("message", .str r.userMessage),
    ("suggestions", .arr (r.suggestions.map .str))] ++
  (match r.request? with
    | some id => [("request_id", .str id)]
    | none => []) ++
  (if technical then
    [("details", .obj r.allDetails), ("developer_message", .str r.developerMessage)] ++
      (match r.cause with
        | some c => [("cause", .str c.text)]
        | none => [])
  else [])

/-! ## Making reports -/

/-- A text or value that is no workflow document, with the place of the flaw if it has one. -/
def unreadable (message : String) (sourceText : Option String) (line column : Option Nat)
    (cause : Option Cause) (details : Fields) : Report :=
  let withLine := match line with
    | some n => Entries.put details "line" (.int n)
    | none => details
  let withColumn := match column with
    | some n => Entries.put withLine "column" (.int n)
    | none => withLine
  { kind := .unreadable, message := message, details := withColumn, cause := cause
    sourceText := sourceText }

/-- A workflow that may not be submitted, with the reasons. -/
def invalid (message : String) (errors : List Json) (details : Fields) : Report :=
  { kind := .invalid, message := message
    details := if errors.isEmpty then details
      else Entries.put details "validation_errors" (.arr errors) }

/-- A schema document that cannot be used. -/
def schema (message : String) (details : Fields) (cause : Option Cause) : Report :=
  { kind := .schema, message := message, details := details, cause := cause }

/-- An argument with a value that is not accepted: why, and what would be. -/
def parameter (name : String) (value : Json) (reason : Option String) (allowed : List Json)
    (cause : Option Cause) (details : Fields) : Report :=
  let reason := reason.filter (· ≠ "")
  let base := Entries.put (Entries.put details "parameter" (.str name)) "value" (.str value.display)
  let withReason := match reason with
    | some why => Entries.put base "reason" (.str why)
    | none => base
  let choices := String.intercalate ", " ((allowed.take 5).map Json.display)
  { kind := .parameter
    message := s!"Invalid value for '{name}': {value.display}" ++
      (match reason with
        | some why => s!" ({why})"
        | none => "")
    ownUserMessage := some (s!"Invalid {name}" ++
      (if allowed.isEmpty then "" else s!". Choose from: {choices}"))
    details := if allowed.isEmpty then withReason
      else Entries.put withReason "allowed_values" (.arr allowed)
    cause := cause }

end Report

end NodeFlow
