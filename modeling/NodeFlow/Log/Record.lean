import NodeFlow.Log.Event
import NodeFlow.Log.Pattern
/-!
# Records

An event on its way to a reader is a table of attributes: who reports it,
how important it is, the pattern of its message with the values to fill in,
and whatever was attached. A record is written as an object of what is
worth reading, or as text after a pattern for whole records.
-/

namespace NodeFlow.Log

/-- A record. -/
structure Record where
  attributes : Fields

namespace Record

/-- A record of its own attributes. A single table in place of a row of values is one. -/
def make (logger : String) (level : Level) (message : Json) (values : List Json) : Record :=
  let args : Json := match values with
    | [.obj (f :: fs)] => .obj (f :: fs)
    | vs => .arr vs
  ⟨[("name", .str logger), ("msg", message), ("args", args), ("levelname", .str level.name),
    ("levelno", .int level.number)]⟩

/-- Attaches an attribute; one that is there is replaced. -/
def attach (r : Record) (name : String) (v : Json) : Record :=
  ⟨Entries.put r.attributes name v⟩

/-- Attaches attributes. -/
def attachAll (r : Record) (fs : Fields) : Record := fs.foldl (fun r f => r.attach f.1 f.2) r

/-- The text of a collection of a single value. -/
def singletonText (v : Json) : Json := .str ("\x7b" ++ v.inspect ++ "\x7d")

/-- Attaches a collection of a single value, shown as text. Lists and objects can be in none. -/
def attachSingleton (r : Record) (name : String) (v : Json) : Except Fault Record :=
  match v with
  | .arr _ => .error .wrongType
  | .obj _ => .error .wrongType
  | other => .ok (r.attach name (singletonText other))

/-- The value of an attribute, or null. -/
def get (r : Record) (name : String) : Json := (Entries.get? r.attributes name).getD .null

/-- The message with its values filled in. Without values the pattern is the message. -/
def message (r : Record) : Except Fault String :=
  let pattern := (r.get "msg").display
  match r.get "args" with
  | .arr [] => .ok pattern
  | .arr vs => fillPattern pattern (.ofRow vs)
  | .obj fs => if fs.isEmpty then .ok pattern else fillPattern pattern (.ofTable fs)
  | v => if v.isTruthy then fillPattern pattern (.ofRow [v]) else .ok pattern

/-- The attributes that are not worth reading. -/
def plumbing : List String := [
  "name", "msg", "args", "created", "filename", "funcName", "levelname", "levelno", "lineno",
  "module", "msecs", "pathname", "process", "processName", "relativeCreated", "stack_info",
  "exc_info", "exc_text", "thread", "threadName", "message", "asctime", "taskName"]

/-- Whether an attribute is worth reading. -/
def isShown (name : String) : Bool := !plumbing.contains name && !Text.startsWith name "_"

/-- The record as an object, with the time it is written at. -/
def fields (r : Record) (now : String) : Except Fault Fields :=
  r.message.map fun text =>
    (r.attributes.filter fun f => isShown f.1).foldl (fun fs f => Entries.put fs f.1 f.2)
      [("timestamp", .str now), ("level", r.get "levelname"), ("logger", r.get "name"),
        ("message", .str text)]

/-! ## Patterns for records -/

/-- The conversions that a pattern for records may have. -/
def conversions : List Char :=
  ['d', 'i', 'o', 'u', 'x', 'e', 'f', 'g', 'c', 'r', 's', 'a', '%']

/-- Whether a directive takes a named attribute. -/
def takesAttribute (d : Directive) : Bool :=
  (d.name.any fun name => name ≠ "" &&
    name.all fun c => c.isAlphanum || c = '_' || 0x80 ≤ c.toNat) &&
  (d.conversion.any fun c => conversions.contains c.toLower)

/-- Whether a directive that takes a named attribute begins anywhere in a text. -/
def hasAttribute : List Char → Bool
  | [] => false
  | c :: cs =>
    (c = '%' && (readDirective cs.length cs).any fun r => takesAttribute r.1) || hasAttribute cs

/-- The pattern that shows the message alone. -/
def messagePattern : String := "%(message)s"

/-- The record as text after a pattern, which must take some attribute, and none that the record
lacks. No pattern shows the message. -/
def text (r : Record) (pattern : String) : Except Fault String :=
  let pattern := if pattern = "" then messagePattern else pattern
  if !hasAttribute pattern.toList then .error (.badValue (.emptyLayout pattern))
  else
    match r.message with
    | .error e => .error e
    | .ok message =>
      match fillPattern pattern (.ofTable (r.attach "message" (.str message)).attributes) with
      | .error (.absentKey name) => .error (.badValue (.absentField name))
      | result => result

end Record

/-! ## Requests -/

/-- The request that records belong to, inside nested scopes. -/
structure Scope where
  current : Option String := none
  /-- What the scopes that were entered have to go back to, innermost first. -/
  outer : List (Option String) := []

namespace Scope

/-- Sets the request. -/
def set (s : Scope) (id : String) : Scope := { s with current := some id }

/-- Forgets the request. -/
def clear (s : Scope) : Scope := { s with current := none }

/-- Enters a scope for a request. -/
def enter (s : Scope) (id : String) : Scope := ⟨some id, s.current :: s.outer⟩

/-- Leaves the innermost scope. -/
def exit (s : Scope) : Scope :=
  match s.outer with
  | [] => s
  | previous :: rest => ⟨previous.filter (· ≠ ""), rest⟩

/-- The request as records show it. -/
def shown (id : Option String) : String :=
  match id with
  | some s => if s = "" then "-" else s
  | none => "-"

/-- The attributes of a record within a request. -/
def attributes (id : Option String) : Fields :=
  [("component", .str rootName), ("request_id", .str (shown id))]

end Scope

/-! ## Operations -/

/-- The full name of a channel; names outside the library's are put below its root. -/
def channelName (name : String) : String :=
  if Text.startsWith name rootName then name else rootName ++ "." ++ name

/-- Whether events under a name reach the library's readers. -/
def isHeard (name : String) : Bool := name = rootName || Text.startsWith name (rootName ++ ".")

/-- The level that the end of an operation is reported at. -/
def operationLevel (success : Bool) : Level := if success then .debug else .warning

/-- The message at the end of an operation, with the milliseconds it took if they are known. -/
def operationMessage (operation : String) (success : Bool) (duration : Option Binary64) : String :=
  operation ++ (if success then " completed" else " failed") ++
    (match duration with
      | some x => s!" ({Binary64.fixedPlaces 1 x}ms)"
      | none => "")

end NodeFlow.Log
