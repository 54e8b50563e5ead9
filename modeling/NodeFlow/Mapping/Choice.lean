import NodeFlow.Log.Event
import NodeFlow.Mapping.Candidate
import NodeFlow.Template.Category
/-!
# Which input stands for which field

An analysis lists the fields of a category with their candidates, the
required ones first, and chooses the first candidate of each. A user may
choose another one, or none. The chosen inputs are the targets of a mapping;
writing the mapping puts the placeholder of each field into its target.
-/

namespace NodeFlow

/-- A field with its candidates and the index of the one that is chosen. -/
structure Choice where
  field : Field
  candidates : List Candidate := []
  selected : Int := 0
  required : Bool := true
  deriving DecidableEq

namespace Choice

/-- The candidate that is chosen, if the index is that of one. -/
def candidate? (c : Choice) : Option Candidate := Schema.itemAt? c.candidates c.selected

/-- Whether a candidate is chosen. -/
def isMapped (c : Choice) : Bool := c.candidate?.isSome

/-- Whether there is more than one candidate. -/
def isAmbiguous (c : Choice) : Bool := 1 < c.candidates.length

/-- Whether the choice was cleared although there are candidates. -/
def isCleared (c : Choice) : Bool := !c.candidates.isEmpty && c.selected < 0

/-- Whether an index is that of a candidate or stands for none. -/
def accepts (c : Choice) (index : Int) : Bool := -1 ≤ index && index < c.candidates.length

/-- The report about an index that is not accepted. -/
def rangeReport (c : Choice) (index : Int) : Report :=
  let last : Int := c.candidates.length - 1
  .parameter c.field.key.display (.int index)
    (some s!"candidate index out of range (0..{last})") [] none []

/-- Chooses the candidate at an index, or none. -/
def select (c : Choice) (index : Int) : Except Fault Choice :=
  if c.accepts index then .ok { c with selected := index }
  else .error (.reported (c.rangeReport index))

/-- Chooses no candidate. -/
def clear (c : Choice) : Choice := { c with selected := -1 }

/-- A field with its candidates in a workflow, the first one chosen. -/
def ofKey (g : Graph) (schema : Schema) (required : Bool) (key : String) : Choice :=
  let found := g.candidates schema key
  { field := .ofKey key, candidates := found, selected := if found.isEmpty then -1 else 0
    required := required }

end Choice

/-- An input of a node that stands for a field. -/
structure Target where
  field : Json
  node : String
  input : String
  deriving DecidableEq

namespace Target

/-- The form of a value in which equal keys agree: truth values and integral doubles are numbers.
Lists and objects are no keys. -/
def keyForm? : Json → Option Json
  | .bool b => some (.int (if b then 1 else 0))
  | .float x =>
    match x.toInt? with
    | some i => some (.int i)
    | none => some (.float x)
  | .arr _ => none
  | .obj _ => none
  | v => some v

/-- Whether two targets stand for the same field. -/
def agrees (a b : Target) : Bool := keyForm? a.field = keyForm? b.field

/-- Adds a target; one that stands for the same field is replaced at its place. -/
def put (ts : List Target) (t : Target) : List Target :=
  if ts.any fun u => u.agrees t then
    ts.map fun u => if u.agrees t then { t with field := u.field } else u
  else ts ++ [t]

/-- The target of a choice, if a candidate is chosen. -/
def ofChoice? (c : Choice) : Option Target :=
  c.candidate?.map fun a => ⟨c.field.key, a.node, a.input⟩

/-- The literal that is written into a target. -/
def placeholder (t : Target) : InputValue :=
  .literal (.str (placeholderToken (placeholderOfField t.field.display)))

/-- Whether a workflow has the input that a target names. -/
def existsIn (t : Target) (g : Graph) : Bool :=
  match g.node? t.node with
  | some n => n.hasInput t.input
  | none => false

end Target

/-- The choices for all fields of a category. -/
structure Mapping where
  category : Category
  choices : List Choice := []
  deriving DecidableEq

namespace Mapping

/-- The choices for the fields of a category in a workflow. -/
def analyze (g : Graph) (category : Category) (schema : Schema) : Mapping :=
  { category := category
    choices := (category.requiredKeys.map (Choice.ofKey g schema true)) ++
      (category.optionalKeys g.classTypes).map (Choice.ofKey g schema false) }

/-- What is reported about an analysis. -/
def analysisEvents (m : Mapping) : List Log.Event :=
  [Log.note .info .mapping s!"Analyzed {m.choices.length} fields for {m.category.name}"]

/-- The required fields without a chosen candidate. -/
def unmapped (m : Mapping) : List Field :=
  (m.choices.filter fun c => c.required && !c.isMapped).map Choice.field

/-- Whether every required field has a chosen candidate. -/
def isComplete (m : Mapping) : Bool := m.choices.all fun c => !c.required || c.isMapped

/-- The first choice for a field. -/
def choice? (m : Mapping) (key : String) : Option Choice :=
  m.choices.find? fun c => c.field.key = .str key

/-- Chooses the candidate of a field at an index, or none. -/
def select (m : Mapping) (key : String) (index : Int) : Except Fault Mapping := do
  let choices ← m.choices.mapM fun (c : Choice) =>
    if c.field.key = .str key then c.select index else .ok c
  return { m with choices := choices }

/-- The targets of the chosen candidates; a field that is a list or an object is none. -/
def targets (m : Mapping) : Except Fault (List Target) :=
  let ts := m.choices.filterMap Target.ofChoice?
  if ts.any fun t => (Target.keyForm? t.field).isNone then .error .wrongType
  else .ok (ts.foldl Target.put [])

end Mapping

namespace Graph

/-- Writes the placeholders of fields into their targets, where these exist. -/
def writePlaceholders (g : Graph) (ts : List Target) : Graph :=
  ts.foldl (fun h t => h.modify t.node fun n =>
    if n.hasInput t.input then n.setInput t.input t.placeholder else n) g

/-- What is reported while placeholders are written. -/
def placeholderEvents (g : Graph) (ts : List Target) : List Log.Event :=
  (ts.filter fun t => !t.existsIn g).map fun t =>
    Log.note .debug .mapping s!"Skipping mapping {t.field.display} -> {t.node}.{t.input}"

end Graph

end NodeFlow
