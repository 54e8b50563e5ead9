import NodeFlow.Json.Writer
import NodeFlow.Mapping.Choice
import NodeFlow.Modifier.Chain
/-!
# Saved mappings

A mapping is saved as JSON with everything it shows. A text that is not such
a saved state is refused with the reason and the beginning of the text. Only
an index beyond all integers is a failure of its own.
-/

namespace NodeFlow

namespace Choice

/-- A choice as an object. -/
def toJson (c : Choice) : Json :=
  .obj [("fieldKey", c.field.key), ("displayName", c.field.displayName),
    ("description", c.field.description), ("required", .bool c.required),
    ("selectedCandidateIndex", .int c.selected),
    ("candidates", .arr (c.candidates.map Candidate.toJson))]

/-- The items of a value that is gone through: those of a list, the characters of a text, the keys
of an object. -/
def iterate : Json → Except Fault (List Json)
  | .arr items => .ok items
  | .str s => .ok (s.toList.map fun c => .str c.toString)
  | .obj fs => .ok (fs.map fun e => .str e.1)
  | _ => .error .wrongType

/-- An entry that must be there. -/
def entry (fs : Fields) (name : String) : Except Fault Json :=
  match Entries.get? fs name with
  | some v => .ok v
  | none => .error (.absentKey name)

/-- Reads a choice from an object. -/
def ofJson (v : Json) : Except Fault Choice :=
  match v with
  | .obj fs => do
    let key ← entry fs "fieldKey"
    let displayName ← entry fs "displayName"
    let description ← entry fs "description"
    let candidates ← (← iterate (← entry fs "candidates")).mapM Candidate.ofJson
    let selected ← integerOf ((Entries.get? fs "selectedCandidateIndex").getD (.int 0))
    let required := ((Entries.get? fs "required").getD (.bool true)).isTruthy
    return ⟨⟨key, displayName, description⟩, candidates, selected, required⟩
  | _ => .error .wrongType

end Choice

namespace Mapping

/-- A mapping as an object. -/
def toJson (m : Mapping) : Json :=
  .obj [("workflowType", .str m.category.name),
    ("fieldMappings", .arr (m.choices.map Choice.toJson))]

/-- The text of a saved mapping. -/
def save (m : Mapping) : String := Json.write .saved m.toJson

/-- Reads a mapping from an object. -/
def ofJson (v : Json) : Except Fault Mapping :=
  match v with
  | .obj fs => do
    let choices ← (← Choice.iterate (← Choice.entry fs "fieldMappings")).mapM Choice.ofJson
    let category ← Category.ofJson (← Choice.entry fs "workflowType")
    return ⟨category, choices⟩
  | _ => .error .wrongType

/-- The refusal of a text that is not a saved mapping. -/
def refusal (text : String) (f : Fault) : Fault :=
  match f with
  | .tooLarge => .tooLarge
  | other =>
    .reported (.parameter "mapping_state" (.str (Chain.excerpt text))
      (some (other.message?.getD "")) [] (some other.toCause) [])

/-- Restores a saved mapping. -/
def restore (text : String) : Except Fault Mapping :=
  match readJson text >>= ofJson with
  | .ok m => .ok m
  | .error f => .error (refusal text f)

end Mapping

end NodeFlow
