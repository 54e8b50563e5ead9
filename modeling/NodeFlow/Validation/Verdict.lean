import NodeFlow.Log.Event
import NodeFlow.Template.Category
import NodeFlow.Template.Substitution
import NodeFlow.Validation.Cycle
import NodeFlow.Wiring
/-!
# Verdicts on workflows

Whether a workflow can be submitted. Its structure is sound if it has
nodes, every connection starts at an output that exists, as far as the
outputs are known, and there is no cycle. A server has to provide its class
types. A template needs the placeholders of its category.
-/

namespace NodeFlow

open Template

/-- What is wrong with the structure of a workflow. -/
inductive StructureError where
  /-- There are no nodes. -/
  | noNodes
  /-- An input is connected to a node that is not there. -/
  | noSource (node input source : String)
  /-- A node is connected to an output beyond those of another. -/
  | noOutput (node : String) (output : Int) (source : String) (outputs : Nat)
  /-- The nodes depend on each other in a circle. -/
  | cycle (ids : List String)
  deriving DecidableEq

/-- The wording of an error. -/
def StructureError.message : StructureError → String
  | .noNodes => "Workflow has no nodes"
  | .noSource node input source =>
    s!"Node '{node}' input '{input}' references non-existent node '{source}'"
  | .noOutput node output source outputs =>
    s!"Node '{node}' references invalid output index {output} from '{source}' " ++
      s!"(has {outputs} outputs)"
  | .cycle ids => "Workflow contains a cycle: " ++ String.intercalate " -> " ids

/-- Whether the numbers in an error can be written. -/
def StructureError.isWritable : StructureError → Bool
  | .noOutput _ output _ _ => (Json.int output).isWritable
  | _ => true

/-- The text of an error, or the failure where an index in it has too many digits. -/
def StructureError.text (e : StructureError) : Except Fault String :=
  withinLimit e.isWritable e.message

namespace Graph

/-- What is wrong with a connection. An index from the end is not looked at, nor one into outputs
that are not known. -/
def linkError? (g : Graph) (schema : Schema) (n : Node) (input : String) (l : Link) :
    Option StructureError :=
  match g.node? l.source with
  | none => some (.noSource n.id input l.source)
  | some source =>
    let outputs := (knownOutputs source schema).length
    if 0 < outputs ∧ (outputs : Int) ≤ l.output then
      some (.noOutput n.id l.output source.id outputs)
    else none

/-- What is wrong with the connections of a workflow, in order. -/
def linkErrors (g : Graph) (schema : Schema) : List StructureError :=
  g.nodeList.flatMap fun n => n.links.filterMap fun l => g.linkError? schema n l.1 l.2

/-- What is wrong with the structure of a workflow. -/
def structureErrors (g : Graph) (schema : Schema) : List StructureError :=
  if g.nodes.isEmpty then [.noNodes]
  else g.linkErrors schema ++ (g.cycle?.map StructureError.cycle).toList

/-- The texts of what is wrong with the structure of a workflow. -/
def structureTexts (g : Graph) (schema : Schema) : Except Fault (List String) :=
  (g.structureErrors schema).mapM StructureError.text

/-- The class types in use that a schema does not define, sorted. -/
def missingTypes (g : Graph) (schema : Schema) : List String :=
  sorted (g.classTypes.filter fun c => c ≠ "" && !schema.has c)

end Graph

/-! ## Templates -/

/-- What a template lacks. -/
inductive TemplateError where
  /-- A place for the prompt. -/
  | noPrompt
  /-- A place for the image. -/
  | noImage
  deriving DecidableEq

/-- The wording of an error. -/
def TemplateError.message : TemplateError → String
  | .noPrompt => "Missing required placeholder \x7b\x7bpositive_prompt\x7d\x7d"
  | .noImage =>
    "Missing input image: expected \x7b\x7bimage_filename\x7d\x7d or '" ++ defaultImage ++ "'"

namespace Graph

/-- What a workflow lacks as a template of a category. -/
def templateErrors (g : Graph) (category : Category) : List TemplateError :=
  (if g.placeholders.contains "positive_prompt" then [] else [.noPrompt]) ++
  (if category.needsImage && !g.placeholders.contains imageName &&
      !(textLiterals g).contains defaultImage then [.noImage] else [])

/-- Everything that is wrong with a workflow, as a template if a category is given. -/
def problems (g : Graph) (schema : Schema) (category : Option Category) :
    Except Fault (List String) :=
  (g.structureTexts schema).map fun texts =>
    texts ++
    (if schema.size = 0 then []
      else (g.missingTypes schema).map ("Node type not available on server: " ++ ·)) ++
    (match category with
      | some c => (g.templateErrors c).map TemplateError.message
      | none => [])

end Graph

/-- The heading over the errors of a workflow where none is given. -/
def usualHeading : String := "Workflow validation failed"

/-- Fails with the given errors, if there are any. -/
def requireSound (errors : List String) (heading : String) : Log.Traced Unit :=
  if errors.isEmpty then Pure.pure ()
  else
    ⟨.error (.reported (.invalid heading (errors.map .str) [])),
      [Log.note .warning .validation s!"{heading}: {errors.length} errors"]⟩

end NodeFlow
