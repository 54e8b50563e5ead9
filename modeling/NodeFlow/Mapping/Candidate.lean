import NodeFlow.Fault
import NodeFlow.Mapping.Polarity
import NodeFlow.Template.Field
import NodeFlow.Text.Search
/-!
# Candidates for fields

A candidate is an input of a node that may be what a field stands for. For
the prompts these are the texts of encoders, told apart by where their
output goes, else by the titles of their nodes, else offered for both. For
all other fields the name of an input decides; a loader of images may also
be told from its types.
-/

namespace NodeFlow

/-- An input of a node that may be what a field stands for. -/
structure Candidate where
  node : String
  title : String
  classType : String
  input : String
  /-- The literal of the input, or null. -/
  value : Json := .null
  deriving DecidableEq

namespace Candidate

/-- An input of a node as a candidate. -/
def ofInput (n : Node) (input : String) : Candidate :=
  ⟨n.id, n.displayTitle, n.classType, input, (n.literal? input).getD .null⟩

/-- A candidate as an object. -/
def toJson (c : Candidate) : Json :=
  .obj [("nodeId", .str c.node), ("nodeName", .str c.title), ("classType", .str c.classType),
    ("inputKey", .str c.input), ("currentValue", c.value)]

/-- Reads a candidate from an object. The node and the input must be there. -/
def ofJson (v : Json) : Except Fault Candidate :=
  match v with
  | .obj fs =>
    let shown (name : String) : String := ((Entries.get? fs name).getD (.str "")).display
    match Entries.get? fs "nodeId", Entries.get? fs "inputKey" with
    | none, _ => .error (.absentKey "nodeId")
    | _, none => .error (.absentKey "inputKey")
    | some node, some input =>
      .ok ⟨node.display, shown "nodeName", shown "classType", input.display,
        (Entries.get? fs "currentValue").getD .null⟩
  | _ => .error .wrongType

end Candidate

/-! ## Prompts -/

/-- The inputs that hold the text of an encoder, the usual one first. -/
def promptInputs : List String := ["text", "prompt"]

/-- The type of inputs that hold text. -/
def textType : String := "STRING"

/-- The type of images. -/
def imageType : String := "IMAGE"

/-- The inputs of a node that its class declares with a type. -/
def inputsOfType (schema : Schema) (n : Node) (type : String) : List String :=
  match schema.get? n.classType with
  | some t => (t.inputs.filter fun i => i.type = type && n.hasInput i.name).map InputSpec.name
  | none => []

/-- The polarity that a title tells. -/
def titlePolarity? (title : String) : Option Polarity :=
  let lowered := Text.lower title
  if Text.occursIn "positive" lowered then some .positive
  else if Text.occursIn "negative" lowered then some .negative
  else none

namespace Graph

/-- The encoders that show by the name of an input. -/
def namedEncoders (g : Graph) : List (Node × String) :=
  g.nodeList.filterMap fun n => (promptInputs.find? n.hasInput).map fun input => (n, input)

/-- The encoders that show by the types of an output and an input. -/
def typedEncoders (g : Graph) (schema : Schema) : List (Node × String) :=
  (g.nodeList.filter fun n => n.hasOutputType conditioningType).flatMap fun n =>
    (inputsOfType schema n textType).map fun input => (n, input)

/-- The encoders with the inputs that hold their texts; types count only where no name does. -/
def encoders (g : Graph) (schema : Schema) : List (Node × String) :=
  if g.namedEncoders.isEmpty then g.typedEncoders schema else g.namedEncoders

/-- Whether an encoder is offered for a polarity although its trace ends nowhere. -/
def isUntracedFor (g : Graph) (p : Polarity) (n : Node) : Bool :=
  (g.trace n.id).isNone && ((titlePolarity? n.displayTitle).all fun q => q = p)

/-- The candidates for a prompt: those that were traced, the last one first, then the others. -/
def promptCandidates (g : Graph) (schema : Schema) (p : Polarity) : List Candidate :=
  let all := g.encoders schema
  let traced := all.filter fun e => g.trace e.1.id = some p
  let untraced := all.filter fun e => g.isUntracedFor p e.1
  (traced.reverse ++ untraced).map fun e => .ofInput e.1 e.2

end Graph

/-! ## Other fields -/

/-- The beginnings of the keys of fields that only one of two models has. -/
def noiseMarks : List String := ["highnoise_", "lownoise_"]

/-- A placeholder as it stands in a text. -/
def placeholderToken (name : String) : String := "\x7b\x7b" ++ name ++ "\x7d\x7d"

/-- Whether a value may be that of a field. Fields of only one of two models share their inputs
with the other, and are told by their placeholder. -/
def isValueOf (key : String) (value : Option Json) : Bool :=
  if noiseMarks.any fun m => Text.startsWith key m then
    match value with
    | some (.str s) => Text.occursIn (placeholderToken key) s
    | _ => false
  else true

namespace Graph

/-- The candidates for a field by the names of inputs. -/
def namedCandidates (g : Graph) (key : String) : List Candidate :=
  g.nodeList.flatMap fun n =>
    (n.inputs.keys.filter fun input =>
      (inputsOfField key).contains input && isValueOf key (n.literal? input)).map
        (Candidate.ofInput n)

/-- The candidates for an image by the types of an output and an input. -/
def imageCandidates (g : Graph) (schema : Schema) : List Candidate :=
  (g.nodeList.filter fun n => n.hasOutputType imageType).flatMap fun n =>
    (inputsOfType schema n choiceType).map (Candidate.ofInput n)

/-- The candidates for a field. -/
def candidates (g : Graph) (schema : Schema) (key : String) : List Candidate :=
  if key = "positive_text" then g.promptCandidates schema .positive
  else if key = "negative_text" then g.promptCandidates schema .negative
  else
    let named := g.namedCandidates key
    if named.isEmpty && key = "image" then g.imageCandidates schema else named

end Graph

end NodeFlow
