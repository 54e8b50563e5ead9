import NodeFlow.Graph
import NodeFlow.Text.Search
/-!
# What may be wired to what

An output may feed an input if their types agree up to the case of their
letters. A type that is not known agrees with every type, and so does the
wildcard. The two queries of an editor follow: the inputs that an output
could feed, and the outputs that could feed an input. Where types are not
declared, the name of an input may still tell its type.
-/

namespace NodeFlow

/-- The type that agrees with every type. -/
def wildcardType : String := "*"

/-- Whether an output of one type may feed an input of another. -/
def isCompatible (producer consumer : Option String) : Bool :=
  match producer, consumer with
  | some p, some c => p = wildcardType || c = wildcardType || Text.fold p = Text.fold c
  | _, _ => true

/-! ## Types told from names -/

/-- Type names with the input names that tell them. -/
def typeNames : List (String × List String) := [
  ("LATENT", ["samples", "latent_image", "latent", "latent_images"]),
  ("CONDITIONING", ["positive", "negative", "conditioning", "cond"]),
  ("IMAGE", ["image", "images", "pixels"]),
  ("MASK", ["mask"]),
  ("NOISE", ["noise"]),
  ("VAE", ["vae"])]

/-- The type that the name of an input tells, if any. -/
def typeOfName? (input : String) : Option String :=
  let name := Text.lower input
  match typeNames.find? fun t => t.2.contains name with
  | some t => some t.1
  | none =>
    if name = "unet" || Text.startsWith name "model" then some "MODEL"
    else if Text.startsWith name "clip" then some "CLIP"
    else none

/-! ## The ends of possible connections -/

/-- One end of a possible connection: an input or an output of a node, with its type if known. -/
structure SlotRef where
  node : String
  type : Option String
  input : Option String := none
  output : Option Int := none
  deriving DecidableEq

/-- The type of an input: that of an open slot is its own, the others are those of the class. -/
def inputSlotType (n : Node) (input : String) (schema : Schema) : Option String :=
  match n.inputs.get? input with
  | some (.slot type) => some type
  | _ => schema.inputType? n.classType input

/-- The type of an output, as the node or else its class has it. -/
def outputSlotType (n : Node) (index : Int) (schema : Schema) : Option String :=
  match Schema.itemAt? n.outputs index with
  | some o => some o.type
  | none => schema.outputType? n.classType index

/-- The outputs of a node, as the node or else its class has them. -/
def knownOutputs (n : Node) (schema : Schema) : List Port :=
  if n.outputs.isEmpty then schema.outputs n.classType else n.outputs

namespace Graph

/-- The inputs of other nodes that an output could feed. -/
def targetsOf (g : Graph) (schema : Schema) (source : String) (output : Int) : List SlotRef :=
  match g.node? source with
  | none => []
  | some n =>
    let produced := outputSlotType n output schema
    (g.nodeList.filter fun m => m.id ≠ source).flatMap fun m =>
      (m.inputs.entries.filter fun e => e.2.isPort).filterMap fun e =>
        let consumed := inputSlotType m e.1 schema
        if isCompatible produced consumed then
          some { node := m.id, type := consumed, input := some e.1 }
        else none

/-- The outputs of other nodes that could feed an input. -/
def sourcesOf (g : Graph) (schema : Schema) (target input : String) : List SlotRef :=
  match g.node? target with
  | none => []
  | some n =>
    let consumed := inputSlotType n input schema
    (g.nodeList.filter fun m => m.id ≠ target).flatMap fun m =>
      (knownOutputs m schema).zipIdx.filterMap fun o =>
        if isCompatible (some o.1.type) consumed then
          some { node := m.id, type := some o.1.type, output := some o.2 }
        else none

end Graph

end NodeFlow
