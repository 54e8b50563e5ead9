import NodeFlow.Json.Value
import NodeFlow.Text.Case
/-!
# Node types

A schema says, for each class type a server knows, which inputs a node of
that class takes, in order, and which outputs it has. Inputs of certain
types, and inputs that are declared so, can only be fed by a link; the
others show as widgets. Class types the schema does not define have no
inputs and outputs as far as it can tell.
-/

namespace NodeFlow

/-- An output of a node class. -/
structure Port where
  name : String
  type : String
  deriving DecidableEq

/-- An input of a node class. -/
structure InputSpec where
  name : String
  type : String
  required : Bool := true
  default : Json := .null
  min : Json := .null
  max : Json := .null
  step : Json := .null
  /-- The choices, where the input is one of a list. -/
  options : List Json := []
  multiline : Bool := false
  forceInput : Bool := false
  tooltip : Json := .null
  deriving DecidableEq

/-- The type of inputs that are chosen from a list. -/
def choiceType : String := "ENUM"

/-- The types whose values only come over a link. -/
def linkTypes : List String := [
  "MODEL", "CLIP", "VAE", "CONDITIONING", "LATENT", "IMAGE", "MASK", "CONTROL_NET",
  "STYLE_MODEL", "CLIP_VISION", "CLIP_VISION_OUTPUT", "GLIGEN", "UPSCALE_MODEL", "SAMPLER",
  "SIGMAS", "NOISE", "GUIDER", "*"]

/-- Whether an input can only be fed by a link. -/
def InputSpec.isLinkOnly (i : InputSpec) : Bool :=
  i.forceInput || linkTypes.contains (Text.upper i.type)

/-- Whether an input shows as a widget. -/
def InputSpec.isWidget (i : InputSpec) : Bool := !i.isLinkOnly

/-- What a schema says about one class type. -/
structure NodeType where
  classType : String
  inputs : List InputSpec := []
  outputs : List Port := []
  category : Json := .null
  displayName : Json := .null
  deriving DecidableEq

namespace NodeType

/-- The first input with a given name. -/
def input? (t : NodeType) (name : String) : Option InputSpec :=
  t.inputs.find? fun i => i.name = name

/-- The inputs that show as widgets, in order. -/
def widgets (t : NodeType) : List InputSpec := t.inputs.filter InputSpec.isWidget

/-- The types of the outputs, in order. -/
def outputTypes (t : NodeType) : List String := t.outputs.map Port.type

end NodeType

/-- The node types that a server knows. -/
structure Schema where
  types : Dict NodeType
  deriving DecidableEq

namespace Schema

/-- The schema without node types. -/
def empty : Schema := ⟨.empty⟩

/-- The number of node types. -/
def size (s : Schema) : Nat := s.types.size

/-- What the schema says about a class type. -/
def get? (s : Schema) (classType : String) : Option NodeType := s.types.get? classType

/-- Whether the schema defines a class type. -/
def has (s : Schema) (classType : String) : Bool := s.types.contains classType

/-- The type of an input of a class. -/
def inputType? (s : Schema) (classType name : String) : Option String :=
  (s.get? classType).bind fun t => (t.input? name).map InputSpec.type

/-- An item of a list by an index that may be negative, which is then out of range. -/
def itemAt? {α : Type} (xs : List α) (index : Int) : Option α :=
  if index < 0 then none else xs[index.toNat]?

/-- The type of an output of a class. -/
def outputType? (s : Schema) (classType : String) (index : Int) : Option String :=
  (s.get? classType).bind fun t => (itemAt? t.outputs index).map Port.type

/-- The outputs of a class; none if it is not defined. -/
def outputs (s : Schema) (classType : String) : List Port :=
  ((s.get? classType).map NodeType.outputs).getD []

/-- The choices of an input of a class. -/
def options (s : Schema) (classType name : String) : List Json :=
  (((s.get? classType).bind fun t => t.input? name).map InputSpec.options).getD []

end Schema

end NodeFlow
