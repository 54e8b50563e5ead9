import NodeFlow.Graph
import NodeFlow.Settings
/-!
# Noise paths

Workflows with two models run one on the high-noise and one on the low-noise
steps. A classifier tells which of the two paths a model-sampling node
feeds. The usual one looks at the samplers that the node feeds: a sampler
that starts at step zero is on the high-noise path, any other on the low one.
-/

namespace NodeFlow

/-- The two paths of a workflow with two models. -/
inductive NoisePath where
  | high
  | low
  deriving DecidableEq

/-- The name of a path. -/
def NoisePath.name : NoisePath → String
  | .high => "high"
  | .low => "low"

/-- The path that a value names, or the failure. -/
def NoisePath.ofJson (v : Json) : Except Fault NoisePath :=
  match v with
  | .str "high" => .ok .high
  | .str "low" => .ok .low
  | other => .error (.unknownChoice other "NoisePath")

/-- The input that holds the first step of a sampler. -/
def usualStartInput : String := "start_at_step"

/-- Whether a value is the number zero. -/
def isZero : Json → Bool
  | .int i => i = 0
  | .bool b => !b
  | .float x => x.magnitude = 0
  | _ => false

/-- The path of a sampler. -/
def samplerPath (startInput : String) (sampler : Node) : NoisePath :=
  if ((sampler.literal? startInput).map isZero).getD false then .high else .low

/-- How the paths of a node are told: any rule that looks at the workflow and the id of the node. -/
structure Classifier where
  /-- The paths that a node feeds. -/
  classify : Graph → String → List NoisePath

namespace Classifier

/-- By the first step of the samplers of a class that the node feeds. -/
def startStep (samplerClass startInput : String) : Classifier where
  classify g id :=
    (((g.ofType samplerClass).filter fun n => (n.link? "model").any fun l => l.source = id).map
      (samplerPath startInput)).eraseDups

/-- By a table of node ids. -/
def table (paths : List (String × List NoisePath)) : Classifier where
  classify _ id := (Entries.get? paths id).getD []

/-- The classifier that is used where none is given. -/
def usual (cfg : CompilerSettings) : Classifier :=
  startStep cfg.advancedSamplerClassType usualStartInput

end Classifier

end NodeFlow
