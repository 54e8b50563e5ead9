import NodeFlow.Bypass
import NodeFlow.Compiled
import NodeFlow.Mapping.Choice
import NodeFlow.Modifier.Splice
import NodeFlow.Request
import NodeFlow.Validation.Verdict
/-!
# Compiling workflows

Before a template is submitted, its placeholders are filled in, the seed and
the overrides are written, the chains of modifiers are put in, and the
bypassed nodes are resolved, in this order. The verdict is on the result.
Each pass is a function on graphs; `Submission.run` sequences them and
reports what they report.
-/

namespace NodeFlow

/-- What a compilation depends on besides the workflow. -/
structure Submission where
  cfg : CompilerSettings
  schema : Schema
  request : Request
  classifier : Classifier
  /-- The seed to write if one has to be drawn. -/
  drawn : Int := 0

namespace Submission

open Log (Traced)

/-- Puts the chain of the request behind the model source. -/
def inject (s : Submission) (g : Graph) : Traced Graph :=
  .onSuccess (g.injectEvents s.cfg s.request.chain)
    ((g.inject s.cfg s.request.chain).map fun r => r.getD g)

/-- Puts a chain on a noise path. -/
def extend (s : Submission) (g : Graph) (chain : Chain) (path : NoisePath) : Traced Graph :=
  .onSuccess (g.extendEvents s.cfg chain path s.classifier)
    ((g.extend s.cfg chain path s.classifier).map fun r => r.getD g)

/-- Writes the seed of the request, if it has one. -/
def seeded (s : Submission) (g : Graph) : Graph :=
  match s.request.seedToWrite s.drawn with
  | some seed => g.withSeed (.int seed)
  | none => g

/-- Writes the seed and the overrides of the request. -/
def adjusted (s : Submission) (g : Graph) : Graph := (s.seeded g).override s.request.overrides

/-- The template with the values, the seed and the overrides of the request. -/
def filled (s : Submission) (g : Graph) : Traced Graph := do
  let h ← .onSuccess (g.fillEvents s.request.values) (g.fill s.request.values)
  .reporting ((s.seeded h).overrideEvents s.request.overrides) (s.adjusted h)

/-- Fills in a template and puts the chains in. -/
def assemble (s : Submission) (g : Graph) : Traced Graph := do
  let injected ← s.inject (← s.filled g)
  let high ← s.extend injected s.request.highChain .high
  s.extend high s.request.lowChain .low

/-- Runs all passes. -/
def run (s : Submission) (g : Graph) : Traced Bypass.Result := do
  let assembled ← s.assemble g
  Traced.tell (assembled.bypassEvents s.cfg.bypassMaxDepth)
  return assembled.resolveBypassed s.cfg.bypassMaxDepth

/-- The heading over the errors of a workflow that must be valid. -/
def strictHeading : String := "Prepared workflow is invalid"

/-- Compiles a template. If the result must be valid, errors in its structure are a failure. -/
def compile (s : Submission) (g : Graph) (strict : Bool) : Traced Compiled := do
  let r ← Traced.timing .workflows "prepare_workflow" (s.run g)
  let errors ← Traced.ofExcept (r.graph.structureTexts s.schema)
  requireSound (if strict then errors else []) strictHeading
  let compiled ← Traced.ofExcept
    (Compiled.ofGraph r.graph (g.fillWarnings s.request.values ++ r.warnings) errors)
  Traced.tell [Log.note .info .workflows
    s!"Prepared workflow {compiled.hash}: {r.graph.size} nodes"]
  return compiled

/-- Compiles a template given as a document. -/
def compileDocument (s : Submission) (source : Json) (strict : Bool) : Traced Compiled := do
  let g ← Traced.ofExcept (Graph.read source none)
  s.compile g strict

end Submission

/-! ## Analysis -/

/-- The report about a workflow whose category cannot be told. -/
def unknownCategory : Report :=
  .invalid "Could not determine the workflow type"
    [.str "No model loader, image input or video output node found"] []

/-- Finds the fields of a workflow, for the category that is given or else the one it suggests. -/
def analyzeFields (g : Graph) (schema : Schema) (category : Option Category) :
    Log.Traced Mapping :=
  match category.or (Category.guess? g.classTypes) with
  | none => .fail (.reported unknownCategory)
  | some c =>
    let m := Mapping.analyze g c schema
    .reporting m.analysisEvents m

end NodeFlow
