import NodeFlow.Graph.Document
import NodeFlow.Log.Event
import NodeFlow.Modifier.Chain
import NodeFlow.Modifier.NoisePath
/-!
# Splicing chains into workflows

A chain becomes a row of nodes with fresh ids, each fed by the one before.
`Graph.splice` appends such a row behind a node and wires given inputs to
its end. A fresh chain goes between the model source and everything that its
first output feeds; an extension goes between the modifier that feeds a
model-sampling node on a noise path and that node. Where the workflow has no
such place it is left as it is.
-/

namespace NodeFlow

/-- The node that applies a selection to the model it is fed with. -/
def modifierNode (classType id : String) (s : Selection) (source : String) (output : Int) : Node :=
  { id := id, classType := classType
    inputs := .ofList [("lora_name", .literal (.str s.name)),
      ("strength_model", .literal (.float s.strength)),
      ("model", .connection source output)] }

namespace Graph

/-- Appends the nodes of a chain, numbered from a number on, behind a node; the id of the last
one comes along. A number that is too long to be written is a failure. -/
def appendChain (cfg : CompilerSettings) :
    Graph → Chain → String → Int → Except Fault (Graph × String)
  | g, [], source, _ => .ok (g, source)
  | g, s :: rest, source, number => do
    let id ← textOfInteger number
    appendChain cfg (g.put (modifierNode cfg.modifierClassType id s source 0)) rest id (number + 1)

/-- Writes an input of the node under a key. -/
def setInput (g : Graph) (id input : String) (value : InputValue) : Graph :=
  g.modify id fun n => n.setInput input value

/-- Puts a chain behind a node and wires the given inputs to its end. -/
def splice (cfg : CompilerSettings) (g : Graph) (chain : Chain) (source : String)
    (targets : List (String × String)) : Except Fault Graph := do
  let first ← g.nextId cfg.injectedIdFloor
  let (longer, last) ← g.appendChain cfg chain source first
  return targets.foldl (fun h t => h.setInput t.1 t.2 (.connection last 0)) longer

/-! ## Fresh chains -/

/-- The model source: the first node of the most wanted class type that is there. -/
def modelSource? (cfg : CompilerSettings) (g : Graph) : Option Node :=
  cfg.modelSourceClassTypes.findSome? fun c => (g.ofType c).head?

/-- The inputs fed by the first output of a node, with the ids of their nodes. -/
def consumers (g : Graph) (source : String) : List (String × String) :=
  g.nodeList.flatMap fun n =>
    (n.links.filter fun l => l.2.source = source && l.2.output = 0).map fun l => (n.id, l.1)

/-- Puts a chain between the model source and its consumers; there is no result where there is
nothing to do. -/
def inject (cfg : CompilerSettings) (g : Graph) (chain : Chain) : Except Fault (Option Graph) :=
  if chain.isEmpty then .ok none
  else
    match g.modelSource? cfg with
    | none => .ok none
    | some source =>
      let targets := g.consumers source.id
      if targets.isEmpty then .ok none
      else (g.splice cfg chain source.id targets).map some

/-- What is reported where a chain is put behind the model source. -/
def injectEvents (cfg : CompilerSettings) (g : Graph) (chain : Chain) : List Log.Event :=
  if chain.isEmpty then []
  else
    match g.modelSource? cfg with
    | none =>
      [Log.note .debug .chains "No model source found, modifier chain not injected"]
    | some source =>
      if (g.consumers source.id).isEmpty then
        [Log.note .debug .chains
          s!"Model source {source.id} has no consumers, modifier chain not injected"]
      else
        [Log.note .info .chains
          s!"Injected {chain.length} modifier nodes after {source.classType} #{source.id}"]

/-! ## Extensions -/

/-- The modifier that feeds the model input of a node. -/
def feedingModifier? (cfg : CompilerSettings) (g : Graph) (n : Node) : Option Node :=
  ((n.link? "model").bind fun l => g.node? l.source).filter fun m =>
    m.classType = cfg.modifierClassType

/-- The first model-sampling node on a path that a modifier feeds, and that modifier. -/
def extensionSite? (cfg : CompilerSettings) (g : Graph) (path : NoisePath) (c : Classifier) :
    Option (Node × Node) :=
  (g.ofType cfg.samplingClassType).findSome? fun n =>
    (g.feedingModifier? cfg n).bind fun m =>
      if (c.classify g n.id).contains path then some (n, m) else none

/-- Puts a chain between a modifier and the model-sampling node it feeds on a path; there is no
result where there is nothing to do. -/
def extend (cfg : CompilerSettings) (g : Graph) (chain : Chain) (path : NoisePath)
    (c : Classifier) : Except Fault (Option Graph) :=
  if chain.isEmpty then .ok none
  else
    match g.extensionSite? cfg path c with
    | none => .ok none
    | some (sampling, modifier) =>
      (g.splice cfg chain modifier.id [(sampling.id, "model")]).map some

/-- What is reported where a chain is extended. -/
def extendEvents (cfg : CompilerSettings) (g : Graph) (chain : Chain) (path : NoisePath)
    (c : Classifier) : List Log.Event :=
  if chain.isEmpty then []
  else
    match g.extensionSite? cfg path c with
    | none =>
      [Log.note .debug .chains
        s!"No {path.name}-noise sampling pattern found, chain not extended"]
    | some _ =>
      [Log.note .info .chains
        s!"Extended {path.name}-noise modifier chain by {chain.length} nodes"]

end Graph

end NodeFlow
