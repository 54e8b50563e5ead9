import NodeFlow.Graph.Document
import NodeFlow.Log.Event
import NodeFlow.Wiring
/-!
# Resolving bypassed nodes

A bypassed node is left out of a workflow, and each input it fed is wired to
what the node itself was fed with. The type wanted at the input is told from
its name; at a bypassed node the walk goes on along the first input whose
name tells a type that agrees with it. The walk ends at a node that is not
bypassed, after at most as many hops as the limit allows. An input for which
it ends nowhere is removed with a warning.

`Graph.resolution` settles one input; the resulting graph, the warnings and
the events are all read off these resolutions.
-/

namespace NodeFlow

namespace Bypass

/-- Where a walk through bypassed nodes ends. -/
inductive WalkEnd where
  /-- At a link that starts at a node that is not bypassed. -/
  | reached (link : Link)
  /-- Nowhere: a bypassed node has no fitting input, or a link starts at no node. -/
  | lost
  /-- At a node where the limit was used up. -/
  | cut (node : String)
  deriving DecidableEq

/-- What becomes of an input that a bypassed node feeds. -/
inductive Resolution where
  /-- It is wired to another source. -/
  | rewired (link : Link)
  /-- It is removed, as its name tells no type. -/
  | untyped
  /-- It is removed, as no source of its type was found; the walk may have been cut at a node. -/
  | unresolved (type : String) (cutAt : Option String)
  deriving DecidableEq

/-- The link that a resolved input is left with. -/
def Resolution.link? : Resolution → Option Link
  | .rewired link => some link
  | _ => none

end Bypass

open Bypass

namespace Graph

/-- Whether the node under a key is bypassed. -/
def isBypassedAt (g : Graph) (id : String) : Bool :=
  match g.node? id with
  | some n => n.isBypassed
  | none => false

/-- The keys of the bypassed nodes, in order. -/
def bypassedIds (g : Graph) : List String :=
  (g.nodes.entries.filter fun e => e.2.isBypassed).map Prod.fst

/-- The link that a node passes on where a type is wanted: that of its first input whose name
tells a type that agrees with it. -/
def passedOn? (g : Graph) (id type : String) : Option Link :=
  (g.node? id).bind fun n =>
    (n.links.find? fun l =>
      match typeOfName? l.1 with
      | some told => isCompatible (some told) (some type)
      | none => false).map Prod.snd

/-- Walks from a link back through bypassed nodes. Each link looked at costs one of the given
steps, the one that is reached included. -/
def walk (g : Graph) (type : String) : Nat → Link → WalkEnd
  | 0, l => .cut l.source
  | n + 1, l =>
    if g.isBypassedAt l.source then
      match g.passedOn? l.source type with
      | some next => g.walk type n next
      | none => .lost
    else if g.has l.source then .reached l
    else .lost

/-- What becomes of an input that a bypassed node feeds by a link. -/
def resolution (g : Graph) (limit : Int) (input : String) (l : Link) : Resolution :=
  match typeOfName? input with
  | none => .untyped
  | some type =>
    match g.walk type (limit + 1).toNat l with
    | .reached link => .rewired link
    | .lost => .unresolved type none
    | .cut node => .unresolved type (some node)

/-- The inputs of a node that bypassed nodes feed, with what becomes of them. -/
def resolutions (g : Graph) (limit : Int) (n : Node) : List (String × Link × Resolution) :=
  if g.isBypassedAt n.id then []
  else
    (n.links.filter fun l => g.isBypassedAt l.2.source).map fun l =>
      (l.1, l.2, g.resolution limit l.1 l.2)

/-- What an input holds once it is resolved, if it is kept. -/
def resolveInput (g : Graph) (limit : Int) (input : String) : InputValue → Option InputValue
  | .connection source output =>
    if g.isBypassedAt source then
      (g.resolution limit input ⟨source, output⟩).link?.map Link.toInput
    else some (.connection source output)
  | v => some v

/-- A node with every input that a bypassed node feeds resolved. -/
def resolveNode (g : Graph) (limit : Int) (n : Node) : Node :=
  if g.isBypassedAt n.id then n
  else { n with inputs := n.inputs.filterMap (g.resolveInput limit) }

end Graph

namespace Bypass

/-- The warning about an input that is removed. -/
def warning? (n : Node) (input : String) (l : Link) : Resolution → Option String
  | .rewired _ => none
  | .untyped =>
    some (s!"Node #{n.id} ({n.classType}): input '{input}' was connected to bypassed node " ++
      s!"#{l.source} and its type could not be inferred; connection removed")
  | .unresolved type _ =>
    some (s!"Node #{n.id} ({n.classType}): no {type} source found through bypassed node " ++
      s!"#{l.source}; connection removed")

/-- What is reported about an input that a bypassed node feeds. The limit is shown however many
digits it has. -/
def inputEvents (limit : Int) (n : Node) (input : String) (l : Link) (r : Resolution) :
    List Log.Event :=
  let cut := match r with
    | .unresolved _ (some node) =>
      [Log.note .warning .bypass s!"Bypass chain exceeded {limit} hops at node {node}"]
    | _ => []
  let outcome := match r with
    | .rewired link =>
      [Log.note .debug .bypass s!"Rewired {n.id}.{input}: {l.source} -> {link.source}"]
    | _ => (warning? n input l r).toList.map (Log.note .warning .bypass)
  cut ++ outcome

/-- A workflow without bypassed nodes, and what it took to get there. -/
structure Result where
  graph : Graph
  warnings : List String
  /-- The keys of the nodes that were removed, in order. -/
  removed : List String

/-- Whether anything was bypassed. -/
def Result.changed (r : Result) : Bool := !r.removed.isEmpty

end Bypass

namespace Graph

/-- The groups without bypassed members; one left without members is dropped. -/
def liveGroups (g : Graph) : List Group :=
  (g.groups.map fun gr =>
    { gr with members := gr.members.filter fun m => !g.isBypassedAt m }).filter
      fun gr => !gr.members.isEmpty

/-- The graph without its bypassed nodes. -/
def withoutBypassed (g : Graph) (limit : Int) : Graph :=
  { g with
    nodes := (g.nodes.filter fun _ n => !n.isBypassed).map fun _ n => g.resolveNode limit n
    groups := g.liveGroups }

/-- Removes the bypassed nodes and rewires what they fed. A graph without any is left as it is. -/
def resolveBypassed (g : Graph) (limit : Int) : Bypass.Result :=
  if g.bypassedIds.isEmpty then ⟨g, [], []⟩
  else
    { graph := g.withoutBypassed limit
      warnings := g.nodeList.flatMap fun n =>
        (g.resolutions limit n).filterMap fun r => warning? n r.1 r.2.1 r.2.2
      removed := g.bypassedIds }

/-- What is reported while bypassed nodes are removed, the limit of hops at any length. -/
def bypassEvents (g : Graph) (limit : Int) : List Log.Event :=
  if g.bypassedIds.isEmpty then []
  else
    (g.nodeList.flatMap fun n =>
      (g.resolutions limit n).flatMap fun r => inputEvents limit n r.1 r.2.1 r.2.2) ++
    [Log.note .info .bypass s!"Resolved {g.bypassedIds.length} bypassed nodes"]

end Graph

/-- Removes the bypassed nodes of a workflow given as text. A text without any, and one that is
no workflow document, comes back as it is. -/
def resolveBypassedText (text : String) (limit : Int) : Log.Traced (String × List String) :=
  match Graph.read (.str text) none with
  | .error (.reported report) =>
    .reporting [Log.note .warning .bypass ("Bypass resolution skipped: " ++ report.message)]
      (text, [report.message])
  | .error e => .fail e
  | .ok g =>
    let r := g.resolveBypassed limit
    .reporting (g.bypassEvents limit)
      (if r.changed then (r.graph.text (some 2), r.warnings) else (text, r.warnings))

end NodeFlow
