import NodeFlow.Graph
/-!
# Positive and negative prompts

Whether an encoder carries the positive or the negative prompt shows where
its output ends up. An edge is decisive if the name of its input tells a
polarity. The search goes breadth first over the targets of the edges: it is
a loop over a queue of nodes, each with the number of edges that were
followed to it, and a list of the nodes that were ever put there. It passes
nodes that may hand conditioning on, and gives up behind a number of edges.
-/

namespace NodeFlow

/-- What a prompt asks for or asks to avoid. -/
inductive Polarity where
  | positive
  | negative
  deriving DecidableEq

namespace Polarity

/-- The name of a polarity. -/
def name : Polarity → String
  | .positive => "positive"
  | .negative => "negative"

/-- The polarity that an input tells; a single conditioning counts as positive. -/
def ofInput? (input : String) : Option Polarity :=
  match Text.lower input with
  | "positive" => some .positive
  | "negative" => some .negative
  | "conditioning" => some .positive
  | _ => none

end Polarity

/-- The type of what an encoder produces. -/
def conditioningType : String := "CONDITIONING"

/-- The number of edges that are followed at most, one behind the other. -/
def traceDepth : Nat := 10

namespace Graph

/-- The polarity of the first decisive edge that starts at a node. -/
def polarityAt? (g : Graph) (id : String) : Option Polarity :=
  (g.outgoing id).findSome? fun e => Polarity.ofInput? e.input

/-- Whether conditioning may pass through a node. -/
def isPassable (g : Graph) (id : String) : Bool :=
  match g.node? id with
  | some n => n.outputs.isEmpty || n.hasOutputType conditioningType
  | none => false

end Graph

/-- Where the search for a decisive edge is. -/
structure Tracing where
  /-- The nodes that are still to be looked at, each with the number of edges that were followed
  to it. -/
  queue : List (String × Nat)
  /-- The nodes that were put into the queue. -/
  visited : List String

namespace Tracing

/-- The search begins with one node. -/
def start (id : String) : Tracing := ⟨[(id, 0)], [id]⟩

/-- Puts a node at the end of the queue, if it may be passed and was not put there before. -/
def visit (g : Graph) (depth : Nat) (t : Tracing) (id : String) : Tracing :=
  if t.visited.contains id || !g.isPassable id then t
  else ⟨t.queue ++ [(id, depth)], t.visited ++ [id]⟩

/-- Looks at the edges of the first node in the queue. A decisive one ends the search; otherwise
their targets are visited, unless too many edges were followed before. -/
def step (g : Graph) (t : Tracing) : Except Polarity Tracing :=
  match t.queue with
  | [] => .ok t
  | (id, depth) :: rest =>
    match g.polarityAt? id with
    | some p => .error p
    | none =>
      if traceDepth ≤ depth then .ok { t with queue := rest }
      else
        .ok (((g.outgoing id).map Edge.target).foldl (visit g (depth + 1)) { t with queue := rest })

/-- Goes on until the queue is empty, for a number of steps at most. -/
def run (g : Graph) : Nat → Tracing → Except Polarity Tracing
  | 0, t => .ok t
  | steps + 1, t => if t.queue.isEmpty then .ok t else (t.step g).bind (run g steps)

end Tracing

/-- The polarity of what a node produces, if its edges lead to a decisive one. No node is looked at
twice. -/
def Graph.trace (g : Graph) (id : String) : Option Polarity :=
  match (Tracing.start id).run g (g.size + 1) with
  | .error p => some p
  | .ok _ => none

end NodeFlow
