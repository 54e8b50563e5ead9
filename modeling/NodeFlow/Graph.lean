import NodeFlow.Schema
/-!
# Workflow graphs

A workflow is a graph of nodes. A node has a class type and named inputs;
an input holds a literal value, a connection to an output of some node, or
an open slot that waits for one. The nodes are kept under keys, in order;
`WellKeyed` says that each node stands under its own id. Groups and notes
go along without being executed, and so do the entries of a document that
describe no node.
-/

namespace NodeFlow

/-- What an input holds. -/
inductive InputValue where
  /-- A value of its own. -/
  | literal (value : Json)
  /-- The output with a given index of the node with a given id. -/
  | connection (source : String) (output : Int)
  /-- Nothing yet, but something of the given type is wanted. -/
  | slot (type : String)
  deriving DecidableEq

namespace InputValue

/-- The source and output of a connection. -/
def connection? : InputValue → Option (String × Int)
  | .connection source output => some (source, output)
  | _ => none

/-- The value of a literal. -/
def literal? : InputValue → Option Json
  | .literal value => some value
  | _ => none

theorem literal?_eq_some_iff {v : InputValue} {w : Json} :
    v.literal? = some w ↔ v = .literal w := by
  cases v <;> simp [literal?]

/-- Whether the input is fed by a link or waits for one. -/
def isPort : InputValue → Bool
  | .literal _ => false
  | _ => true

end InputValue

/-- A connection seen from the node it starts at. -/
structure Link where
  source : String
  output : Int
  deriving DecidableEq

/-- A link as an input value. -/
def Link.toInput (l : Link) : InputValue := .connection l.source l.output

/-- A node of a workflow. -/
structure Node where
  id : String
  classType : String
  inputs : Dict InputValue := .empty
  title : Option String := none
  /-- How the node takes part in execution: see `activeMode` and the others. -/
  mode : Int := 0
  /-- The outputs, where they are known. -/
  outputs : List Port := []
  deriving DecidableEq

/-- The names of the inputs that hold a seed. -/
def seedInputs : List String := ["seed", "noise_seed"]

/-- The mode of a node that is executed. -/
def activeMode : Int := 0

/-- The mode of a node that is not executed. -/
def mutedMode : Int := 2

/-- The mode of a node that is skipped, with its inputs passed on to its consumers. -/
def bypassedMode : Int := 4

namespace Node

/-- The title that a node shows. -/
def displayTitle (n : Node) : String :=
  match n.title with
  | some t => if t = "" then n.classType else t
  | none => n.classType

/-- Whether a node is skipped with its inputs passed on. -/
def isBypassed (n : Node) : Bool := n.mode = bypassedMode

/-- Whether a node is not executed. -/
def isMuted (n : Node) : Bool := n.mode = mutedMode

/-- The connected inputs with their links, in order. -/
def links (n : Node) : List (String × Link) :=
  n.inputs.entries.filterMap fun e =>
    match e.2 with
    | .connection source output => some (e.1, ⟨source, output⟩)
    | _ => none

/-- The link of an input. -/
def link? (n : Node) (name : String) : Option Link :=
  (n.inputs.get? name).bind fun v => v.connection?.map fun c => ⟨c.1, c.2⟩

/-- The literal value of an input. -/
def literal? (n : Node) (name : String) : Option Json :=
  (n.inputs.get? name).bind InputValue.literal?

/-- Whether an input is there, whatever it holds. -/
def hasInput (n : Node) (name : String) : Bool := n.inputs.contains name

/-- Whether an input holds a literal. -/
def hasLiteral (n : Node) (name : String) : Bool := (n.literal? name).isSome

/-- Whether a node has an output of a type, whatever the case of its letters. -/
def hasOutputType (n : Node) (type : String) : Bool :=
  n.outputs.any fun o => Text.upper o.type = Text.upper type

/-- Writes an input; one that is there keeps its position. -/
def setInput (n : Node) (name : String) (value : InputValue) : Node :=
  { n with inputs := n.inputs.insert name value }

end Node

/-- A link together with the input it feeds. -/
structure Edge where
  source : String
  output : Int
  target : String
  input : String
  deriving DecidableEq

/-- A named set of nodes. -/
structure Group where
  id : Json
  title : String
  members : List String
  deriving DecidableEq

/-- Free text that goes along with a workflow. -/
structure Note where
  id : Json
  title : String
  content : String
  deriving DecidableEq

/-- A workflow. -/
structure Graph where
  nodes : Dict Node := .empty
  groups : List Group := []
  notes : List Note := []
  /-- Whether the document keeps its nodes in an object of their own. -/
  wrapped : Bool := true
  /-- The entries of the document that are neither nodes, groups nor notes. -/
  metadata : Dict Json := .empty
  deriving DecidableEq

namespace Graph

/-- The workflow without nodes. -/
def empty : Graph := {}

/-- Every node stands under its own id. -/
def WellKeyed (g : Graph) : Prop := ∀ e ∈ g.nodes.entries, e.2.id = e.1

instance (g : Graph) : Decidable g.WellKeyed :=
  inferInstanceAs (Decidable (∀ e ∈ g.nodes.entries, e.2.id = e.1))

/-- The nodes in order. -/
def nodeList (g : Graph) : List Node := g.nodes.values

/-- The number of nodes. -/
def size (g : Graph) : Nat := g.nodes.size

/-- The node under a key. -/
def node? (g : Graph) (id : String) : Option Node := g.nodes.get? id

/-- Whether there is a node under a key. -/
def has (g : Graph) (id : String) : Bool := g.nodes.contains id

/-- The edges in the order of their nodes and inputs. -/
def edges (g : Graph) : List Edge :=
  g.nodeList.flatMap fun n => n.links.map fun l => ⟨l.2.source, l.2.output, n.id, l.1⟩

/-- The edges that start at a node. -/
def outgoing (g : Graph) (id : String) : List Edge := g.edges.filter fun e => e.source = id

/-- The edges that end at a node. -/
def incoming (g : Graph) (id : String) : List Edge := g.edges.filter fun e => e.target = id

/-- The nodes of a class type, in order. -/
def ofType (g : Graph) (classType : String) : List Node :=
  g.nodeList.filter fun n => n.classType = classType

/-- The class types in use, each once, in the order of their first nodes. -/
def classTypes (g : Graph) : List String := (g.nodeList.map Node.classType).eraseDups

/-- Writes a node under its id; one that is there keeps its position. -/
def put (g : Graph) (n : Node) : Graph := { g with nodes := g.nodes.insert n.id n }

/-- Changes the node under a key, if there is one. -/
def modify (g : Graph) (id : String) (f : Node → Node) : Graph :=
  { g with nodes := g.nodes.modify id f }

/-- Changes every node. -/
def mapNodes (g : Graph) (f : Node → Node) : Graph :=
  { g with nodes := g.nodes.map fun _ n => f n }

/-- Changes every node, in order, unless one cannot be changed. -/
def traverseNodes {ε : Type} (g : Graph) (f : Node → Except ε Node) : Except ε Graph :=
  (g.nodes.traverse fun _ n => f n).map fun nodes => { g with nodes }

end Graph

end NodeFlow
