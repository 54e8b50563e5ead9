import NodeFlow.Graph.Document
import NodeFlow.Layout
import NodeFlow.Log.Event
/-!
# From layouts to workflows

Every ordinary node of a layout becomes a node of the workflow. The values
of its widgets are matched with the widgets its class declares: in the same
order, except that a token after a seed, which belongs to the editor only,
is passed over. A slot is connected to the node its link starts at, through
any reroutes. Connections to nodes that the workflow lacks are left out. A
node belongs to the groups whose boxes contain its place. Ids become texts,
and so do the contents of notes; one that is too long to be written ends the
import.
-/

namespace NodeFlow.Layout

/-! ## Widgets -/

/-- Whether a widget belongs to the editor and not to the node. -/
def isControl (name : String) : Bool := Text.startsWith name "control_"

/-- The tokens that an editor saves behind a seed. -/
def controlTokens : List String := ["fixed", "increment", "decrement", "randomize"]

/-- Whether a value is a token of the editor. -/
def isControlToken : Json → Bool
  | .str s => controlTokens.contains s
  | _ => false

/-- What is left of the values behind a seed. -/
def dropToken : List Json → List Json
  | [] => []
  | v :: rest => if isControlToken v then rest else v :: rest

/-- Writes a value as a literal; null leaves the input as it is. -/
def writeValue (inputs : Dict InputValue) (name : String) (v : Json) : Dict InputValue :=
  if v = .null then inputs else inputs.insert name (.literal v)

/-- Matches values with widgets, one by one. -/
def placeValues : List InputSpec → List Json → Dict InputValue → Dict InputValue
  | [], _, inputs => inputs
  | _ :: _, [], inputs => inputs
  | w :: ws, v :: vs, inputs =>
    if isControl w.name then placeValues ws vs inputs
    else
      placeValues ws (if seedInputs.contains w.name then dropToken vs else vs)
        (writeValue inputs w.name v)

/-- Writes the values that are given under the names of widgets. -/
def placeNamed (ws : List InputSpec) (values : Fields) (inputs : Dict InputValue) :
    Dict InputValue :=
  values.foldl (fun ins e =>
    if (ws.any fun w => w.name = e.1) && !isControl e.1 then writeValue ins e.1 e.2 else ins) inputs

/-- The literals of a node, where its class is known. -/
def widgetInputs (t : NodeType) : Widgets → Dict InputValue
  | .listed values => placeValues t.widgets values .empty
  | .named values => placeNamed t.widgets values .empty
  | .other _ => .empty

/-- Whether there are values. -/
def Widgets.isPresent : Widgets → Bool
  | .listed values => !values.isEmpty
  | .named values => !values.isEmpty
  | .other present => present

/-! ## Links -/

/-- The largest number of links that are followed from a slot. -/
def maxHops : Nat := 64

/-- The output that a link starts at, through reroutes, while a number of links may still be
followed. Those that were followed are remembered, and none of them is followed again. A reroute
passes on the link of its first slot. -/
def follow (l : Layout) : Nat → List Int → Int → Except Fault (Option Wire)
  | 0, _, _ => .ok none
  | hops + 1, seen, link =>
    match l.wires.get? (idText link) with
    | none => .ok none
    | some wire =>
      if seen.contains link then .ok none
      else
        match l.items.get? wire.source with
        | none => .ok none
        | some item =>
          if item.isReroute then
            match item.slots with
            | .error e => .error e
            | .ok slots =>
              match slots.head?.bind Slot.link with
              | some next => follow l hops (link :: seen) next
              | none => .ok none
          else .ok (some wire)

/-- The output that a link starts at, through reroutes. -/
def sourceOf (l : Layout) (link : Int) : Except Fault (Option Wire) := l.follow maxHops [] link

/-- The output that a link starts at as a connection has it: the id of its node as text. -/
def linkOf (l : Layout) (link : Int) : Except Fault (Option Link) := do
  match ← l.sourceOf link with
  | some wire => return some ⟨← textOfInteger wire.number, wire.output⟩
  | none => return none

/-- Connects the slots of a node that have a name and a link. -/
def connectSlots (l : Layout) : List Slot → Dict InputValue → Except Fault (Dict InputValue)
  | [], inputs => .ok inputs
  | slot :: rest, inputs =>
    match slot.name, slot.link with
    | some name, some link =>
      match l.linkOf link with
      | .error e => .error e
      | .ok (some source) => connectSlots l rest (inputs.insert name source.toInput)
      | .ok none => connectSlots l rest inputs
    | _, _ => connectSlots l rest inputs

/-! ## Nodes -/

/-- A node of the workflow with its place on the canvas. -/
structure Placed where
  node : Node
  place : Option Point

/-- Whether the values of a node are lost as its class is not known. -/
def losesValues (schema : Schema) (i : Item) : Bool :=
  !schema.has i.type && i.widgets.isPresent

/-- Writes the id of a node into the warning about values that are lost, where some are. -/
def checkLoss (schema : Schema) (i : Item) : Except Fault Unit :=
  if losesValues schema i then (textOfInteger i.id).map fun _ => () else .ok ()

/-- What an ordinary node of the layout becomes. -/
def convert (l : Layout) (schema : Schema) (i : Item) : Except Fault Placed := do
  checkLoss schema i
  let known := schema.get? i.type
  let literals := match known with
    | some t => widgetInputs t i.widgets
    | none => .empty
  let inputs ← connectSlots l (← i.slots) literals
  let id ← textOfInteger i.id
  let place ← i.place
  return {
    node := {
      id := id, classType := i.type, inputs := inputs
      title := i.title.filter (· ≠ i.type), mode := i.mode
      outputs := (known.map NodeType.outputs).getD [] }
    place := place }

/-- The nodes that become nodes of the workflow. -/
def ordinary (l : Layout) : List Item := l.items.values.filter Item.isOrdinary

/-- The text of a note. -/
def noteText : Widgets → Except Fault String
  | .listed (.null :: _) => .ok ""
  | .listed (v :: _) => textOf v
  | _ => .ok ""

/-- What a node that holds text becomes. -/
def toNote (i : Item) : Except Fault Note :=
  (noteText i.widgets).map fun content => ⟨.int i.id, i.title.getD "Note", content⟩

/-- The nodes that become nodes or notes of the workflow. -/
def converted (l : Layout) : List Item :=
  l.items.values.filter fun i => i.type ≠ "" && !i.isReroute

/-- What a node of the layout becomes. -/
def convertItem (l : Layout) (schema : Schema) (i : Item) : Except Fault (Note ⊕ Placed) :=
  if i.isNote then (toNote i).map .inl else (l.convert schema i).map .inr

/-- Removes the connections to nodes that are not there. -/
def dropDangling (present : List String) (n : Node) : Node :=
  { n with inputs := n.inputs.filter fun _ v =>
      match v with
      | .connection source _ => present.contains source
      | _ => true }

/-- The groups whose boxes contain nodes. -/
def groups (placed : List Placed) : List Frame → Except Fault (List Group)
  | [] => .ok []
  | f :: rest =>
    match f.box with
    | .error e => .error e
    | .ok none => groups placed rest
    | .ok (some box) =>
      let members := (placed.filter fun p => p.place.any box.contains).map fun p => p.node.id
      (groups placed rest).map fun gs =>
        if members.isEmpty then gs else ⟨f.id, f.title, members⟩ :: gs

/-- The workflow of a layout. -/
def toGraph (l : Layout) (schema : Schema) : Except Fault Graph := do
  let parts ← l.converted.mapM (l.convertItem schema)
  let placed := parts.filterMap Sum.getRight?
  let present := placed.map fun p => p.node.id
  let groups ← groups placed l.frames
  return {
    nodes := .ofList (placed.map fun p => (p.node.id, dropDangling present p.node))
    groups := groups, notes := parts.filterMap Sum.getLeft? }

/-- The warnings about values that are lost. -/
def warnings (l : Layout) (schema : Schema) : List String :=
  (l.ordinary.filter (losesValues schema)).map fun i =>
    s!"Node \"{i.type}\" (#{idText i.id}): inputs could not be fully mapped"

/-- What is reported as values of a node are lost, unless its id cannot be written. -/
def lossEvents (schema : Schema) (i : Item) : List Log.Event :=
  if i.isOrdinary && losesValues schema i && (textOfInteger i.id).isOk then
    [Log.note .warning .layout s!"No schema for {i.type} (#{idText i.id}), widget values dropped"]
  else []

/-- What is reported while nodes are converted, up to one that cannot be. -/
def conversionEvents (l : Layout) (schema : Schema) : List Item → List Log.Event
  | [] => []
  | i :: rest =>
    lossEvents schema i ++
      (if (l.convertItem schema i).isOk then conversionEvents l schema rest else [])

/-- What is reported about the workflow of a layout. -/
def summaryEvents (g : Graph) : List Log.Event :=
  [Log.note .info .layout
    (s!"Imported layout workflow: {g.size} nodes, {g.groups.length} groups, " ++
      s!"{g.notes.length} notes")]

end Layout

/-- A workflow that was imported, with warnings about what was lost. -/
structure Imported where
  graph : Graph
  warnings : List String := []

namespace Imported

/-- The text of the workflow. -/
def content (r : Imported) : String := r.graph.text (some 2)

/-- Imports the entries of a layout document. -/
def ofLayoutFields (document : Fields) (schema : Schema) : Log.Traced Imported := do
  let imported ← Log.Traced.timing .layout "layout_import"
    (match Layout.ofFields document with
      | .error e => .fail e
      | .ok l =>
        ⟨(l.toGraph schema).map fun g => ⟨g, l.warnings schema⟩,
          l.conversionEvents schema l.converted⟩)
  Log.Traced.tell (Layout.summaryEvents imported.graph)
  return imported

/-- Imports a layout document. -/
def ofLayout (source : Json) (schema : Schema) : Log.Traced Imported := do
  let document ← Log.Traced.ofExcept (documentFields source)
  ofLayoutFields document schema

/-- Imports a document of either kind. -/
def ofDocument (source : Json) (schema : Schema) : Log.Traced Imported := do
  let document ← Log.Traced.ofExcept (documentFields source)
  if isLayout document then ofLayoutFields document schema
  else
    let g ← Log.Traced.ofExcept (Graph.ofEntries document (some schema))
    return { graph := g }

end Imported

end NodeFlow
