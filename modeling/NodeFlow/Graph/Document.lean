import NodeFlow.Fault
import NodeFlow.Graph
/-!
# Workflow documents

How a workflow is read from a document and written back. A document either
wraps its nodes in an object of their own or is itself the map of nodes. An
entry is a node if it is an object with a class type. An input is a
connection if it is a pair of an id and an integer, and a literal otherwise;
with a schema, link-only inputs that the document leaves out become open
slots. Ids, class types, titles and contents may be given as other values than
texts; an integer in them that is too long to be written is a failure. Writing
leaves out open slots, and modes and titles that say nothing.
-/

namespace NodeFlow

/-! ## Inputs -/

/-- The id that a value names, if it is a text or an integer. -/
def idOf? : Json → Except Fault (Option String)
  | .str s => .ok (some s)
  | .int i => (textOfInteger i).map some
  | _ => .ok none

/-- Reads an input: a pair of an id and an integer is a connection. -/
def InputValue.ofJson (v : Json) : Except Fault InputValue :=
  match v with
  | .arr [source, .int output] =>
    (idOf? source).map fun
      | some id => .connection id output
      | none => .literal v
  | _ => .ok (.literal v)

/-- Writes an input; an open slot is written as nothing. -/
def InputValue.toJson : InputValue → Json
  | .literal v => v
  | .connection source output => .arr [.str source, .int output]
  | .slot _ => .null

/-- What a node is written with for an input; an open slot is left out. -/
def InputValue.written? : InputValue → Option Json
  | .slot _ => none
  | v => some v.toJson

/-! ## Nodes -/

/-- Reads a mode; what is no integer means active. -/
def readMode : Json → Int
  | .int i => i
  | _ => activeMode

/-- The inputs of a node with an open slot for every link-only input that is missing. -/
def openSlots (inputs : Dict InputValue) (specs : List InputSpec) : Dict InputValue :=
  specs.foldl (fun ins spec =>
    if !ins.contains spec.name && spec.isLinkOnly then ins.insert spec.name (.slot spec.type)
    else ins) inputs

/-- Reads a title, which must be a text that is not empty. -/
def readTitle (fields : Fields) : Option String :=
  match Entries.get? fields "_meta" with
  | some (.obj about) => ((Entries.get? about "title").bind Json.str?).filter (· ≠ "")
  | _ => none

/-- A node with what a schema knows of its class: its outputs and its open slots. -/
def Node.completed (n : Node) (schema : Option Schema) : Node :=
  match schema.bind fun s => s.get? n.classType with
  | some t => { n with outputs := t.outputs, inputs := openSlots n.inputs t.inputs }
  | none => n

/-- What a node is given as its inputs. -/
def givenInputs (fields : Fields) : Dict Json :=
  match Entries.get? fields "inputs" with
  | some (.obj given) => .ofList given
  | _ => .empty

/-- Reads a node from the entries of its object. -/
def Node.ofFields (id : String) (fields : Fields) (schema : Option Schema) :
    Except Fault Node := do
  let classType ← textOf ((Entries.get? fields "class_type").getD (.str ""))
  let inputs ← (givenInputs fields).traverse fun _ v => InputValue.ofJson v
  let node : Node :=
    { id := id, classType := classType, inputs := inputs, title := readTitle fields
      mode := readMode ((Entries.get? fields "mode").getD (.int activeMode)) }
  return node.completed schema

/-- The title of a node, where it differs from its class type. -/
def Node.ownTitle? (n : Node) : Option String :=
  n.title.filter fun t => t ≠ "" && t ≠ n.classType

/-- A node as the entries of its object. -/
def Node.toFields (n : Node) : Fields :=
  [("class_type", .str n.classType),
    ("inputs", .obj (n.inputs.filterMap fun _ v => v.written?).entries)] ++
  (if n.mode ≠ activeMode then [("mode", .int n.mode)] else []) ++
  (n.ownTitle?.map fun t => ("_meta", Json.obj [("title", .str t)])).toList

/-- Writes a node. -/
def Node.toJson (n : Node) : Json := .obj n.toFields

/-! ## Groups and notes -/

/-- Whether a value can be the id of a member of a group. -/
def isMember : Json → Bool
  | .str _ => true
  | .int _ => true
  | .bool _ => true
  | _ => false

/-- The members that a value lists: the texts and integers of a list, the characters of a text,
the keys of an object. -/
def readMembers (v : Json) : Except Fault (List String) :=
  match v with
  | .arr items => (items.filter isMember).mapM textOf
  | .str s => .ok (s.toList.map Char.toString)
  | .obj fields => .ok (fields.map Prod.fst)
  | other => if other.isTruthy then .error .wrongType else .ok []

/-- Reads groups, counting from a number; what is no object is passed over. -/
def readGroups : Nat → List Json → Except Fault (List Group)
  | _, [] => .ok []
  | n, .obj fields :: rest => do
    let title ← textOf ((Entries.get? fields "title").getD (.str "Group"))
    let members ← readMembers ((Entries.get? fields "member_nodes").getD .null)
    let id := (Entries.get? fields "id").getD (.int n)
    return ⟨id, title, members⟩ :: (← readGroups (n + 1) rest)
  | n, _ :: rest => readGroups (n + 1) rest

/-- Reads notes, counting from a number; what is no object is passed over. -/
def readNotes : Nat → List Json → Except Fault (List Note)
  | _, [] => .ok []
  | n, .obj fields :: rest => do
    let title ← textOf ((Entries.get? fields "title").getD (.str "Note"))
    let content ← textOf ((Entries.get? fields "content").getD (.str ""))
    let id := (Entries.get? fields "id").getD (.int n)
    return ⟨id, title, content⟩ :: (← readNotes (n + 1) rest)
  | n, _ :: rest => readNotes (n + 1) rest

/-- Writes a group. -/
def Group.toJson (g : Group) : Json :=
  .obj [("id", g.id), ("title", .str g.title), ("member_nodes", .arr (g.members.map .str))]

/-- Writes a note. -/
def Note.toJson (n : Note) : Json :=
  .obj [("id", n.id), ("title", .str n.title), ("content", .str n.content)]

/-! ## Documents -/

/-- The keys of a document that have a meaning of their own. -/
def reservedKeys : List String := ["nodes", "groups", "notes"]

/-- The entries of an object that describes a node. -/
def nodeFields? (v : Json) : Option Fields :=
  v.fields?.filter fun fields => (Entries.get? fields "class_type").isSome

/-- The items of a list, or none of anything else. -/
def itemsOf (v : Option Json) : List Json := (v.bind Json.items?).getD []

namespace Graph

/-- Reads a workflow whose nodes are not in a list. -/
def ofEntries (document : Fields) (schema : Option Schema) : Except Fault Graph :=
  let inner : Option Fields := (Entries.get? document "nodes").bind Json.fields?
  let outside := (Dict.ofList document).filter fun key _ => !reservedKeys.contains key
  let candidates := match inner with
    | some nodes => Dict.ofList nodes
    | none => outside
  let metadata := match inner with
    | some _ => outside
    | none => outside.filter fun _ v => (nodeFields? v).isNone
  do
    let nodes ← (candidates.filterMap fun _ v => nodeFields? v).traverse fun key fields =>
      Node.ofFields key fields schema
    let groups ← readGroups 1 (itemsOf (Entries.get? document "groups"))
    let notes ← readNotes 1 (itemsOf (Entries.get? document "notes"))
    return { nodes, groups, notes, wrapped := inner.isSome, metadata }

/-- The workflow as the entries of a document. -/
def toFields (g : Graph) : Fields :=
  let nodes : Fields := g.nodes.entries.map fun e => (e.1, e.2.toJson)
  let base : Fields := if g.wrapped then [("nodes", .obj nodes)] else nodes
  let withGroups :=
    if g.groups.isEmpty then base else Entries.put base "groups" (.arr (g.groups.map Group.toJson))
  let withNotes :=
    if g.notes.isEmpty then withGroups
    else Entries.put withGroups "notes" (.arr (g.notes.map Note.toJson))
  g.metadata.entries.foldl (fun fs e =>
    if (Entries.get? fs e.1).isSome then fs else Entries.put fs e.1 e.2) withNotes

/-- The workflow as a document. -/
def toJson (g : Graph) : Json := .obj g.toFields

/-- The text of a workflow, indented by a number of blanks or on one line. -/
def text (g : Graph) (indent : Option Nat) : String := Json.write (.readable indent) g.toJson

end Graph

/-! ## Sources -/

/-- Why a text or value is no workflow document. -/
inductive DocumentError where
  /-- The text is not JSON. -/
  | notJson (error : Json.ReadError)
  /-- The value is neither a text nor an object. -/
  | notText (kind : String)
  /-- The text holds a value that is no object. -/
  | notObject (kind : String)
  /-- The nodes are in a list, as in layout documents. -/
  | layoutFormat

/-- The report of a document error, with the text that could not be read. -/
def DocumentError.report (e : DocumentError) (source : Option String) : Report :=
  match e with
  | .notJson e =>
    .unreadable ("Workflow is not valid JSON: " ++ e.message) source (some e.line) (some e.column)
      (some (Fault.notJson e).toCause) []
  | .notText kind =>
    let why := "the JSON object must be str, bytes or bytearray, not " ++ kind
    .unreadable ("Workflow is not valid JSON: " ++ why) source none none
      (some ⟨Fault.wrongType.kindName, why⟩) []
  | .notObject kind =>
    .unreadable ("Workflow must be a JSON object, got " ++ kind) source none none none []
  | .layoutFormat =>
    .unreadable "Document is in layout format; import it with import_layout()" source none none
      none []

/-- The entries of a document given as a text or as an object. -/
def documentFields (source : Json) : Except Fault Fields :=
  match source with
  | .obj fields => .ok fields
  | .str text =>
    match Json.read text with
    | .ok (.obj fields) => .ok fields
    | .ok v => .error (.reported ((DocumentError.notObject v.kindName).report (some text)))
    | .error e =>
      match Fault.ofRead e with
      | .notJson e => .error (.reported ((DocumentError.notJson e).report (some text)))
      | other => .error other
  | v => .error (.reported ((DocumentError.notText v.kindName).report none))

/-- Whether the entries are those of a layout document, which keeps its nodes in a list. -/
def isLayout (document : Fields) : Bool :=
  match Entries.get? document "nodes" with
  | some (.arr _) => true
  | _ => false

/-- Reads a workflow from a text or an object. -/
def Graph.read (source : Json) (schema : Option Schema) : Except Fault Graph := do
  let document ← documentFields source
  if isLayout document then
    throw (.reported (DocumentError.layoutFormat.report source.str?))
  else Graph.ofEntries document schema

/-! ## Fresh ids -/

/-- The numbers that the ids of a graph spell, in order. An id of digits that spell no number is
an error. -/
def numericIds : List String → Except Fault (List Int)
  | [] => .ok []
  | id :: rest =>
    if Text.isDigits id then
      match integerOfText id with
      | .error e => .error e
      | .ok n => (numericIds rest).map (n :: ·)
    else numericIds rest

/-- The least number from a floor on that is above every numeric id. -/
def Graph.nextId (g : Graph) (floor : Int) : Except Fault Int :=
  (numericIds g.nodes.keys).map fun ns => ns.foldl max (floor - 1) + 1

end NodeFlow
