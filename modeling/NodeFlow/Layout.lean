import NodeFlow.Fault
import NodeFlow.Graph
/-!
# Layout documents

The document of an editor lists its nodes as they lie on a canvas. A node
has slots for incoming links, each given by the number of a link; a table
lists the links with their ends. The values of widgets come as a plain list
or under their names. Reroutes only pass a link on, notes only hold text.
Boxes on the canvas mark groups. Numbers may be spelled as text, and parts
that cannot be read are passed over; only a list of slots or nodes that is
no list at all makes a document unreadable.
-/

namespace NodeFlow

/-- The integer that a value stands for, if it stands for one. A truth value does not. -/
def wholeNumber? : Json → Option Int
  | .int i => some i
  | .float x => x.toInt?
  | .str s => (Numeral.int? s).toOption
  | _ => none

/-- The key of an integer in a table: its decimal digits. -/
def idText (i : Int) : String := (Json.int i).display

/-- A text that is not empty. -/
def properText? (v : Option Json) : Option String := (v.bind Json.str?).filter (· ≠ "")

/-- A place on the canvas. -/
structure Point where
  x : Binary64
  y : Binary64
  deriving DecidableEq

namespace Layout

/-- A slot for an incoming link. -/
structure Slot where
  name : Option String
  link : Option Int
  deriving DecidableEq

/-- A row of the table of links: where a link starts. -/
structure Wire where
  /-- The id of the node. -/
  number : Int
  output : Int
  deriving DecidableEq

/-- The key of the node that a link starts at. -/
def Wire.source (w : Wire) : String := idText w.number

/-- The values of the widgets of a node. -/
inductive Widgets where
  /-- One after the other. -/
  | listed (values : List Json)
  /-- Under their names. -/
  | named (values : Fields)
  /-- In no form that can be read; whether there is something at all. -/
  | other (isPresent : Bool)
  deriving DecidableEq

/-- A node of a layout document. -/
structure Item where
  id : Int
  type : String
  title : Option String := none
  mode : Int := activeMode
  widgets : Widgets := .other false
  /-- The slots, unless they are in no list. -/
  slots : Except Fault (List Slot) := .ok []
  /-- The place on the canvas, unless a number is too large. -/
  place : Except Fault (Option Point) := .ok none

/-- A box on the canvas. -/
structure Box where
  corner : Point
  width : Binary64
  height : Binary64
  deriving DecidableEq

/-- Whether a point lies in a box. -/
def Box.contains (b : Box) (p : Point) : Bool :=
  b.corner.x.le p.x && p.x.le (b.corner.x.add b.width) &&
    b.corner.y.le p.y && p.y.le (b.corner.y.add b.height)

/-- A group as a layout document has it. -/
structure Frame where
  id : Json
  title : String
  /-- The box, if it can be read, unless a number is too large. -/
  box : Except Fault (Option Box)

/-- The types of nodes that pass a link on. -/
def rerouteTypes : List String := ["Reroute", "ReroutePrimitive"]

/-- The types of nodes that hold text. -/
def noteTypes : List String := ["Note", "MarkdownNote", "workflow/note"]

namespace Item

/-- Whether a node only passes a link on. -/
def isReroute (i : Item) : Bool := rerouteTypes.contains i.type

/-- Whether a node only holds text. -/
def isNote (i : Item) : Bool := noteTypes.contains i.type

/-- Whether a node becomes a node of the workflow. -/
def isOrdinary (i : Item) : Bool := i.type ≠ "" && !i.isReroute && !i.isNote

end Item

end Layout

/-- A layout document. Nodes and links stand under their numbers, whatever their length. -/
structure Layout where
  items : Dict Layout.Item
  wires : Dict Layout.Wire
  frames : List Layout.Frame

namespace Layout

/-! ## Reading -/

/-- The double that a value stands for, if it stands for one. Only a number that is too large is
a failure. -/
def readNumber? (v : Json) : Except Fault (Option Binary64) :=
  match numberOf v with
  | .ok x => .ok (some x)
  | .error .tooLarge => .error .tooLarge
  | .error _ => .ok none

/-- The doubles that values stand for, if all of them do; what follows one that does not is not
looked at. -/
def readNumbers : List Json → Except Fault (Option (List Binary64))
  | [] => .ok (some [])
  | v :: rest =>
    match readNumber? v with
    | .error e => .error e
    | .ok none => .ok none
    | .ok (some x) => (readNumbers rest).map fun xs => xs.map (x :: ·)

/-- The place that a pair gives, as a list or under the names of the indices. -/
def readPlace (v : Json) : Except Fault (Option Point) :=
  let pair := match v with
    | .obj fs =>
      [(Entries.get? fs "0").getD .null, (Entries.get? fs "1").getD .null]
    | .arr (x :: y :: _) => [x, y]
    | _ => [.null]
  (readNumbers pair).map fun xs =>
    match xs with
    | some [x, y] => some ⟨x, y⟩
    | _ => none

/-- Reads a slot. A negative number stands for no link. -/
def readSlot (fs : Fields) : Slot :=
  { name := properText? (Entries.get? fs "name")
    link := ((Entries.get? fs "link").bind wholeNumber?).filter (0 ≤ ·) }

/-- Reads the slots of a node; what is no object is passed over. -/
def readSlots (v : Json) : Except Fault (List Slot) :=
  match v with
  | .arr items => .ok ((items.filterMap Json.fields?).map readSlot)
  | .str _ => .ok []
  | .obj _ => .ok []
  | other => if other.isTruthy then .error .wrongType else .ok []

/-- Reads the widgets of a node. -/
def readWidgets : Json → Widgets
  | .arr values => .listed values
  | .obj values => .named values
  | v => .other v.isTruthy

/-- Reads a node that has an id. -/
def readItem (id : Int) (fs : Fields) : Item :=
  let entry (name : String) : Json := (Entries.get? fs name).getD .null
  { id := id
    type := ((entry "type").str?).getD ""
    title := properText? (some (entry "title"))
    mode := (wholeNumber? (entry "mode")).getD activeMode
    widgets := readWidgets (entry "widgets_values")
    slots := readSlots (entry "inputs")
    place := readPlace (entry "pos") }

/-- The number that stands for no node and no link. -/
def noNumber : Int := -1

/-- Reads the nodes under their ids; the last one with an id counts, at the place of the first. -/
def readItems (vs : List Json) : Dict Item :=
  (vs.filterMap Json.fields?).foldl (fun items fs =>
    match (Entries.get? fs "id").bind wholeNumber? with
    | some id =>
      if id = noNumber then items else items.insert (idText id) (readItem id fs)
    | none => items) .empty

/-- The parts of a link, from a row or from an object: its number, then the node and the slot of
either end. -/
def wireParts? : Json → Option (List Json)
  | .arr (number :: source :: output :: target :: slot :: _ :: _) =>
    some [number, source, output, target, slot]
  | .obj fs =>
    some (["id", "origin_id", "origin_slot", "target_id", "target_slot"].map fun name =>
      (Entries.get? fs name).getD .null)
  | _ => none

/-- Reads a link with its number; all its parts must be integers. -/
def readWire? (v : Json) : Option (Int × Wire) :=
  match (wireParts? v).bind fun parts => parts.mapM wholeNumber? with
  | some (number :: source :: output :: _) =>
    if number = noNumber then none else some (number, ⟨source, output⟩)
  | _ => none

/-- Reads the table of links; the last one with a number counts. -/
def readWires (vs : List Json) : Dict Wire :=
  .ofList ((vs.filterMap readWire?).map fun w => (idText w.1, w.2))

/-- The box that four numbers give. -/
def readBox (v : Json) : Except Fault (Option Box) :=
  match v with
  | .arr (x :: y :: w :: h :: _) =>
    (readNumbers [x, y, w, h]).map fun xs =>
      match xs with
      | some [x, y, w, h] => some ⟨⟨x, y⟩, w, h⟩
      | _ => none
  | _ => .ok none

/-- Whether a group may have a value as its id. -/
def isGroupId : Json → Bool
  | .int _ => true
  | .bool _ => true
  | .str _ => true
  | _ => false

/-- Reads a group; its id is its number where it has none. -/
def readFrame (number : Nat) (fs : Fields) : Frame :=
  { id := ((Entries.get? fs "id").filter isGroupId).getD (.int number)
    title := (properText? (Entries.get? fs "title")).getD "Group"
    box := readBox ((Entries.get? fs "bounding").getD .null) }

/-- Reads the groups, counting from a number; what is no object is passed over. -/
def readFrames : Nat → List Json → List Frame
  | _, [] => []
  | n, .obj fs :: rest => readFrame n fs :: readFrames (n + 1) rest
  | n, _ :: rest => readFrames (n + 1) rest

/-- The items of a list, or none of anything else. -/
def listed (document : Fields) (name : String) : List Json :=
  ((Entries.get? document name).bind Json.items?).getD []

/-- Reads a layout document. -/
def ofFields (document : Fields) : Except Fault Layout :=
  let nodes : Except Fault (List Json) :=
    match (Entries.get? document "nodes").getD .null with
    | .arr items => .ok items
    | .str _ => .ok []
    | .obj _ => .ok []
    | other => if other.isTruthy then .error .wrongType else .ok []
  nodes.map fun vs =>
    { items := readItems vs, wires := readWires (listed document "links")
      frames := readFrames 1 (listed document "groups") }

end Layout

end NodeFlow
