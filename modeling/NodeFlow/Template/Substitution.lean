import NodeFlow.Graph
import NodeFlow.Log.Event
import NodeFlow.Template.Field
import NodeFlow.Template.Token
/-!
# Filling in a template

Values take the place of placeholders in the text literals of a workflow. A
literal that is a placeholder and nothing else becomes the value itself, so
numbers stay numbers; within a longer text the value is shown as text, and one
that is too long to be written is a failure. What is filled in is not looked
at again. A placeholder without a value stays and is reported. Seeds and
overrides change literals in the same way: they reach inputs that hold
literals already, and leave connections alone.
-/

namespace NodeFlow

namespace Template

/-- The literal that older templates have in place of the placeholder of an image. -/
def defaultImage : String := "uploaded_image.png [input]"

/-- The placeholder of an image. -/
def imageName : String := "image_filename"

/-- The value for a placeholder, given under its name or under the input it lands on. -/
def valueFor? (values : Fields) (name : String) : Option Json :=
  match Entries.get? values name with
  | some v => some v
  | none => (pairOf? placeholderInputs name).bind (Entries.get? values)

/-- A part of a text with its value filled in. -/
def fillPart (values : Fields) : Part → Except Fault String
  | .char c => .ok c.toString
  | .token name =>
    match valueFor? values (String.ofList name) with
    | some v => textOf v
    | none => .ok (String.ofList (Part.token name).chars)

/-- What becomes of a text literal. -/
def fillText (values : Fields) (text : String) : Except Fault Json :=
  match parts text.toList with
  | [.token name] => .ok ((valueFor? values (String.ofList name)).getD (.str text))
  | ps => (ps.mapM (fillPart values)).map fun texts => .str (String.join texts)

/-- Whether a text literal stands for an image that there is a value for. -/
def isFilledImage (values : Fields) (text : String) : Bool :=
  text = defaultImage && (valueFor? values imageName).isSome

/-- What becomes of an input. -/
def fillInput (values : Fields) : InputValue → Except Fault InputValue
  | .literal (.str text) =>
    match valueFor? values imageName with
    | some image =>
      if text = defaultImage then .ok (.literal image)
      else (fillText values text).map .literal
    | none => (fillText values text).map .literal
  | v => .ok v

/-- The text literals of a workflow, in order. -/
def textLiterals (g : Graph) : List String :=
  g.nodeList.flatMap fun n =>
    n.inputs.values.filterMap fun v => v.literal?.bind Json.str?

/-- The warning about a placeholder without a value. -/
def unresolvedWarning (name : String) : String :=
  "No value supplied for placeholder \x7b\x7b" ++ name ++ "\x7d\x7d"

end Template

open Template

namespace Graph

/-- The names of the placeholders of a workflow, sorted. -/
def placeholders (g : Graph) : List String := sorted ((textLiterals g).flatMap tokens)

/-- The workflow with values in place of placeholders. -/
def fill (g : Graph) (values : Fields) : Except Fault Graph :=
  g.traverseNodes fun n =>
    (n.inputs.traverse fun _ v => fillInput values v).map fun inputs => { n with inputs }

/-- The names of the placeholders that a value takes the place of, sorted; the image counts where
it takes the place of the default one. -/
def filledNames (g : Graph) (values : Fields) : List String :=
  let texts := textLiterals g
  sorted ((texts.flatMap tokens).filter (fun name => (valueFor? values name).isSome) ++
    (if texts.any (isFilledImage values) then [imageName] else []))

/-- The names of the placeholders without a value, sorted. -/
def unresolvedNames (g : Graph) (values : Fields) : List String :=
  sorted (((textLiterals g).flatMap tokens).filter fun name => (valueFor? values name).isNone)

/-- The warnings about placeholders without a value. -/
def fillWarnings (g : Graph) (values : Fields) : List String :=
  (g.unresolvedNames values).map unresolvedWarning

/-- What is reported while a template is filled in. -/
def fillEvents (g : Graph) (values : Fields) : List Log.Event :=
  (g.fillWarnings values).map (Log.note .warning .substitution)

/-! ## Seeds -/

/-- Writes a seed into every literal that holds one. -/
def withSeed (g : Graph) (seed : Json) : Graph :=
  g.mapNodes fun n => { n with inputs := n.inputs.map fun name v =>
    match v with
    | .literal old => .literal (if seedInputs.contains name then seed else old)
    | other => other }

end Graph

/-! ## Overrides -/

/-- Values for inputs of nodes, under the ids of the nodes. -/
abbrev Overrides := List (String × Fields)

/-- The overrides that a value holds, if any: what is given for a node must be an object to have
an effect. -/
def Overrides.ofJson (v : Json) : Except Fault Overrides :=
  match v with
  | .obj fs => .ok (fs.map fun e => (e.1, (e.2.fields?).getD []))
  | other => if other.isTruthy then .error .noMember else .ok []

namespace Graph

/-- Writes values into the literals of a node. -/
def overrideNode (n : Node) (values : Fields) : Node :=
  values.foldl (fun m e => if m.hasLiteral e.1 then m.setInput e.1 (.literal e.2) else m) n

/-- Writes overrides into the literals of a workflow. -/
def override (g : Graph) (overrides : Overrides) : Graph :=
  overrides.foldl (fun h o => h.modify o.1 fun n => overrideNode n o.2) g

/-- The number of literals that overrides are written into. -/
def overrideCount (g : Graph) (overrides : Overrides) : Nat :=
  overrides.foldl (fun count o =>
    match g.node? o.1 with
    | some n => count + (o.2.filter fun e => n.hasLiteral e.1).length
    | none => count) 0

/-- What is reported while overrides are written. -/
def overrideEvents (g : Graph) (overrides : Overrides) : List Log.Event :=
  if overrides.isEmpty then []
  else
    [Log.note .debug .substitution s!"Applied {g.overrideCount overrides} attribute overrides"]

end Graph

end NodeFlow
