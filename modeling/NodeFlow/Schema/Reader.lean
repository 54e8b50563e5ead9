import NodeFlow.Log.Event
import NodeFlow.Schema
/-!
# Reading schemas

A schema document is an object with one entry per class type. An entry that
is no object defines nothing; within an entry, the required inputs come
before the optional ones, and an input that is not a list headed by a type
or by a list of choices is skipped. The choices of a combination input may
be given as options, which must be a list, a text (each character is a
choice), an object (its keys are) or nothing at all.
-/

namespace NodeFlow.Schema

open Log (Traced)

/-- The choices of a combination input. -/
def comboOptions (given : Option Json) : Except Fault (List Json) :=
  match given.getD .null with
  | .arr items => .ok items
  | .str s => .ok (s.toList.map fun c => .str c.toString)
  | .obj fields => .ok (fields.map fun f => .str f.1)
  | v => if v.isTruthy then .error .wrongType else .ok []

/-- Reads the declaration of an input; there is none if its shape is not that of one. -/
def readInput (name : String) (declared : Json) (required : Bool) :
    Except Fault (Option InputSpec) :=
  match declared with
  | .arr (head :: rest) =>
    let opts : Fields := match rest with
      | .obj fields :: _ => fields
      | _ => []
    let value (key : String) : Json := (Entries.get? opts key).getD .null
    let make (type : String) (options : List Json) : InputSpec :=
      { name := name, type := type, required := required, default := value "default"
        min := value "min", max := value "max", step := value "step", options := options
        multiline := (value "multiline").isTruthy, forceInput := (value "forceInput").isTruthy
        tooltip := value "tooltip" }
    match head with
    | .arr choices => .ok (some (make choiceType choices))
    | .str "COMBO" =>
      (comboOptions (Entries.get? opts "options")).map fun choices => some (make choiceType choices)
    | .str type => .ok (some (make type []))
    | _ => .ok none
  | _ => .ok none

/-- Reads the inputs of one group, required or optional. -/
def readInputs (required : Bool) : Fields → Except Fault (List InputSpec)
  | [] => .ok []
  | (name, declared) :: rest =>
    match readInput name declared required with
    | .error e => .error e
    | .ok none => readInputs required rest
    | .ok (some i) => (readInputs required rest).map (i :: ·)

/-- Reads a group of inputs of an entry, which may be missing. -/
def readGroup (block : Fields) (group : String) (required : Bool) :
    Except Fault (List InputSpec) :=
  match Entries.get? block group with
  | some (.obj declared) => readInputs required declared
  | _ => .ok []

/-- Reads the outputs of an entry: a type that is no text stands for a choice, and an output
without a name of its own is named for its type. -/
def readOutputs (types names : Option Json) : List Port :=
  match types with
  | some (.arr items) =>
    items.zipIdx.map fun item =>
      let type := (item.1.str?).getD choiceType
      let ownName := (names.bind Json.items?).bind fun ns => (ns[item.2]?).bind Json.str?
      ⟨ownName.getD type, type⟩
  | _ => []

/-- Reads an entry; there is no node type if it is no object. -/
def readType (classType : String) (info : Json) : Except Fault (Option NodeType) :=
  match info with
  | .obj fields => do
    let inputs ← match Entries.get? fields "input" with
      | some (.obj block) => do
        let required ← readGroup block "required" true
        let optional ← readGroup block "optional" false
        pure (required ++ optional)
      | _ => pure []
    return some
      { classType := classType
        inputs := inputs
        outputs := readOutputs (Entries.get? fields "output") (Entries.get? fields "output_name")
        category := (Entries.get? fields "category").getD .null
        displayName := (Entries.get? fields "display_name").getD .null }
  | _ => .ok none

/-- Reads the entries of a schema document, one after the other. -/
def readTypes : Fields → Except Fault (List (String × NodeType))
  | [] => .ok []
  | (classType, info) :: rest =>
    match readType classType info with
    | .error e => .error e
    | .ok none => readTypes rest
    | .ok (some t) => (readTypes rest).map ((classType, t) :: ·)

/-- Reads a schema from the entries of a document. -/
def ofFields (fields : Fields) : Except Fault Schema :=
  (readTypes fields).map fun types => ⟨.ofList types⟩

/-- Reads a schema from a value. -/
def ofJson (document : Json) : Except Fault Schema :=
  match document with
  | .obj fields => ofFields fields
  | v =>
    .error (.reported (.schema "Schema document must be an object keyed by class type"
      [("type", .str v.kindName)] none))

/-- Reads a schema from a text or a value; a value that is a text is read as one. -/
def ofDocument (document : Json) : Except Fault Schema :=
  match document with
  | .str text =>
    match Json.read text with
    | .ok v => ofJson v
    | .error e =>
      match Fault.ofRead e with
      | .notJson e =>
        .error (.reported (.schema ("Schema document is not valid JSON: " ++ e.flaw.message) []
          (some (Fault.notJson e).toCause)))
      | other => .error other
  | v => ofJson v

/-- Reads a schema and reports how large it is. -/
def load (document : Json) : Traced Schema :=
  match ofDocument document with
  | .error e => .fail e
  | .ok s =>
    .reporting [Log.note .debug .schema s!"Parsed node schema with {s.size} class types"] s

end NodeFlow.Schema
