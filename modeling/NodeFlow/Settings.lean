import NodeFlow.Fault
import NodeFlow.Text.Case
/-!
# Settings

What can be tuned, with its defaults, and how settings are read from the
environment. A variable names a field by its section and its name, joined
by two underscores; a section may also be given as a whole, as a JSON
object. Names are matched whatever their case, and empty variables count as
unset.
-/

namespace NodeFlow

/-- Environment variables in the order they were set. -/
abbrev Environment := List (String × String)

/-- How events are reported. -/
structure LogSettings where
  level : String := "INFO"
  format : String := "%(asctime)s | %(levelname)-8s | %(name)s | %(message)s"
  dateFormat : String := "%Y-%m-%d %H:%M:%S"
  file : Option String := none
  jsonOutput : Bool := false

/-- How graphs are compiled. -/
structure CompilerSettings where
  /-- How many bypassed nodes in a row are followed before giving up. -/
  bypassMaxDepth : Int := 10
  /-- Injected node ids are not below this number. -/
  injectedIdFloor : Int := 100
  /-- The class type of injected nodes. -/
  modifierClassType : String := "LoraLoaderModelOnly"
  /-- The class types of model sources, most wanted first. -/
  modelSourceClassTypes : List String := ["CheckpointLoaderSimple", "UNETLoader"]
  /-- The class type of the nodes that chains are extended in front of. -/
  samplingClassType : String := "ModelSamplingSD3"
  /-- The class type of samplers that tell the noise paths apart. -/
  advancedSamplerClassType : String := "KSamplerAdvanced"
  /-- How long a chain may grow by adding to it. -/
  maxChainLength : Int := 5
  /-- The least strength. -/
  minStrength : Binary64 := .zero
  /-- The greatest strength. -/
  maxStrength : Binary64 := .ofRatio false 2 1
  /-- The strength of an added entry. -/
  defaultStrength : Binary64 := .one

/-- All settings. -/
structure Settings where
  logging : LogSettings := {}
  compiler : CompilerSettings := {}
  version : String := "1.0.0"
  name : String := "comfy_compiler"

namespace Settings

/-- The fields of the compiler section that hold structured values. -/
def structuredFields : List String := ["model_source_class_types"]

/-- The fields of the compiler section. -/
def compilerFields : List String := [
  "bypass_max_depth", "injected_id_floor", "modifier_class_type", "model_source_class_types",
  "sampling_class_type", "advanced_sampler_class_type", "max_chain_length", "min_strength",
  "max_strength", "default_strength"]

/-- The fields of the logging section. -/
def logFields : List String := ["level", "format", "date_format", "file", "json_output"]

/-! ## Reading sections -/

open Intake in
/-- Reads the compiler section. -/
def readCompiler : Json → Checked CompilerSettings
  | .obj fs =>
    let d : CompilerSettings := {}
    let make (depth floor : Int) (modifier : String) (sources : List String)
        (sampling advanced : String) (length : Int) (low high usual : Binary64) (_ : Unit) :
        CompilerSettings :=
      ⟨depth, floor, modifier, sources, sampling, advanced, length, low, high, usual⟩
    let r : Checked _ := (optional fs "bypass_max_depth" int d.bypassMaxDepth).map make
    let r := Checked.ap r (optional fs "injected_id_floor" int d.injectedIdFloor)
    let r := Checked.ap r (optional fs "modifier_class_type" text d.modifierClassType)
    let r := Checked.ap r
      (optional fs "model_source_class_types" (list text) d.modelSourceClassTypes)
    let r := Checked.ap r (optional fs "sampling_class_type" text d.samplingClassType)
    let r := Checked.ap r
      (optional fs "advanced_sampler_class_type" text d.advancedSamplerClassType)
    let r := Checked.ap r (optional fs "max_chain_length" int d.maxChainLength)
    let r := Checked.ap r (optional fs "min_strength" float d.minStrength)
    let r := Checked.ap r (optional fs "max_strength" float d.maxStrength)
    let r := Checked.ap r (optional fs "default_strength" float d.defaultStrength)
    Checked.ap r (onlyKnown fs compilerFields)
  | _ => Checked.fail .modelType

/-- Reads a text that may be absent. -/
def optionalText : Json → Intake.Checked (Option String)
  | .null => .ok none
  | v => (Intake.text v).map some

open Intake in
/-- Reads the logging section. -/
def readLogging : Json → Checked LogSettings
  | .obj fs =>
    let d : LogSettings := {}
    let make (level format dateFormat : String) (file : Option String) (json : Bool) (_ : Unit) :
        LogSettings := ⟨level, format, dateFormat, file, json⟩
    let r : Checked _ := (optional fs "level" text d.level).map make
    let r := Checked.ap r (optional fs "format" text d.format)
    let r := Checked.ap r (optional fs "date_format" text d.dateFormat)
    let r := Checked.ap r (optional fs "file" optionalText d.file)
    let r := Checked.ap r (optional fs "json_output" bool d.jsonOutput)
    Checked.ap r (onlyKnown fs logFields)
  | _ => Checked.fail .modelType

/-! ## The environment -/

/-- The variables that count, by their names in lower case. -/
def caselessNames (env : Environment) : Environment :=
  (env.filter fun v => v.2 ≠ "").foldl (fun vs v => Entries.put vs (Text.lower v.1) v.2) []

/-- Cuts a name at each pair of underscores. -/
def splitName (cs : List Char) : List String :=
  go [] cs
where
  /-- The characters of the current part are kept in reverse. -/
  go (part : List Char) : List Char → List String
  | '_' :: '_' :: rest => String.ofList part.reverse :: go [] rest
  | c :: rest => go (c :: part) rest
  | [] => [String.ofList part.reverse]

/-- Writes a value at a path through nested objects; a value in the way is left alone. -/
def putAt (fs : Fields) : List String → Json → Fields
  | [], _ => fs
  | [key], value => Entries.put fs key value
  | key :: rest, value =>
    match (Entries.get? fs key).getD (.obj []) with
    | .obj inner => Entries.put fs key (.obj (putAt inner rest value))
    | other => Entries.put fs key other

/-- The values that variables give to the fields of a section. -/
def sectionFields (vars : Environment) (section_ : String) : Except Fault Fields :=
  let lead := s!"comfy_compiler_{section_}__"
  (vars.filter fun v => Text.startsWith v.1 lead).foldlM
    (fun fs v => do
      let path := splitName (v.1.toList.drop lead.length)
      let value ← match path with
        | [field] =>
          if section_ = "compiler" && structuredFields.contains field then
            match Json.read v.2 with
            | .ok decoded => pure decoded
            | .error _ => throw (Fault.unreadableSetting section_)
          else pure (Json.str v.2)
        | _ => pure (Json.str v.2)
      return putAt fs path value) []

mutual

/-- Overwrites a value by another; two objects are merged. -/
def mergeValue : Json → Json → Json
  | .obj old, .obj new => .obj (mergeFields old new)
  | _, new => new

/-- Overwrites the entries of an object by those of another. -/
def mergeFields (old : Fields) : Fields → Fields
  | [] => old
  | (k, v) :: rest =>
    let merged := match Entries.get? old k with
      | some o => mergeValue o v
      | none => v
    mergeFields (Entries.put old k merged) rest

end

/-- Spells the names of known fields as they are declared. -/
def declaredNames (declared : List String) (fs : Fields) : Fields :=
  fs.foldl (fun out f =>
    let name := (declared.find? fun d => d = Text.lower f.1).getD f.1
    Entries.put out name f.2) []

/-- The value the environment gives to a section, if any. -/
def sectionValue? (vars : Environment) (section_ : String) (declared : List String) :
    Except Fault (Option Json) := do
  match Entries.get? vars s!"comfy_compiler_{section_}" with
  | none =>
    let fs ← sectionFields vars section_
    return if fs.isEmpty then none else some (.obj (declaredNames declared fs))
  | some whole =>
    match Json.read whole with
    | .error _ => throw (.unreadableSetting section_)
    | .ok (.obj fs) =>
      let nested ← sectionFields vars section_
      return some (.obj (declaredNames declared (mergeFields fs nested)))
    | .ok v => return some v

/-- Reads a section, or takes its default. -/
def readSection {α : Type} (value : Option Json) (name : String)
    (read : Json → Intake.Checked α) (default : α) : Intake.Checked α :=
  match value with
  | none => .ok default
  | some v => (read v).under (.key name)

/-- The settings that an environment brings about. -/
def ofEnvironment (env : Environment) : Except Fault Settings := do
  let vars := caselessNames env
  let logging ← sectionValue? vars "logging" logFields
  let compiler ← sectionValue? vars "compiler" compilerFields
  let d : Settings := {}
  let r : Intake.Checked (CompilerSettings → Settings) :=
    (readSection logging "logging" readLogging d.logging).map fun l c =>
      { logging := l, compiler := c
        version := (Entries.get? vars "comfy_compiler_version").getD d.version
        name := (Entries.get? vars "comfy_compiler_name").getD d.name }
  match r.ap (readSection compiler "compiler" readCompiler d.compiler) with
  | .ok s => return s
  | .error issues => throw (.rejected issues)

/-- The settings as an object. -/
def toJson (s : Settings) : Json :=
  .obj [
    ("version", .str s.version),
    ("logging", .obj [
      ("level", .str s.logging.level), ("json_output", .bool s.logging.jsonOutput)]),
    ("compiler", .obj [
      ("bypass_max_depth", .int s.compiler.bypassMaxDepth),
      ("injected_id_floor", .int s.compiler.injectedIdFloor),
      ("modifier_class_type", .str s.compiler.modifierClassType),
      ("model_source_class_types", .arr (s.compiler.modelSourceClassTypes.map .str)),
      ("sampling_class_type", .str s.compiler.samplingClassType),
      ("advanced_sampler_class_type", .str s.compiler.advancedSamplerClassType),
      ("max_chain_length", .int s.compiler.maxChainLength),
      ("min_strength", .float s.compiler.minStrength),
      ("max_strength", .float s.compiler.maxStrength),
      ("default_strength", .float s.compiler.defaultStrength)])]

end Settings

/-! ## Readers of errors -/

/-- The first value of a variable, by its exact name. -/
def Environment.get? (env : Environment) (name : String) : Option String := Entries.get? env name

/-- The audience that the environment asks for. -/
def Audience.ofEnvironment (env : Environment) : Audience :=
  let wanted := ((Environment.get? env "COMFY_COMPILER_VERBOSITY").map Text.lower).getD "casual"
  (Audience.ofName? wanted).getD .casual

/-- Whether the environment is that of a production server. -/
def isProduction (env : Environment) : Bool :=
  ((Environment.get? env "COMFY_COMPILER_ENV").map Text.lower) = some "production"

end NodeFlow
