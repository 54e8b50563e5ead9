import NodeFlow.CommandLine.Options
import NodeFlow.Compiler
import NodeFlow.Layout.Import
import NodeFlow.Mapping.Saved
import NodeFlow.Schema.Reader
/-!
# Commands

Four commands take a workflow document from a file: one converts it, one
resolves its bypassed nodes, one finds its fields, and one prepares it for
submission. Carrying out a command is a function from the texts it reads to
a response: what it prints, what it writes, and its exit status.
-/

namespace NodeFlow.CommandLine

/-! ## Reading the command line -/

/-- What a command does. -/
inductive Task where
  | convert
  | bypass
  /-- Finds the fields, for a category if one is named. -/
  | analyze (category : Option String)
  /-- Prepares for submission. -/
  | prepare (values : Option String) (seed : Option Int) (drawsSeed : Bool)
      (modifiers : List String) (strict : Bool)
  deriving DecidableEq

/-- A command: what to do, where the document is, where the result goes, and where the schema of
the server is. -/
structure Command where
  task : Task
  input : String
  output : Option String := none
  schema : Option String := none
  deriving DecidableEq

/-- What a command line asks for. -/
inductive Invocation where
  | version
  /-- Nothing, which is answered by how to ask. -/
  | usage
  | run (command : Command)
  deriving DecidableEq

/-- The option that asks for help. -/
def helpOption : OptionSpec := ⟨"help", ["-h", "--help"], .help⟩

/-- The options in front of a command. -/
def leadingOptions : List OptionSpec := [
  helpOption,
  ⟨"version", ["--version", "-v"], .flag⟩,
  ⟨"log_level", ["--log-level"], .text⟩]

/-- The options of every command. -/
def sharedOptions : List OptionSpec := [
  helpOption,
  ⟨"output", ["--output", "-o"], .text⟩,
  ⟨"schema", ["--schema", "-s"], .text⟩]

/-- The options of a command. -/
def optionsOf? (name : String) : Option (List OptionSpec) :=
  match name with
  | "convert" | "bypass" => some sharedOptions
  | "analyze" => some (sharedOptions ++ [⟨"category", ["--category", "-c"], .text⟩])
  | "prepare" =>
    some (sharedOptions ++ [
      ⟨"values", ["--values"], .text⟩,
      ⟨"seed", ["--seed"], .integer⟩,
      ⟨"random_seed", ["--random-seed"], .flag⟩,
      ⟨"lora", ["--lora"], .text⟩,
      ⟨"strict", ["--strict"], .flag⟩])
  | _ => none

/-- A value that is not empty. -/
def properValue (given : Given) (key : String) : Option String :=
  (valueOf given key).filter (· ≠ "")

/-- What a command does with the options given. -/
def taskOf (name : String) (given : Given) : Task :=
  match name with
  | "bypass" => .bypass
  | "analyze" => .analyze (properValue given "category")
  | "prepare" =>
    .prepare (properValue given "values")
      ((valueOf given "seed").bind fun s => (Numeral.int? s).toOption)
      (isGiven given "random_seed") (valuesOf given "lora") (isGiven given "strict")
  | _ => .convert

/-- Reads a command by its name and the words behind it. -/
def readNamed (name : String) (args : List String) : Except Halt Command :=
  match optionsOf? name with
  | none => .error .malformed
  | some specs => do
    let (given, input) ← readCommand specs args
    return { task := taskOf name given, input := input
             output := properValue given "output", schema := properValue given "schema" }

/-- Reads the words up to the name of a command, and the command, if there is one. At most as many
words are read as the number. -/
def readLeading : Nat → List (Word × String) → Given → Bool →
    Except Halt (Given × Option Command)
  | 0, _, given, isOverfull => if isOverfull then .error .malformed else .ok (given, none)
  | _, [], given, isOverfull => if isOverfull then .error .malformed else .ok (given, none)
  | n + 1, (.option spec name attached, _) :: rest, given, isOverfull => do
    let taken ← take leadingOptions spec name attached rest
    let more ← check taken.given
    readLeading n taken.rest (given ++ more) (isOverfull || taken.isOverfull)
  | n + 1, (.unknown, _) :: rest, given, _ => readLeading n rest given true
  | _, (.separator, _) :: _, _, _ => .error .malformed
  | _, (.plain, name) :: rest, given, isOverfull => do
    let command ← readNamed name (rest.map Prod.snd)
    if isOverfull then throw .malformed
    return (given, some command)

/-- Reads a command line. -/
def parse (args : List String) : Except Halt Invocation := do
  let words ← classifyAll leadingOptions args
  let (given, command) ← readLeading (words.length + 1) words [] false
  if isGiven given "version" then return .version
  match command with
  | some c => return .run c
  | none => return .usage

/-! ## Carrying out a command -/

/-- What a command answers. -/
structure Response where
  exit : Nat
  /-- The result, if there is one. -/
  output : Option String := none
  /-- What is said before the result is written. -/
  remarks : List String := []
  /-- What is said after the result was written. -/
  afterwards : List String := []

/-- The texts that a command reads; a schema need not be named. -/
structure Inputs where
  document : Except Fault String
  schema : Option (Except Fault String)

/-- What is said about a warning. -/
def warningLine (w : String) : String := "warning: " ++ w

/-- The schema that a command uses. -/
def schemaOf (inputs : Inputs) : Log.Traced Schema :=
  match inputs.schema with
  | none => Pure.pure .empty
  | some text => do Schema.load (.str (← Log.Traced.ofExcept text))

/-- Imports the document of a command. -/
def importFor (inputs : Inputs) (schema : Schema) : Log.Traced Imported := do
  let text ← Log.Traced.ofExcept inputs.document
  Imported.ofDocument (.str text) schema

/-- A modifier as it is asked for: a name, perhaps with a strength behind the last colon. -/
def modifierOf (spec : String) : Json :=
  let backward := spec.toList.reverse
  let whole : Json := .obj [("name", .str spec)]
  if backward.contains ':' then
    let strength := String.ofList (backward.takeWhile (· ≠ ':')).reverse
    let name := String.ofList ((backward.dropWhile (· ≠ ':')).drop 1).reverse
    match Numeral.float? strength with
    | some x => .obj [("name", .str name), ("strength", .float x)]
    | none => whole
  else whole

/-- Converts a document. -/
def convert (inputs : Inputs) : Log.Traced Response := do
  let schema ← schemaOf inputs
  let imported ← importFor inputs schema
  return { exit := 0, output := some imported.content
           remarks := imported.warnings.map warningLine }

/-- Resolves the bypassed nodes of a document. -/
def bypass (cfg : CompilerSettings) (inputs : Inputs) : Log.Traced Response := do
  let schema ← schemaOf inputs
  let text ← Log.Traced.ofExcept inputs.document
  let g ← Log.Traced.ofExcept (Graph.read (.str text) (some schema))
  let r := g.resolveBypassed cfg.bypassMaxDepth
  Log.Traced.tell (g.bypassEvents cfg.bypassMaxDepth)
  return {
    exit := 0, output := some (r.graph.text (some 2)), remarks := r.warnings.map warningLine }

/-- Finds the fields of a document. -/
def analyze (inputs : Inputs) (category : Option String) : Log.Traced Response := do
  let schema ← schemaOf inputs
  let imported ← importFor inputs schema
  let category ← Log.Traced.ofExcept (category.mapM fun c => Category.ofJson (.str c))
  let m ← analyzeFields imported.graph schema category
  return { exit := 0, output := some m.save, remarks := imported.warnings.map warningLine
           afterwards := m.unmapped.map fun f => "unmapped: " ++ f.key.display }

/-- Prepares a document for submission; a seed is at hand in case one has to be drawn. -/
def prepare (cfg : CompilerSettings) (inputs : Inputs) (values : Option String)
    (seed : Option Int) (drawsSeed : Bool) (modifiers : List String) (strict : Bool)
    (drawn : Int) : Log.Traced Response := do
  let schema ← schemaOf inputs
  let imported ← importFor inputs schema
  let values ← Log.Traced.ofExcept (match values with
    | some text => readJson text
    | none => .ok (.obj []))
  let request ← Log.Traced.ofExcept (Request.ofJson cfg (.obj [
    ("values", values), ("seed", (seed.map Json.int).getD .null),
    ("randomize_seed", .bool drawsSeed), ("modifier_chain", .arr (modifiers.map modifierOf))]))
  let submission : Submission :=
    { cfg := cfg, schema := schema, request := request, classifier := .usual cfg, drawn := drawn }
  let compiled ← submission.compile imported.graph strict
  return { exit := if compiled.isValid then 0 else 1, output := some compiled.content
           remarks := (imported.warnings ++ compiled.warnings).map warningLine ++
             compiled.errors.map ("error: " ++ ·) }

/-- Carries out a command. -/
def Command.run (cfg : CompilerSettings) (inputs : Inputs) (drawn : Int) (c : Command) :
    Log.Traced Response :=
  match c.task with
  | .convert => convert inputs
  | .bypass => CommandLine.bypass cfg inputs
  | .analyze category => CommandLine.analyze inputs category
  | .prepare values seed drawsSeed modifiers strict =>
    CommandLine.prepare cfg inputs values seed drawsSeed modifiers strict drawn

/-- What is said about a failure that users bring about. The others are flaws of the program. -/
def failureLines? (audience : Audience) : Fault → Option (List String)
  | .reported r =>
    some (("Error: " ++ r.messageFor audience) :: r.suggestions.map ("  - " ++ ·))
  | .badValue reason => some ["Error: " ++ reason.message]
  | .notJson e => some ["Error: " ++ e.message]
  | .file e => some ["Error: " ++ e.message]
  | .rejected issues =>
    some ("Error: the request is not valid" :: issues.map fun i => "  " ++ i.text)
  | _ => none

/-- The response to a failure. -/
def Response.ofFault? (audience : Audience) (f : Fault) : Option Response :=
  (failureLines? audience f).map fun lines => { exit := 1, remarks := lines }

/-- The name and version of the program. -/
def versionLine : String := "comfy-compiler v1.0.0"

/-- The exit status of a command line without a command, and of one that is malformed. -/
def usageStatus : Nat := 2

end NodeFlow.CommandLine
