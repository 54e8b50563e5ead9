import NodeFlow.CommandLine.Command
import NodeFlow.Log.Record
/-!
# The program

Reads the files that a command names, carries the command out, and prints
and writes what it answers. What happened on the way is said on the error
stream, as far as the level asks for it.
-/

open NodeFlow NodeFlow.CommandLine

/-- The environment variables that settings are read from. -/
def settingNames : List String :=
  ["COMFY_COMPILER_ENV", "COMFY_COMPILER_VERBOSITY", "COMFY_COMPILER_VERSION",
    "COMFY_COMPILER_NAME", "COMFY_COMPILER_LOGGING", "COMFY_COMPILER_COMPILER"] ++
  Settings.logFields.map (fun f => "COMFY_COMPILER_LOGGING__" ++ f.map Char.toUpper) ++
  Settings.compilerFields.map (fun f => "COMFY_COMPILER_COMPILER__" ++ f.map Char.toUpper)

/-- Reads the environment variables that count. -/
def readEnvironment : IO Environment :=
  settingNames.filterMapM fun name => do return (← IO.getEnv name).map fun v => (name, v)

/-- A failure of the file system. -/
def fileFault (path : String) : IO.Error → Fault
  | .noFileOrDirectory .. => .file (.missing path)
  | .inappropriateType .. => .file (.directory path)
  | e => .file (.other (toString e))

/-- Reads all of the input. -/
partial def readInput (stream : IO.FS.Stream) (read : ByteArray) : IO ByteArray := do
  let bytes ← stream.read 65536
  if bytes.isEmpty then return read else readInput stream (read ++ bytes)

/-- The text of a file, or of the input; line ends are those of the system. -/
def readText (path : String) : IO (Except Fault String) := do
  try
    let bytes ← if path = "-" then readInput (← IO.getStdin) .empty else IO.FS.readBinFile path
    match String.fromUTF8? bytes with
    | some text => return .ok ((text.replace "\r\n" "\n").replace "\r" "\n")
    | none => return .error (.file (.other "the file is not UTF-8 text"))
  catch e => return .error (fileFault path e)

/-- Says what happened. -/
def sayEvents (level : String) (events : List Log.Event) : IO Unit :=
  for e in Log.atLeast (.ofName level) events do
    let text := match e.content with
      | .message text => text
      | .timing operation success => Log.operationMessage operation success none
    IO.eprintln s!"{e.level.name} | {e.channel.name} | {text}"

/-- Says that the program has a flaw, or that its settings have. -/
def sayFlaw (f : Fault) : IO Unit := IO.eprintln (f.kindName ++ ": " ++ f.message?.getD "")

/-- Prints and writes a response. -/
def sayResponse (c : Command) (r : Response) : IO UInt32 := do
  r.remarks.forM fun line => IO.eprintln line
  try
    match r.output, c.output with
    | some text, some path => IO.FS.writeFile path (text ++ "\n")
    | some text, none => IO.println text
    | none, _ => pure ()
    r.afterwards.forM fun line => IO.eprintln line
    return r.exit.toUInt32
  catch e =>
    IO.eprintln ("Error: " ++ ((fileFault (c.output.getD "") e).message?.getD ""))
    return 1

/-- Carries out a command. -/
def runCommand (settings : Settings) (audience : Audience) (c : Command) : IO UInt32 := do
  let schema ← c.schema.mapM readText
  let document ← readText c.input
  let drawn ← IO.rand 0 Request.maxSeed.toNat
  let traced := c.run settings.compiler ⟨document, schema⟩ drawn
  sayEvents settings.logging.level traced.events
  match traced.result with
  | .ok r => sayResponse c r
  | .error f =>
    match Response.ofFault? audience f with
    | some r => sayResponse c r
    | none =>
      sayFlaw f
      return 1

/-- How the program is used. -/
def usage : String :=
  "usage: comfy-compiler [-h] [--version] [--log-level LEVEL] command input [options]\n" ++
  "commands: convert, bypass, analyze, prepare"

/-- Carries out a command line. -/
def main (args : List String) : IO UInt32 := do
  match parse args with
  | .error .help =>
    IO.println usage
    return 0
  | .error .malformed =>
    IO.eprintln usage
    return usageStatus.toUInt32
  | .ok .version =>
    IO.println versionLine
    return 0
  | .ok .usage =>
    IO.println usage
    return usageStatus.toUInt32
  | .ok (.run c) =>
    let env ← readEnvironment
    match Settings.ofEnvironment env with
    | .ok settings => runCommand settings (.ofEnvironment env) c
    | .error f =>
      sayFlaw f
      return 1
