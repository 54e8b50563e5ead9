import NodeFlow.Json.Display
import NodeFlow.Settings
import NodeFlow.Text.Blank
/-!
# Chains of modifiers

A chain lists model modifiers by file name, each with a strength within the
configured bounds. Editing a chain yields a new one, or nothing where the
edit does not apply. Chains are saved as JSON; a saved entry without a name
is passed over.
-/

namespace NodeFlow

/-- A modifier and how strongly it is applied. -/
structure Selection where
  name : String
  strength : Binary64
  deriving DecidableEq

/-- Modifiers in the order they are applied. -/
abbrev Chain := List Selection

namespace Selection

/-- The nearest strength within the configured bounds. -/
def clamp (cfg : CompilerSettings) (x : Binary64) : Binary64 :=
  let raised := if x.lt cfg.minStrength then cfg.minStrength else x
  if cfg.maxStrength.lt raised then cfg.maxStrength else raised

/-- The longest name of a modifier. -/
def maxNameLength : Nat := 500

open Intake in
/-- Reads a name: without the blanks around it, it must be neither empty nor too long. -/
def readName (v : Json) : Checked String := do
  let name := NodeFlow.Text.trimBlank (← text v)
  if name = "" then Checked.fail .stringTooShort
  else if maxNameLength < name.length then Checked.fail .stringTooLong
  else return name

open Intake in
/-- Reads a strength and brings it within bounds. -/
def readStrength (cfg : CompilerSettings) (v : Json) : Checked Binary64 := (float v).map (clamp cfg)

open Intake in
/-- Reads a selection from the entries of an object; the strength may be missing. -/
def ofFields (cfg : CompilerSettings) (fs : Fields) : Checked Selection :=
  let r : Checked (Binary64 → Selection) := (required fs "name" readName).map Selection.mk
  r.ap (optional fs "strength" (readStrength cfg) .one)

/-- Reads a selection from a value. -/
def ofJson (cfg : CompilerSettings) : Json → Intake.Checked Selection
  | .obj fs => ofFields cfg fs
  | _ => .fail .modelType

/-- Reads a selection, or fails. -/
def read (cfg : CompilerSettings) (fs : Fields) : Except Fault Selection :=
  match ofFields cfg fs with
  | .ok s => .ok s
  | .error issues => .error (.rejected issues)

/-- The selection as an object. -/
def toJson (s : Selection) : Json := .obj [("name", .str s.name), ("strength", .float s.strength)]

end Selection

namespace Chain

/-- Reads a chain from a value: nothing at all is the empty chain, and the items of a list are
objects. -/
def ofJson (cfg : CompilerSettings) (raw : Json) : Except Fault Chain :=
  match raw with
  | .arr items =>
    items.mapM fun item =>
      match item with
      | .obj fs => Selection.read cfg fs
      | _ => .error .wrongType
  | v => if v.isTruthy then .error .wrongType else .ok []

/-! ## Editing -/

/-- Appends the first of the modifiers that are available, unless the chain has reached the limit.
Its name is read like that of any selection. -/
def add (cfg : CompilerSettings) (c : Chain) (available : List Json) (limit : Option Int) :
    Except Fault (Option Chain) :=
  match available with
  | [] => .ok none
  | name :: _ =>
    if limit.getD cfg.maxChainLength ≤ c.length then .ok none
    else
      (Selection.read cfg [("name", name), ("strength", .float cfg.defaultStrength)]).map
        fun s => some (c ++ [s])

/-- Whether an index is that of an entry. -/
def inRange (c : Chain) (index : Int) : Bool := 0 ≤ index && index < c.length

/-- Removes the entry at an index. -/
def remove (c : Chain) (index : Int) : Option Chain :=
  if c.inRange index then some (c.eraseIdx index.toNat) else none

/-- Changes the name of the entry at an index. -/
def rename (c : Chain) (index : Int) (name : String) : Option Chain :=
  if c.inRange index then some (c.modify index.toNat fun s => { s with name := name }) else none

/-- Changes the strength of the entry at an index, within bounds. -/
def setStrength (cfg : CompilerSettings) (c : Chain) (index : Int) (strength : Json) :
    Except Fault (Option Chain) :=
  if c.inRange index then
    (numberOf strength).map fun x =>
      some (c.modify index.toNat fun s => { s with strength := Selection.clamp cfg x })
  else .ok none

/-- Keeps the entries whose modifier is available. -/
def keepAvailable (c : Chain) (available : List String) : Chain :=
  c.filter fun s => available.contains s.name

/-! ## Saving -/

/-- The text of a saved chain. -/
def save (c : Chain) : String := Json.write .saved (.arr (c.map Selection.toJson))

/-- The name of a saved entry, without spacing around it; empty if there is none. -/
def savedName (fs : Fields) : String :=
  let name := (Entries.get? fs "name").getD .null
  Text.trimSpacing (if name.isTruthy then name.display else "")

/-- Restores the items of a saved chain. -/
def restoreItems (cfg : CompilerSettings) : List Json → Except Fault Chain
  | [] => .ok []
  | .obj fs :: rest =>
    let name := savedName fs
    if name = "" then restoreItems cfg rest
    else
      let strength := (Entries.get? fs "strength").getD (.float .one)
      match Selection.read cfg [("name", .str name), ("strength", strength)] with
      | .error e => .error e
      | .ok s => (restoreItems cfg rest).map (s :: ·)
  | _ :: rest => restoreItems cfg rest

/-- The beginning of a text, to be shown where all of it would be too long. -/
def excerpt (text : String) : String := String.ofList (text.toList.take 50)

/-- Restores a saved chain; no text is the empty chain. -/
def restore (cfg : CompilerSettings) (text : String) : Except Fault Chain :=
  if text = "" then .ok []
  else
    let refuse (reason : String) (cause : Option Cause) : Fault :=
      .reported (.parameter "modifier_chain" (.str (excerpt text)) (some reason) [] cause [])
    match Json.read text with
    | .ok (.arr items) => restoreItems cfg items
    | .ok _ => .error (refuse "expected a list" none)
    | .error e =>
      match Fault.ofRead e with
      | .notJson e => .error (refuse e.flaw.message (some (Fault.notJson e).toCause))
      | other => .error other

end Chain

end NodeFlow
