import NodeFlow.Intake
import NodeFlow.Json.Reader
import NodeFlow.Report
/-!
# Failures

Everything that can end an operation without a result. A reported failure
carries its `Report`; a rejected one the issues found while reading declared
fields; the others are the plain causes that a malformed value brings about
where its shape is taken for granted.
-/

namespace NodeFlow

/-- Why a value is not accepted although it has the right shape. -/
inductive BadValue where
  /-- A text or other value, shown quoted, is not the name of a choice of the given sort. -/
  | unknownChoice (shown sort : String)
  /-- A text does not spell an integer. -/
  | notInteger (text : String)
  /-- A text does not spell a number. -/
  | notNumber (text : String)
  /-- An integer has too many digits. -/
  | longInteger (digits : Nat)
  /-- An integer has too many digits to be written. -/
  | unwritableInteger
  /-- No number has no integer part. -/
  | nanAsInteger
  /-- A message layout without a directive. -/
  | emptyLayout (layout : String)
  /-- A message layout asks for a field that the record lacks. -/
  | absentField (name : String)
  /-- A directive of a message is not known. -/
  | unknownDirective (directive : Char) (index : Nat)
  /-- A directive of a message is cut short. -/
  | cutDirective
  /-- The name in a directive of a message is not closed. -/
  | openName
  deriving DecidableEq

/-- The number of characters that are shown of a text that spells no integer. -/
def BadValue.shownLength : Nat := 200

/-- The wording of a bad value. -/
def BadValue.message : BadValue → String
  | .unknownChoice shown sort => s!"{shown} is not a valid {sort}"
  | .notInteger text =>
    "invalid literal for int() with base 10: " ++
      String.ofList ((Text.quoted text).toList.take shownLength)
  | .notNumber text => "could not convert string to float: " ++ Text.quoted text
  | .longInteger digits => (Json.Flaw.longInteger digits).message
  | .unwritableInteger =>
    s!"Exceeds the limit ({Numeral.digitLimit} digits) for integer string conversion; " ++
      "use sys.set_int_max_str_digits() to increase the limit"
  | .nanAsInteger => "cannot convert float NaN to integer"
  | .emptyLayout layout => s!"Invalid format '{layout}' for '%' style"
  | .absentField name => "Formatting field not found in record: " ++ Text.quoted name
  | .unknownDirective directive index =>
    let shown := if 32 ≤ directive.toNat ∧ directive.toNat < 127 then directive else '?'
    "unsupported format character '" ++ shown.toString ++ "' (0x" ++
      String.ofList (Nat.toDigits 16 directive.toNat) ++ s!") at index {index}"
  | .cutDirective => "incomplete format"
  | .openName => "incomplete format key"

/-- Why a file cannot be read or written. -/
inductive FileError where
  /-- There is no such file. -/
  | missing (path : String)
  /-- The path is that of a directory. -/
  | directory (path : String)
  /-- Something else, as the system puts it. -/
  | other (text : String)
  deriving DecidableEq

namespace FileError

/-- The name of the kind of a file error. -/
def kindName : FileError → String
  | .missing _ => "FileNotFoundError"
  | .directory _ => "IsADirectoryError"
  | .other _ => "OSError"

/-- The wording of a file error. -/
def message : FileError → String
  | .missing path => "[Errno 2] No such file or directory: " ++ Text.quoted path
  | .directory path => "[Errno 21] Is a directory: " ++ Text.quoted path
  | .other text => text

end FileError

/-- Why an operation has no result. -/
inductive Fault where
  /-- An error with a report for its readers. -/
  | reported (report : Report)
  /-- Declared fields that could not be read. -/
  | rejected (issues : List Intake.Issue)
  /-- A value that is not accepted. -/
  | badValue (reason : BadValue)
  /-- A text that is not JSON. -/
  | notJson (error : Json.ReadError)
  /-- A value of the wrong type. -/
  | wrongType
  /-- A value that lacks an operation of the type it was taken for. -/
  | noMember
  /-- A key that is not there. -/
  | absentKey (name : String)
  /-- A number beyond the range of the target. -/
  | tooLarge
  /-- An index that is not there. -/
  | noItem
  /-- A structured setting that is not JSON. -/
  | unreadableSetting (name : String)
  /-- A file that cannot be read or written. -/
  | file (error : FileError)

namespace Fault

/-- The failure to read a JSON text. -/
def ofRead (e : Json.ReadError) : Fault :=
  match e.flaw with
  | .longInteger digits => .badValue (.longInteger digits)
  | _ => .notJson e

/-- The failure of a name that is none of the choices of a sort. -/
def unknownChoice (value : Json) (sort : String) : Fault :=
  .badValue (.unknownChoice value.inspect sort)

/-- The name of the kind of a failure. -/
def kindName : Fault → String
  | .reported r => r.kind.name
  | .rejected _ => "ValidationError"
  | .badValue _ => "ValueError"
  | .notJson _ => "JSONDecodeError"
  | .wrongType => "TypeError"
  | .noMember => "AttributeError"
  | .absentKey _ => "KeyError"
  | .tooLarge => "OverflowError"
  | .noItem => "IndexError"
  | .unreadableSetting _ => "SettingsError"
  | .file e => e.kindName

/-- The wording of a failure, where it has one of its own. -/
def message? : Fault → Option String
  | .reported r => some r.message
  | .badValue reason => some reason.message
  | .notJson e => some e.message
  | .absentKey name => some (Text.quoted name)
  | .unreadableSetting name => some ("The setting " ++ Text.quoted name ++ " is not JSON")
  | .file e => some e.message
  | _ => none

/-- A failure as the cause of a report. -/
def toCause (f : Fault) : Cause := ⟨f.kindName, f.message?.getD ""⟩

end Fault

/-- Reads a JSON text, or fails. -/
def readJson (text : String) : Except Fault Json :=
  match Json.read text with
  | .ok v => .ok v
  | .error e => .error (.ofRead e)

/-- The double that a value stands for where a number is called for. -/
def numberOf : Json → Except Fault Binary64
  | .float x => .ok x
  | .bool b => .ok (if b then .one else .zero)
  | .int i =>
    match Binary64.ofInt? i with
    | some x => .ok x
    | none => .error .tooLarge
  | .str s =>
    match Numeral.float? s with
    | some x => .ok x
    | none => .error (.badValue (.notNumber s))
  | _ => .error .wrongType

/-- The integer that a text spells, or the failure. -/
def integerOfText (s : String) : Except Fault Int :=
  match Numeral.int? s with
  | .ok i => .ok i
  | .error .malformed => .error (.badValue (.notInteger s))
  | .error (.tooLong digits) => .error (.badValue (.longInteger digits))

/-- A result that is there if the integers it takes can be written; if not, that is the failure. -/
def withinLimit {α : Type} (isWritable : Bool) (a : α) : Except Fault α :=
  if isWritable then .ok a else .error (.badValue .unwritableInteger)

/-- The text that a value leaves, or the failure where an integer in it has too many digits. -/
def textOf (v : Json) : Except Fault String := withinLimit v.isWritable v.display

/-- The text of an integer, or the failure where it has too many digits. -/
def textOfInteger (i : Int) : Except Fault String := textOf (.int i)

/-- The integer that a value stands for where one is called for; fractions are cut off. -/
def integerOf : Json → Except Fault Int
  | .int i => .ok i
  | .bool b => .ok (if b then 1 else 0)
  | .float x =>
    match x.truncate? with
    | some i => .ok i
    | none => .error (if x.isNaN then .badValue .nanAsInteger else .tooLarge)
  | .str s => integerOfText s
  | _ => .error .wrongType

/-! ## Results -/

/-- A sequence has a result only where its parts have. -/
theorem exists_of_bind_eq_ok {α β ε : Type} {x : Except ε α} {f : α → Except ε β} {b : β}
    (h : x >>= f = .ok b) : ∃ a, x = .ok a ∧ f a = .ok b := by
  cases x with
  | error e => cases h
  | ok a => exact ⟨a, rfl, h⟩

/-- What is made of a result is there only where the result is. -/
theorem exists_of_map_eq_ok {α β ε : Type} {x : Except ε α} {f : α → β} {b : β}
    (h : x.map f = .ok b) : ∃ a, x = .ok a ∧ f a = b := by
  cases x with
  | error e => cases h
  | ok a => exact ⟨a, rfl, Except.ok.inj h⟩

theorem eq_ok_of_toOption {α ε : Type} {x : Except ε α} {a : α} (h : x.toOption = some a) :
    x = .ok a := by
  cases x with
  | error e => cases h
  | ok b => exact congrArg Except.ok (Option.some.inj h)

end NodeFlow
