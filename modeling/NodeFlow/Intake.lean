import NodeFlow.Json.Value
import NodeFlow.Numeral
import NodeFlow.Text.Search
/-!
# Declared fields

Submission requests and settings come as JSON values or as text, and are
read against a declaration: each field has a type, a default or none, and
bounds. Reading is lenient about numbers and truth values, and strict about
text. It gathers every issue instead of stopping at the first; an issue
names its place and what is wrong there.
-/

namespace NodeFlow.Intake

/-- One step on the way to a part of a value. -/
inductive Place where
  | key (name : String)
  | item (index : Nat)
  deriving DecidableEq

/-- What is wrong with a part of a value. -/
inductive IssueKind where
  | missing
  | extraForbidden
  | stringType
  | stringTooShort
  | stringTooLong
  | intType
  | intParsing
  | intParsingSize
  | intFromFloat
  | finiteNumber
  | greaterThanEqual
  | lessThanEqual
  | floatType
  | floatParsing
  | boolType
  | boolParsing
  | listType
  | dictType
  | modelType
  deriving DecidableEq

/-- The name of an issue. -/
def IssueKind.name : IssueKind → String
  | .missing => "missing"
  | .extraForbidden => "extra_forbidden"
  | .stringType => "string_type"
  | .stringTooShort => "string_too_short"
  | .stringTooLong => "string_too_long"
  | .intType => "int_type"
  | .intParsing => "int_parsing"
  | .intParsingSize => "int_parsing_size"
  | .intFromFloat => "int_from_float"
  | .finiteNumber => "finite_number"
  | .greaterThanEqual => "greater_than_equal"
  | .lessThanEqual => "less_than_equal"
  | .floatType => "float_type"
  | .floatParsing => "float_parsing"
  | .boolType => "bool_type"
  | .boolParsing => "bool_parsing"
  | .listType => "list_type"
  | .dictType => "dict_type"
  | .modelType => "model_type"

/-- Something wrong at a place. -/
structure Issue where
  place : List Place
  kind : IssueKind
  deriving DecidableEq

/-- A step as text. -/
def Place.text : Place → String
  | .key name => name
  | .item index => toString index

/-- An issue as text. -/
def Issue.text (i : Issue) : String :=
  String.intercalate "." (i.place.map Place.text) ++ ": " ++ i.kind.name

/-- The result of reading: a value, or every issue found. -/
abbrev Checked (α : Type) := Except (List Issue) α

namespace Checked

variable {α β : Type}

/-- A single issue at the value itself. -/
def fail (kind : IssueKind) : Checked α := .error [⟨[], kind⟩]

/-- Moves the issues one step further in. -/
def under (step : Place) : Checked α → Checked α
  | .ok a => .ok a
  | .error issues => .error (issues.map fun i => ⟨step :: i.place, i.kind⟩)

/-- Applies a read function to a read value; the issues of both are kept, in this order. -/
def ap : Checked (α → β) → Checked α → Checked β
  | .ok f, .ok a => .ok (f a)
  | .ok _, .error e => .error e
  | .error e, .ok _ => .error e
  | .error e, .error e' => .error (e ++ e')

/-- Reads every item of a list, counting from an index. -/
def items (read : Json → Checked α) : Nat → List Json → Checked (List α)
  | _, [] => .ok []
  | i, v :: rest =>
    let head : Checked (List α → List α) := ((read v).under (.item i)).map List.cons
    head.ap (items read (i + 1) rest)

/-- Reads the value of every entry. -/
def entries (read : Json → Checked α) : Fields → Checked (List (String × α))
  | [] => .ok []
  | (k, v) :: rest =>
    let head : Checked (List (String × α) → List (String × α)) :=
      ((read v).under (.key k)).map fun a => ((k, a) :: ·)
    head.ap (entries read rest)

end Checked

/-! ## Text -/

/-- A string. -/
def text : Json → Checked String
  | .str s => .ok s
  | _ => .fail .stringType

/-! ## Integers -/

/-- Drops a leading run of zeros, in which single underscores may stand between digits, down to
the last zero before the end or a point. The text must begin with a digit. -/
def dropZeros : List Char → Option (List Char)
  | '0' :: rest => go '0' rest
  | c :: rest => if '1' ≤ c && c ≤ '9' then some (c :: rest) else none
  | [] => none
where
  /-- The rest of the run after the given character of it. -/
  go : Char → List Char → Option (List Char)
  | last, [] => if last = '_' then none else some ['0']
  | last, c :: rest =>
    if c = '0' then go c rest
    else if c = '_' then if last = '_' then none else go c rest
    else if '1' ≤ c && c ≤ '9' then some (c :: rest)
    else if c = '.' && last = '0' then some ('0' :: c :: rest)
    else none

/-- Drops a point with nothing but zeros behind it. -/
def dropFraction (cs : List Char) : List Char :=
  let fraction := (cs.dropWhile (· ≠ '.')).drop 1
  if cs.contains '.' && fraction.all (· = '0') then cs.takeWhile (· ≠ '.') else cs

/-- Drops underscores, if none stands at an end or beside another. -/
def dropUnderscores (cs : List Char) : Option (List Char) :=
  if cs.head? = some '_' || cs.getLast? = some '_' || Text.occurs ['_', '_'] cs then none
  else some (cs.filter (· ≠ '_'))

/-- The digits of an unsigned integer: a zero alone, or a run that starts otherwise. -/
def plainDigits? (cs : List Char) : Option Nat :=
  match cs with
  | [] => none
  | ['0'] => some 0
  | '0' :: _ => none
  | _ => if cs.all Numeral.isAsciiDigit then some (Numeral.digitsValue cs) else none

/-- The integer that a text spells, which may stand between blanks, have a sign, leading zeros,
single underscores and a fraction of zeros. -/
def intOfText (s : String) : Checked Int :=
  let trimmed := Text.trimChars Text.isBlank s.toList
  let (negative, body) := match trimmed with
    | '-' :: rest => (true, some rest)
    | '+' :: '-' :: _ => (false, none)
    | '+' :: rest => (false, dropZeros rest)
    | cs => (false, dropZeros cs)
  let cleaned := body.bind fun cs => dropUnderscores (dropFraction cs)
  match cleaned.bind plainDigits? with
  | none => .fail .intParsing
  | some n =>
    if Numeral.digitLimit < (cleaned.getD []).length then .fail .intParsingSize
    else .ok (if negative then -(n : Int) else n)

/-- An integer, also from a truth value, an integral double or text. -/
def int : Json → Checked Int
  | .int i => .ok i
  | .bool b => .ok (if b then 1 else 0)
  | .float x =>
    if !x.isFinite then .fail .finiteNumber
    else
      match x.toInt? with
      | none => .fail .intFromFloat
      | some i => if i.natAbs < Nat.pow 2 63 then .ok i else .fail .intParsingSize
  | .str s => intOfText s
  | _ => .fail .intType

/-- Requires an integer within bounds. -/
def bounded (low high : Int) (i : Int) : Checked Int :=
  if high < i then .fail .lessThanEqual
  else if i < low then .fail .greaterThanEqual
  else .ok i

/-! ## Doubles -/

/-- The double that a text spells. -/
def floatOfText (s : String) : Checked Binary64 :=
  let cs := s.toList
  let direct := Numeral.asciiFloat? (Text.trimChars Text.isBlank cs)
  let loose := (dropUnderscores cs).bind fun d =>
    Numeral.asciiFloat? (Text.trimChars Text.isBlank d)
  match direct, loose with
  | some x, _ => .ok x
  | none, some x => .ok x
  | none, none => .fail .floatParsing

/-- A double, also from an integer, a truth value or text. -/
def float : Json → Checked Binary64
  | .float x => .ok x
  | .bool b => .ok (if b then .one else .zero)
  | .int i =>
    match Binary64.ofInt? i with
    | some x => .ok x
    | none => .fail .floatType
  | .str s => floatOfText s
  | _ => .fail .floatType

/-! ## Truth values -/

/-- The words for true. -/
def trueWords : List String := ["1", "on", "t", "true", "y", "yes"]

/-- The words for false. -/
def falseWords : List String := ["0", "off", "f", "false", "n", "no"]

/-- The truth value that a word stands for, in any case of its letters. -/
def boolOfText (s : String) : Checked Bool :=
  let word := String.ofList (Numeral.asciiLower s.toList)
  if trueWords.contains word then .ok true
  else if falseWords.contains word then .ok false
  else .fail .boolParsing

/-- The truth value of a number. -/
def boolOfInt (i : Int) : Checked Bool :=
  if i = 0 then .ok false else if i = 1 then .ok true else .fail .boolParsing

/-- A truth value, also from the numbers zero and one or from a word. -/
def bool : Json → Checked Bool
  | .bool b => .ok b
  | .int i => boolOfInt i
  | .float x =>
    match x.toInt? with
    | some i => if i.natAbs < Nat.pow 2 63 then boolOfInt i else .fail .boolType
    | none => .fail .boolType
  | .str s => boolOfText s
  | _ => .fail .boolType

/-! ## Composite values -/

/-- A list of values of one type. -/
def list {α : Type} (read : Json → Checked α) : Json → Checked (List α)
  | .arr vs => .items read 0 vs
  | _ => .fail .listType

/-- An object whose values have one type. -/
def dict {α : Type} (read : Json → Checked α) : Json → Checked (List (String × α))
  | .obj fs => .entries read fs
  | _ => .fail .dictType

/-- Any value. -/
def any (v : Json) : Checked Json := .ok v

/-- A field of an object that must be there. -/
def required {α : Type} (fs : Fields) (name : String) (read : Json → Checked α) : Checked α :=
  (match Entries.get? fs name with
    | some v => read v
    | none => .fail .missing).under (.key name)

/-- A field of an object with a default. -/
def optional {α : Type} (fs : Fields) (name : String) (read : Json → Checked α) (default : α) :
    Checked α :=
  (match Entries.get? fs name with
    | some v => read v
    | none => .ok default).under (.key name)

/-- Refuses the fields of an object that are not among the declared ones. -/
def onlyKnown (fs : Fields) (declared : List String) : Checked Unit :=
  match fs.filter fun f => !declared.contains f.1 with
  | [] => .ok ()
  | extra => .error (extra.map fun f => ⟨[.key f.1], .extraForbidden⟩)

end NodeFlow.Intake
