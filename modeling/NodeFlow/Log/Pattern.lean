import NodeFlow.Fault
/-!
# Message patterns

A pattern is text with directives, each a percent sign, perhaps the name of
a value in parentheses, flags, a width, a precision, and the letter of a
conversion. Filling in a pattern takes the values one after the other, or by
name from a table. A row of values must be used up; a table need not be.
-/

namespace NodeFlow.Log

/-- A width or precision: given, or taken from the values. -/
inductive Count where
  | given (n : Nat)
  | taken
  deriving DecidableEq

/-- A directive of a pattern. -/
structure Directive where
  name : Option String := none
  flags : List Char := []
  width : Option Count := none
  precision : Option Count := none
  /-- The letter of the conversion, unless the pattern ends before it. -/
  conversion : Option Char
  /-- The place of the conversion in the pattern. -/
  place : Nat
  deriving DecidableEq

/-- A piece of a pattern. -/
inductive Piece where
  | char (c : Char)
  | directive (d : Directive)
  /-- The rest of a pattern in which the name of a value is not closed. -/
  | openName
  deriving DecidableEq

/-! ## Reading -/

/-- The flags of directives. -/
def flagChars : List Char := ['-', '+', ' ', '#', '0']

/-- The letters that may stand in front of a conversion and mean nothing. -/
def sizeChars : List Char := ['h', 'l', 'L']

/-- The text up to the parenthesis that closes a number of open ones, and what follows it. -/
def closing : Nat → List Char → Option (List Char × List Char)
  | _, [] => none
  | depth, c :: rest =>
    if c = ')' then
      if depth ≤ 1 then some ([], rest)
      else (closing (depth - 1) rest).map fun r => (c :: r.1, r.2)
    else (closing (if c = '(' then depth + 1 else depth) rest).map fun r => (c :: r.1, r.2)

/-- Reads a width or precision. -/
def readCount : List Char → Option Count × List Char
  | '*' :: rest => (some .taken, rest)
  | cs =>
    let digits := cs.takeWhile Numeral.isAsciiDigit
    (if digits.isEmpty then none else some (.given (Numeral.digitsValue digits)),
      cs.dropWhile Numeral.isAsciiDigit)

/-- Reads what follows the percent sign and perhaps the name of a directive, in a pattern of a given
length. -/
def readRest (length : Nat) (name : Option String) (cs : List Char) : Directive × List Char :=
  let flags := cs.takeWhile flagChars.contains
  let (width, cs) := readCount (cs.dropWhile flagChars.contains)
  let (precision, cs) := match cs with
    | '.' :: rest => ((readCount rest).1.or (some (.given 0)), (readCount rest).2)
    | cs => (none, cs)
  let cs := match cs with
    | c :: rest => if sizeChars.contains c then rest else c :: rest
    | [] => []
  (⟨name, flags, width, precision, cs.head?, length - cs.length⟩, cs.drop 1)

/-- Reads what follows the percent sign of a directive, unless a name is not closed. -/
def readDirective (length : Nat) (cs : List Char) : Option (Directive × List Char) :=
  match cs with
  | '(' :: rest => (closing 1 rest).map fun r => readRest length (some (String.ofList r.1)) r.2
  | cs => some (readRest length none cs)

/-- Reads the pieces of what is left of a pattern, at most as many as given. A percent sign that is
written twice stands for itself. -/
def readPieces (length : Nat) : Nat → List Char → List Piece
  | 0, _ => []
  | _, [] => []
  | n + 1, '%' :: '%' :: cs => .char '%' :: readPieces length n cs
  | n + 1, '%' :: cs =>
    match readDirective length cs with
    | some (d, rest) => .directive d :: readPieces length n rest
    | none => [.openName]
  | n + 1, c :: cs => .char c :: readPieces length n cs

/-- The pieces of a pattern. -/
def pieces (pattern : String) : List Piece :=
  readPieces pattern.length pattern.length pattern.toList

/-! ## Values -/

/-- The values that are left to be filled in, and the table they can be taken from by name. -/
structure Supply where
  row : List Json
  table : Option Fields := none

/-- A row of values. -/
def Supply.ofRow (vs : List Json) : Supply := ⟨vs, none⟩

/-- A table of values. -/
def Supply.ofTable (fs : Fields) : Supply := ⟨[.obj fs], some fs⟩

/-- The next value. -/
def Supply.next (s : Supply) : Except Fault (Json × Supply) :=
  match s.row with
  | v :: rest => .ok (v, { s with row := rest })
  | [] => .error .wrongType

/-- Makes the value of a name the next one. -/
def Supply.select (s : Supply) (name : String) : Except Fault Supply :=
  match s.table with
  | none => .error .wrongType
  | some fs =>
    match Entries.get? fs name with
    | some v => .ok { s with row := [v] }
    | none => .error (.absentKey name)

/-- The least count that is too large to be taken from the values. -/
def countLimit : Nat := Nat.pow 2 31

/-- A count that may have to be taken from the values; one that is taken must be an integer. -/
def Supply.count (s : Supply) : Option Count → Except Fault (Option Int × Supply)
  | none => .ok (none, s)
  | some (.given n) => .ok (some n, s)
  | some .taken => do
    let (v, s) ← s.next
    match v with
    | .int i => if countLimit ≤ i.natAbs then throw .tooLarge else return (some i, s)
    | .bool b => return (some (if b then 1 else 0), s)
    | _ => throw .wrongType

/-! ## Conversions -/

/-- The text of a value under a conversion: its sign, what stands in front of its digits, and the
digits or other text. -/
structure Spelled where
  sign : List Char := []
  lead : List Char := []
  body : List Char
  isNumber : Bool := true

/-- A number spelled with its sign. -/
def Spelled.ofSigned (cs : List Char) : Spelled :=
  match cs with
  | '-' :: rest => { sign := ['-'], body := rest }
  | rest => { body := rest }

/-- An integer in a base, with at least a number of digits. -/
def spellInt (base least : Nat) (lead : List Char) (i : Int) : Spelled :=
  let digits := Nat.toDigits base i.natAbs
  { sign := if i < 0 then ['-'] else [], lead := lead
    body := List.replicate (least - digits.length) '0' ++ digits }

/-- An integer, also from a double, whose fraction is cut off. -/
def wholeOf : Json → Except Fault Int
  | .str _ => .error .wrongType
  | v => integerOf v

/-- An integer that is one already. -/
def exactOf : Json → Except Fault Int
  | .int i => .ok i
  | .bool b => .ok (if b then 1 else 0)
  | _ => .error .wrongType

/-- A double, but not from a text. -/
def realOf : Json → Except Fault Binary64
  | .str _ => .error .wrongType
  | v => numberOf v

/-- Characters with all others than ASCII ones escaped. -/
def asciiEscape (c : Char) : List Char :=
  let n := c.toNat
  if n < 0x80 then [c]
  else if n < 0x100 then '\\' :: 'x' :: Text.hex 2 n
  else if n < 0x10000 then '\\' :: 'u' :: Text.hex 4 n
  else '\\' :: 'U' :: Text.hex 8 n

/-- A text cut to a number of characters. -/
def spellText (limit : Option Nat) (cs : List Char) : Spelled :=
  { body := (match limit with
      | some n => cs.take n
      | none => cs)
    isNumber := false }

/-- A value under a conversion. -/
def spell (d : Directive) (conversion : Char) (precision : Option Nat) (v : Json) :
    Except Fault Spelled :=
  let alternate := d.flags.contains '#'
  let upper (s : Spelled) : Spelled := { s with body := s.body.map Char.toUpper }
  let places := precision.getD 6
  match conversion with
  | 's' => .ok (spellText precision v.display.toList)
  | 'r' => .ok (spellText precision v.inspect.toList)
  | 'a' => .ok (spellText precision (v.inspect.toList.flatMap asciiEscape))
  | 'd' | 'i' | 'u' => (wholeOf v).map (spellInt 10 (precision.getD 0) [])
  | 'x' => (exactOf v).map (spellInt 16 (precision.getD 0) (if alternate then ['0', 'x'] else []))
  | 'X' =>
    (exactOf v).map fun i =>
      upper (spellInt 16 (precision.getD 0) (if alternate then ['0', 'X'] else []) i)
  | 'o' => (exactOf v).map (spellInt 8 (precision.getD 0) (if alternate then ['0', 'o'] else []))
  | 'f' => (realOf v).map fun x => .ofSigned (Binary64.fixedPlaces places x).toList
  | 'F' => (realOf v).map fun x => upper (.ofSigned (Binary64.fixedPlaces places x).toList)
  | 'e' => (realOf v).map fun x => .ofSigned (Binary64.scientificPlaces places x).toList
  | 'E' => (realOf v).map fun x => upper (.ofSigned (Binary64.scientificPlaces places x).toList)
  | 'g' =>
    (realOf v).map fun x =>
      .ofSigned (Binary64.significantPlaces (max places 1) alternate x).toList
  | 'G' =>
    (realOf v).map fun x =>
      upper (.ofSigned (Binary64.significantPlaces (max places 1) alternate x).toList)
  | 'c' =>
    match v with
    | .str s => if s.length = 1 then .ok (spellText none s.toList) else .error .wrongType
    | other =>
      (exactOf other).bind fun i =>
        if 0 ≤ i ∧ i < 0x110000 then .ok (spellText none [Char.ofNat i.toNat])
        else .error .tooLarge
  | c => .error (.badValue (.unknownDirective c d.place))

/-- Brings a text to a width. -/
def Spelled.pad (s : Spelled) (flags : List Char) (width : Int) : List Char :=
  let sign :=
    if s.isNumber && s.sign.isEmpty then
      if flags.contains '+' then ['+'] else if flags.contains ' ' then [' '] else []
    else s.sign
  let left := flags.contains '-' || width < 0
  let gap := width.natAbs - (sign.length + s.lead.length + s.body.length)
  if left then sign ++ s.lead ++ s.body ++ List.replicate gap ' '
  else if s.isNumber && flags.contains '0' then
    sign ++ s.lead ++ List.replicate gap '0' ++ s.body
  else List.replicate gap ' ' ++ sign ++ s.lead ++ s.body

/-- Fills in a directive. -/
def fillDirective (d : Directive) (s : Supply) : Except Fault (List Char × Supply) := do
  let s ← match d.name with
    | some name => s.select name
    | none => pure s
  let (width, s) ← s.count d.width
  let (precision, s) ← s.count d.precision
  match d.conversion with
  | none => throw (.badValue .cutDirective)
  | some conversion =>
    let (v, s) ← s.next
    let spelled ← spell d conversion (precision.map Int.toNat) v
    return (spelled.pad d.flags (width.getD 0), s)

/-- Fills in the pieces of a pattern. -/
def fillPieces : List Piece → Supply → Except Fault (List Char)
  | [], s => if s.row.isEmpty || s.table.isSome then .ok [] else .error .wrongType
  | .char c :: rest, s => (fillPieces rest s).map (c :: ·)
  | .openName :: _, s => .error (if s.table.isSome then .badValue .openName else .wrongType)
  | .directive d :: rest, s =>
    match fillDirective d s with
    | .error e => .error e
    | .ok (cs, s) => (fillPieces rest s).map (cs ++ ·)

/-- Fills in a pattern. -/
def fillPattern (pattern : String) (s : Supply) : Except Fault String :=
  (fillPieces (pieces pattern) s).map String.ofList

end NodeFlow.Log
