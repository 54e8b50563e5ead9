import NodeFlow.Json.Value
import NodeFlow.Binary64.Notation
import NodeFlow.Text.Quoted
/-!
# Writing JSON text

One writer serves all documents; a `Format` says how items are parted,
whether nested values go on lines of their own, whether characters beyond
ASCII are escaped and whether keys are sorted. Strings escape the quote, the
backslash and the controls below the space; escaping what is beyond ASCII
takes the delete character along.
-/

namespace NodeFlow.Json

/-- How a value is laid out as text. -/
structure Format where
  /-- What stands between two items. -/
  itemGap : String
  /-- What stands between a key and its value. -/
  keyGap : String
  /-- The blanks per level, if items go on lines of their own. -/
  indent : Option Nat
  /-- Whether characters beyond ASCII are escaped. -/
  asciiOnly : Bool
  /-- Whether the entries of an object are sorted by key. -/
  sorted : Bool

/-- Saved states: one line, ASCII only. -/
def Format.saved : Format := ⟨", ", ": ", none, true, false⟩

/-- What a digest is taken of: no blanks, ASCII only, keys sorted. -/
def Format.canonical : Format := ⟨",", ":", none, true, true⟩

/-- Documents for people: all characters as they are, on one line or indented. -/
def Format.readable (indent : Option Nat) : Format :=
  ⟨if indent.isNone then ", " else ",", ": ", indent, false, false⟩

/-- Answers between programs: no blanks, all characters as they are, keys sorted. -/
def Format.compact : Format := ⟨",", ":", none, false, true⟩

/-! ## Strings -/

/-- The escape of a UTF-16 unit. -/
def unitEscape (n : Nat) : List Char := '\\' :: 'u' :: Text.hex 4 n

/-- A character inside a string. -/
def stringChar (asciiOnly : Bool) (c : Char) : List Char :=
  let n := c.toNat
  if c = Text.doubleQuote then ['\\', c]
  else if c = '\\' then ['\\', '\\']
  else if c = '\n' then ['\\', 'n']
  else if c = '\r' then ['\\', 'r']
  else if c = '\t' then ['\\', 't']
  else if n = 8 then ['\\', 'b']
  else if n = 12 then ['\\', 'f']
  else if n < 32 then unitEscape n
  else if asciiOnly && 0x7E < n then
    if n < 0x10000 then unitEscape n
    else
      unitEscape (0xD800 + (n - 0x10000) / 0x400) ++ unitEscape (0xDC00 + (n - 0x10000) % 0x400)
  else [c]

/-- A string with its quotes. -/
def stringChars (asciiOnly : Bool) (s : String) : List Char :=
  Text.doubleQuote :: (s.toList.flatMap (stringChar asciiOnly) ++ [Text.doubleQuote])

/-! ## Values -/

/-- The decimal digits of an integer with its sign. -/
def intChars (i : Int) : List Char :=
  if i < 0 then '-' :: Binary64.digitChars i.natAbs else Binary64.digitChars i.natAbs

/-- The order of keys: by code point. -/
def keyLe (a b : String × Json) : Bool := !decide (b.1 < a.1)

/-- A line break with the blanks of a level. -/
def Format.lineBreak (f : Format) (level : Nat) : List Char :=
  match f.indent with
  | none => []
  | some n => '\n' :: List.replicate (n * level) ' '

mutual

/-- Sorts the entries of every object in a value by key. -/
def sortKeys : Json → Json
  | .arr items => .arr (sortItems items)
  | .obj fields => .obj ((sortFields fields).mergeSort keyLe)
  | v => v

/-- Sorts the entries of every object in the items. -/
def sortItems : List Json → List Json
  | [] => []
  | v :: rest => sortKeys v :: sortItems rest

/-- Sorts the entries of every object in the values of the entries. -/
def sortFields : List (String × Json) → List (String × Json)
  | [] => []
  | (k, v) :: rest => (k, sortKeys v) :: sortFields rest

end

mutual

/-- The text of a value at a level of nesting. -/
def chars (f : Format) (level : Nat) : Json → List Char
  | .null => "null".toList
  | .bool true => "true".toList
  | .bool false => "false".toList
  | .int i => intChars i
  | .float x => Binary64.Notation.document.chars x
  | .str s => stringChars f.asciiOnly s
  | .arr [] => ['[', ']']
  | .arr (v :: rest) =>
    '[' :: (f.lineBreak (level + 1) ++ chars f (level + 1) v ++ itemsChars f (level + 1) rest ++
      f.lineBreak level ++ [']'])
  | .obj [] => ['\x7b', '\x7d']
  | .obj ((k, v) :: rest) =>
    '\x7b' :: (f.lineBreak (level + 1) ++ stringChars f.asciiOnly k ++ f.keyGap.toList ++
      chars f (level + 1) v ++ fieldsChars f (level + 1) rest ++ f.lineBreak level ++ ['\x7d'])

/-- The text of the items after the first. -/
def itemsChars (f : Format) (level : Nat) : List Json → List Char
  | [] => []
  | v :: rest => f.itemGap.toList ++ f.lineBreak level ++ chars f level v ++ itemsChars f level rest

/-- The text of the entries after the first. -/
def fieldsChars (f : Format) (level : Nat) : List (String × Json) → List Char
  | [] => []
  | (k, v) :: rest =>
    f.itemGap.toList ++ f.lineBreak level ++ stringChars f.asciiOnly k ++ f.keyGap.toList ++
      chars f level v ++ fieldsChars f level rest

end

/-- The text of a value. -/
def write (f : Format) (v : Json) : String :=
  String.ofList (chars f 0 (if f.sorted then sortKeys v else v))

end NodeFlow.Json
