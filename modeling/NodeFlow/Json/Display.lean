import NodeFlow.Json.Writer
import NodeFlow.Numeral
/-!
# Values as text

The text that a value leaves when it is put into a prompt, a title or a
message. A string stands for itself; inside lists and objects strings are
quoted. A value with an integer of too many digits in it has no text, here
or as a document.
-/

namespace NodeFlow.Json

mutual

/-- The text of a value inside another one. -/
def inner : Json → List Char
  | .null => "None".toList
  | .bool true => "True".toList
  | .bool false => "False".toList
  | .int i => intChars i
  | .float x => Binary64.Notation.message.chars x
  | .str s => (Text.quoted s).toList
  | .arr [] => ['[', ']']
  | .arr (v :: rest) => '[' :: (inner v ++ innerItems rest)
  | .obj [] => ['\x7b', '\x7d']
  | .obj ((k, v) :: rest) =>
    '\x7b' :: ((Text.quoted k).toList ++ ':' :: ' ' :: (inner v ++ innerFields rest))

/-- The items after the first, and the bracket. -/
def innerItems : List Json → List Char
  | [] => [']']
  | v :: rest => ',' :: ' ' :: (inner v ++ innerItems rest)

/-- The entries after the first, and the brace. -/
def innerFields : List (String × Json) → List Char
  | [] => ['\x7d']
  | (k, v) :: rest =>
    ',' :: ' ' :: ((Text.quoted k).toList ++ ':' :: ' ' :: (inner v ++ innerFields rest))

end

/-- The text of a value with strings quoted. -/
def inspect (v : Json) : String := String.ofList v.inner

/-- The text of a value. -/
def display : Json → String
  | .str s => s
  | v => v.inspect

/-! ## The limit of integers -/

mutual

/-- Whether no integer in the value has too many digits to be written. -/
def isWritable : Json → Bool
  | .int i => i.natAbs < Numeral.unwritable
  | .arr items => areWritable items
  | .obj fields => areFieldsWritable fields
  | _ => true

/-- Whether all of the values can be written. -/
def areWritable : List Json → Bool
  | [] => true
  | v :: rest => isWritable v && areWritable rest

/-- Whether the values of all entries can be written. -/
def areFieldsWritable : List (String × Json) → Bool
  | [] => true
  | (_, v) :: rest => isWritable v && areFieldsWritable rest

end

end NodeFlow.Json
