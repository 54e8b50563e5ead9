import NodeFlow.Numeral
import NodeFlow.Text.Digit
import NodeFlow.Text.Search
/-!
# Options on a command line

The words of a command line are options and plain words. An option has
several names and may take a value, which is the next plain word or is
attached to it. A long name may be shortened as long as it is still the
beginning of one name only, and options of one letter may be written
together. After a separator every word is plain.
-/

namespace NodeFlow.CommandLine

/-- What an option takes. -/
inductive OptionKind where
  | flag
  | text
  | integer
  /-- Nothing, and it asks for help only. -/
  | help
  deriving DecidableEq

/-- An option. -/
structure OptionSpec where
  key : String
  names : List String
  kind : OptionKind
  deriving DecidableEq

/-- Why a command line is not carried out. -/
inductive Halt where
  /-- It asks for help. -/
  | help
  /-- It cannot be understood. -/
  | malformed
  deriving DecidableEq

/-- What is attached to an option, and whether by an equals sign. -/
structure Attached where
  text : String
  byEquals : Bool
  deriving DecidableEq

/-- A word of a command line. -/
inductive Word where
  | plain
  | separator
  /-- An option under a name, with what is attached to it. -/
  | option (spec : OptionSpec) (name : String) (attached : Option Attached)
  /-- An option that is not known. -/
  | unknown
  deriving DecidableEq

/-- The option with a given name. -/
def specOf? (specs : List OptionSpec) (name : String) : Option OptionSpec :=
  specs.find? fun s => s.names.contains name

/-- A text cut in two at the first equals sign. -/
def cutAtEquals (arg : String) : Option (String × String) :=
  let cs := arg.toList
  if cs.contains '=' then
    some (String.ofList (cs.takeWhile (· ≠ '=')),
      String.ofList ((cs.dropWhile (· ≠ '=')).drop 1))
  else none

/-- Whether a name is a long one. -/
def isLong (name : String) : Bool := Text.startsWith name "--"

/-- The options that a shortened name may stand for, with what is attached to them. -/
def abbreviated (specs : List OptionSpec) (arg : String) :
    List (OptionSpec × String × Option Attached) :=
  let named := specs.flatMap fun s => s.names.map fun name => (s, name)
  if isLong arg then
    let (start, attached) := match cutAtEquals arg with
      | some (n, v) => (n, some (Attached.mk v true))
      | none => (arg, none)
    (named.filter fun n => Text.startsWith n.2 start).map fun n => (n.1, n.2, attached)
  else
    let letter := String.ofList (arg.toList.take 2)
    named.filterMap fun n =>
      if n.2 = letter then
        some (n.1, n.2, some ⟨String.ofList (arg.toList.drop 2), false⟩)
      else if Text.startsWith n.2 arg then some (n.1, n.2, none)
      else none

/-- Whether a word is a negative number. -/
def isNegativeNumber (arg : String) : Bool :=
  match arg.toList with
  | '-' :: cs =>
    let whole := cs.takeWhile Text.isDecimal
    match cs.dropWhile Text.isDecimal with
    | [] => !whole.isEmpty
    | '.' :: rest => !rest.isEmpty && rest.all Text.isDecimal
    | _ => false
  | _ => false

/-- What a word is. -/
def classify (specs : List OptionSpec) (arg : String) : Except Halt Word :=
  if !Text.startsWith arg "-" || arg = "-" then .ok .plain
  else
    match specOf? specs arg with
    | some s => .ok (.option s arg none)
    | none =>
      match (cutAtEquals arg).bind fun c => (specOf? specs c.1).map fun s => (s, c) with
      | some (s, name, value) => .ok (.option s name (some ⟨value, true⟩))
      | none =>
        match abbreviated specs arg with
        | [(s, name, attached)] => .ok (.option s name attached)
        | _ :: _ :: _ => .error .malformed
        | [] =>
          if isNegativeNumber arg || arg.toList.contains ' ' then .ok .plain else .ok .unknown

/-- What the words of a command line are. -/
def classifyAll (specs : List OptionSpec) : List String → Except Halt (List (Word × String))
  | [] => .ok []
  | "--" :: rest => .ok ((.separator, "--") :: rest.map fun arg => (.plain, arg))
  | arg :: rest => do
    let word ← classify specs arg
    return (word, arg) :: (← classifyAll specs rest)

/-- Options that were given, with their values. -/
abbrev Given := List (OptionSpec × Option String)

/-- What was taken off a command line: options, whether letters were left that no option has, and
the words behind. -/
structure Taken where
  given : Given
  isOverfull : Bool := false
  rest : List (Word × String)

/-- The options that a word gives. A letter that is left may be another option; at most as many
are looked at as the number. -/
def expand (specs : List OptionSpec) (spec : OptionSpec) (name : String)
    (attached : Option Attached) (rest : List (Word × String)) : Nat → Except Halt Taken
  | 0 => .error .malformed
  | n + 1 =>
    let takesValue := spec.kind = .text || spec.kind = .integer
    match attached with
    | none =>
      if takesValue then
        match rest with
        | (.plain, value) :: rest => .ok { given := [(spec, some value)], rest := rest }
        | _ => .error .malformed
      else .ok { given := [(spec, none)], rest := rest }
    | some a =>
      if takesValue then .ok { given := [(spec, some a.text)], rest := rest }
      else if isLong name || a.byEquals then .error .malformed
      else
        match a.text.toList with
        | [] => .error .malformed
        | '-' :: _ => .error .malformed
        | c :: cs =>
          let next := String.ofList ['-', c]
          match specOf? specs next with
          | none => .ok { given := [(spec, none)], isOverfull := true, rest := rest }
          | some s => do
            let tail : Option Attached := match cs with
              | [] => none
              | '=' :: value => some ⟨String.ofList value, true⟩
              | letters => some ⟨String.ofList letters, false⟩
            let taken ← expand specs s next tail rest n
            return { taken with given := (spec, none) :: taken.given }

/-- The options that an option word gives. -/
def take (specs : List OptionSpec) (spec : OptionSpec) (name : String)
    (attached : Option Attached) (rest : List (Word × String)) : Except Halt Taken :=
  expand specs spec name attached rest (((attached.map Attached.text).getD "").length + 1)

/-- Refuses options that ask for help or whose value is not an integer where one is called for. -/
def check : Given → Except Halt Given
  | [] => .ok []
  | (spec, value) :: rest =>
    match spec.kind with
    | .help => .error .help
    | .integer =>
      match Numeral.int? (value.getD "") with
      | .ok _ => (check rest).map ((spec, value) :: ·)
      | .error _ => .error .malformed
    | _ => (check rest).map ((spec, value) :: ·)

/-- The last value of an option. -/
def valueOf (given : Given) (key : String) : Option String :=
  ((given.filter fun g => g.1.key = key).getLast?).bind Prod.snd

/-- All values of an option. -/
def valuesOf (given : Given) (key : String) : List String :=
  (given.filter fun g => g.1.key = key).filterMap Prod.snd

/-- Whether an option was given. -/
def isGiven (given : Given) (key : String) : Bool := given.any fun g => g.1.key = key

/-! ## Words that are left -/

/-- What was read of a command line that takes one plain word. -/
structure Reading where
  given : Given := []
  input : Option String := none
  /-- Whether there were words that nothing takes. -/
  isOverfull : Bool := false

/-- Reads the words of a command that takes one plain word; at most as many as the number. -/
def readWords (specs : List OptionSpec) : Nat → List (Word × String) → Reading →
    Except Halt Reading
  | 0, _, r => .ok r
  | _, [], r => .ok r
  | n + 1, (.option spec name attached, _) :: rest, r => do
    let taken ← take specs spec name attached rest
    let more ← check taken.given
    readWords specs n taken.rest
      { r with given := r.given ++ more, isOverfull := r.isOverfull || taken.isOverfull }
  | n + 1, (.unknown, _) :: rest, r => readWords specs n rest { r with isOverfull := true }
  | n + 1, (.plain, arg) :: rest, r =>
    match r.input with
    | none =>
      let rest := match rest with
        | (.separator, _) :: after => after
        | other => other
      readWords specs n rest { r with input := some arg }
    | some _ => readWords specs n rest { r with isOverfull := true }
  | n + 1, (.separator, _) :: rest, r =>
    match r.input, rest with
    | none, (.plain, arg) :: after => readWords specs n after { r with input := some arg }
    | _, _ => readWords specs n rest { r with isOverfull := true }

/-- Reads a command line that takes options and one plain word. -/
def readCommand (specs : List OptionSpec) (args : List String) : Except Halt (Given × String) := do
  let words ← classifyAll specs args
  let r ← readWords specs words.length words {}
  match r.input with
  | some input => if r.isOverfull then throw .malformed else return (r.given, input)
  | none => throw .malformed

end NodeFlow.CommandLine
