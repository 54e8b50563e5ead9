import NodeFlow.Json.Value
import NodeFlow.Numeral
/-!
# Reading JSON text

A recursive descent reader over lists of characters. Each part yields its
value and the rest of the text, with a proof that the rest is shorter. A
failure is a cause and the number of characters left at the place it is
blamed on; the place itself is worked out once, from the whole text. Beyond
the standard the words `NaN`, `Infinity` and `-Infinity` are read as
doubles. A key that comes again overwrites the value of the first one.
-/

namespace NodeFlow.Json

/-- What is wrong with a text that is not JSON. -/
inductive Flaw where
  | expectedValue
  | expectedName
  | expectedColon
  | expectedComma
  | extraData
  | unterminatedString
  | controlCharacter
  | badEscape
  | badCodeEscape
  | byteOrderMark
  /-- An integer with more digits than are read. -/
  | longInteger (digits : Nat)
  deriving DecidableEq

/-- The wording of a flaw. -/
def Flaw.message : Flaw → String
  | .expectedValue => "Expecting value"
  | .expectedName => "Expecting property name enclosed in double quotes"
  | .expectedColon => "Expecting ':' delimiter"
  | .expectedComma => "Expecting ',' delimiter"
  | .extraData => "Extra data"
  | .unterminatedString => "Unterminated string starting at"
  | .controlCharacter => "Invalid control character at"
  | .badEscape => "Invalid \\escape"
  | .badCodeEscape => "Invalid \\uXXXX escape"
  | .byteOrderMark => "Unexpected UTF-8 BOM (decode using utf-8-sig)"
  | .longInteger digits =>
    s!"Exceeds the limit ({Numeral.digitLimit} digits) for integer string conversion: " ++
      s!"value has {digits} digits; use sys.set_int_max_str_digits() to increase the limit"

/-- A flaw and the number of characters from the place of the flaw to the end of the text. -/
structure Failure where
  flaw : Flaw
  left : Nat
  deriving DecidableEq

/-- A value read from the front of a text, with the shorter rest. -/
structure Parsed (α : Type) (text : List Char) where
  value : α
  rest : List Char
  shorter : rest.length < text.length

/-- Fails at the front of a text. -/
def failAt {α : Type} (flaw : Flaw) (text : List Char) : Except Failure α :=
  .error ⟨flaw, text.length⟩

/-- The blanks that may stand between tokens. -/
def isSpace (c : Char) : Bool := c = ' ' || c = '\t' || c = '\n' || c = '\r'

/-- The text without blanks in front. -/
def skip (cs : List Char) : List Char := cs.dropWhile isSpace

theorem length_skip_le (cs : List Char) : (skip cs).length ≤ cs.length :=
  (List.dropWhile_sublist _).length_le

/-! ## Strings -/

/-- The value of a hexadecimal digit. -/
def hexValue? (c : Char) : Option Nat :=
  if '0' ≤ c && c ≤ '9' then some (c.toNat - 48)
  else if 'a' ≤ c && c ≤ 'f' then some (c.toNat - 87)
  else if 'A' ≤ c && c ≤ 'F' then some (c.toNat - 55)
  else none

/-- The number that four hexadecimal digits spell. -/
def hexQuad? (a b c d : Char) : Option Nat := do
  return 4096 * (← hexValue? a) + 256 * (← hexValue? b) + 16 * (← hexValue? c) + (← hexValue? d)

/-- The character for the letter of a short escape. -/
def shortEscape? (c : Char) : Option Char :=
  match c with
  | '"' => some '"'
  | '\\' => some '\\'
  | '/' => some '/'
  | 'b' => some (Char.ofNat 8)
  | 'f' => some (Char.ofNat 12)
  | 'n' => some '\n'
  | 'r' => some '\r'
  | 't' => some '\t'
  | _ => none

/-- The character for a UTF-16 unit; one of a broken pair becomes the replacement character. -/
def ofUnit (n : Nat) : Char := if 0xD800 ≤ n && n < 0xE000 then Char.ofNat 0xFFFD else Char.ofNat n

/-- The character for a pair of UTF-16 units. -/
def ofPair (high low : Nat) : Char :=
  Char.ofNat (0x10000 + (high - 0xD800) * 0x400 + (low - 0xDC00))

/-- The second unit of a pair at the front of a text: the escape of a low surrogate, with at
least one more character behind it. -/
def lowUnit? (cs : List Char) : Except Failure (Option Nat) :=
  match cs with
  | '\\' :: 'u' :: p :: q :: r :: s :: _ :: _ =>
    match hexQuad? p q r s with
    | none => .error ⟨.badCodeEscape, cs.length - 1⟩
    | some low => .ok (if 0xDC00 ≤ low && low < 0xE000 then some low else none)
  | _ => .ok none

/-- Reads what follows `\u`: four digits, and a second escape if the two make a pair. At least
one more character must follow the digits. -/
def codeEscape (text : List Char) : Except Failure (Parsed Char text) :=
  match text with
  | a :: b :: c :: d :: e :: rest =>
    match hexQuad? a b c d with
    | none => .error ⟨.badCodeEscape, rest.length + 6⟩
    | some unit =>
      if 0xD800 ≤ unit && unit < 0xDC00 then
        match lowUnit? (e :: rest) with
        | .error f => .error f
        | .ok none => .ok ⟨ofUnit unit, e :: rest, by simp⟩
        | .ok (some low) =>
          .ok ⟨ofPair unit low, rest.drop 5, by
            simp only [List.length_drop, List.length_cons]; omega⟩
      else .ok ⟨ofUnit unit, e :: rest, by simp⟩
  | _ => .error ⟨.badCodeEscape, text.length + 1⟩

/-- Reads the rest of a string; `start` is all that follows its opening quote. The characters read
so far are kept in reverse. -/
def string (start : List Char) (read : List Char) (text : List Char) :
    Except Failure (Parsed String text) :=
  match text with
  | [] => .error ⟨.unterminatedString, start.length + 1⟩
  | '"' :: rest => .ok ⟨String.ofList read.reverse, rest, by simp⟩
  | ['\\'] => .error ⟨.unterminatedString, start.length + 1⟩
  | '\\' :: 'u' :: rest =>
    match codeEscape rest with
    | .error e => .error e
    | .ok p =>
      have := p.shorter
      match string start (p.value :: read) p.rest with
      | .error e => .error e
      | .ok q => .ok ⟨q.value, q.rest, by have := q.shorter; simp; omega⟩
  | '\\' :: c :: rest =>
    match shortEscape? c with
    | none => .error ⟨.badEscape, rest.length + 2⟩
    | some x =>
      match string start (x :: read) rest with
      | .error e => .error e
      | .ok q => .ok ⟨q.value, q.rest, by have := q.shorter; simp; omega⟩
  | c :: rest =>
    if c.toNat < 32 then .error ⟨.controlCharacter, rest.length + 1⟩
    else
      match string start (c :: read) rest with
      | .error e => .error e
      | .ok q => .ok ⟨q.value, q.rest, by have := q.shorter; simp; omega⟩
termination_by text.length
decreasing_by all_goals (simp_wf <;> omega)

/-! ## Numbers and words -/

/-- The characters of a run of digits, and the rest. -/
def digitRun (cs : List Char) : List Char × List Char :=
  (cs.takeWhile Numeral.isAsciiDigit, cs.dropWhile Numeral.isAsciiDigit)

/-- The digits after a point, if a digit follows it. -/
def fractionPart (cs : List Char) : Option (List Char) × List Char :=
  match cs with
  | '.' :: d :: rest =>
    if Numeral.isAsciiDigit d then
      let run := digitRun (d :: rest)
      (some run.1, run.2)
    else (none, cs)
  | _ => (none, cs)

/-- The exponent, if its digits follow. -/
def exponentPart (cs : List Char) : Option Int × List Char :=
  match cs with
  | c :: rest =>
    if c = 'e' || c = 'E' then
      let (negative, digits) := Numeral.splitSign rest
      let run := digitRun digits
      if run.1.isEmpty then (none, cs)
      else
        let n : Int := Numeral.digitsValue run.1
        (some (if negative then -n else n), run.2)
    else (none, cs)
  | [] => (none, cs)

/-- The digits of the integer part: a zero alone, or a run that starts otherwise. -/
def integerPart? (cs : List Char) : Option (List Char × List Char) :=
  match cs with
  | '0' :: rest => some (['0'], rest)
  | c :: _ => if '1' ≤ c && c ≤ '9' then some (digitRun cs) else none
  | [] => none

/-- The pieces of a number without its sign. -/
structure NumberText where
  whole : List Char
  fraction : Option (List Char)
  exponent : Option Int

/-- The pieces of a number at the front of a text, and the rest. -/
def numberText? (cs : List Char) : Option (NumberText × List Char) :=
  (integerPart? cs).map fun w =>
    let f := fractionPart w.2
    let e := exponentPart f.2
    (⟨w.1, f.1, e.1⟩, e.2)

theorem length_digitRun_le (cs : List Char) : (digitRun cs).2.length ≤ cs.length :=
  (List.dropWhile_sublist _).length_le

theorem length_fractionPart_le (cs : List Char) : (fractionPart cs).2.length ≤ cs.length := by
  unfold fractionPart
  split
  · rename_i d rest
    split
    · have := length_digitRun_le (d :: rest)
      simp only [List.length_cons] at *
      omega
    · simp
  · simp

theorem length_splitSign_le (cs : List Char) :
    (Numeral.splitSign cs).2.length ≤ cs.length := by
  unfold Numeral.splitSign
  split <;> simp

theorem length_exponentPart_le (cs : List Char) : (exponentPart cs).2.length ≤ cs.length := by
  unfold exponentPart
  split
  · rename_i c rest
    have h := length_splitSign_le rest
    have h' := length_digitRun_le (Numeral.splitSign rest).2
    split
    · dsimp only
      split
      · simp
      · simp only [List.length_cons]
        omega
    · simp
  · simp

theorem length_of_integerPart? {cs : List Char} {w : List Char × List Char}
    (h : integerPart? cs = some w) : w.2.length < cs.length := by
  unfold integerPart? at h
  split at h
  · cases h
    simp
  · rename_i c rest _
    split at h
    · rename_i hc
      cases h
      have hd : Numeral.isAsciiDigit c = true := by
        simp only [Numeral.isAsciiDigit, Bool.and_eq_true, decide_eq_true_eq] at *
        exact ⟨Nat.le_trans (by decide) hc.1, hc.2⟩
      have := (List.dropWhile_sublist (p := Numeral.isAsciiDigit) (l := rest)).length_le
      simp only [digitRun, List.dropWhile_cons, hd, if_true, List.length_cons]
      omega
    · simp at h
  · simp at h

theorem length_of_numberText? {cs rest : List Char} {n : NumberText}
    (h : numberText? cs = some (n, rest)) : rest.length < cs.length := by
  simp only [numberText?, Option.map_eq_some_iff, Prod.mk.injEq] at h
  obtain ⟨w, hw, _, rfl⟩ := h
  have := length_of_integerPart? hw
  have := length_fractionPart_le w.2
  have := length_exponentPart_le (fractionPart w.2).2
  omega

/-- The text without a sign in front. -/
def dropMinus : List Char → List Char
  | '-' :: rest => rest
  | cs => cs

theorem length_dropMinus_le (cs : List Char) : (dropMinus cs).length ≤ cs.length := by
  unfold dropMinus
  split <;> simp

/-- The number that pieces stand for: an integer, or a double if it has a fraction or an
exponent. -/
def NumberText.value (n : NumberText) (negative : Bool) : Json :=
  if n.fraction.isNone && n.exponent.isNone then
    let i : Int := Numeral.digitsValue n.whole
    .int (if negative then -i else i)
  else
    let parts : Numeral.Parts := ⟨n.whole, n.fraction.getD [], n.exponent.getD 0⟩
    .float (parts.toBinary64 negative)

/-- Whether pieces make an integer with too many digits. -/
def NumberText.isTooLong (n : NumberText) : Bool :=
  n.fraction.isNone && n.exponent.isNone && Numeral.digitLimit < n.whole.length

/-- Reads a number. -/
def number (text : List Char) : Except Failure (Parsed Json text) :=
  match h : numberText? (dropMinus text) with
  | none => failAt .expectedValue text
  | some (n, rest) =>
    if n.isTooLong then failAt (.longInteger n.whole.length) text
    else
      .ok ⟨n.value (text.head? = some '-'), rest, by
        have := length_of_numberText? h
        have := length_dropMinus_le text
        omega⟩

/-- The words and what they stand for. -/
def words : List (List Char × Json) := [
  ("null".toList, .null),
  ("true".toList, .bool true),
  ("false".toList, .bool false),
  ("NaN".toList, .float .nan),
  ("Infinity".toList, .float (.infinity false)),
  ("-Infinity".toList, .float (.infinity true))]

/-- The word at the front of a text. -/
def word? (cs : List Char) : Option (List Char × Json) := words.find? fun w => w.1.isPrefixOf cs

theorem length_of_word? {cs : List Char} {w : List Char × Json} (h : word? cs = some w) :
    (cs.drop w.1.length).length < cs.length := by
  have hp : w.1.isPrefixOf cs = true := by simpa using List.find?_some h
  have hm : w ∈ words := List.mem_of_find?_eq_some h
  have hw : 0 < w.1.length := by
    have : ∀ v ∈ words, 0 < v.1.length := by decide
    exact this w hm
  have hl := (List.isPrefixOf_iff_prefix.mp hp).length_le
  rw [List.length_drop]
  omega

/-- A value other than a string, list or object. -/
def scalar (text : List Char) : Except Failure (Parsed Json text) :=
  match h : word? text with
  | some w => .ok ⟨w.2, text.drop w.1.length, length_of_word? h⟩
  | none => number text

/-! ## Values -/

mutual

/-- Reads a value, which must start at once. -/
def value (text : List Char) : Except Failure (Parsed Json text) :=
  match text with
  | '"' :: rest =>
    match string rest [] rest with
    | .error e => .error e
    | .ok s => .ok ⟨.str s.value, s.rest, by have := s.shorter; simp; omega⟩
  | '[' :: rest =>
    have := length_skip_le rest
    match h : skip rest with
    | ']' :: more => .ok ⟨.arr [], more, by simp [h] at this; simp; omega⟩
    | _ =>
      match items [] (skip rest) with
      | .error e => .error e
      | .ok r => .ok ⟨.arr r.value, r.rest, by have := r.shorter; simp; omega⟩
  | '{' :: rest =>
    have := length_skip_le rest
    match h : skip rest with
    | '}' :: more => .ok ⟨.obj [], more, by simp [h] at this; simp; omega⟩
    | _ =>
      match fields [] (skip rest) with
      | .error e => .error e
      | .ok r => .ok ⟨.obj r.value, r.rest, by have := r.shorter; simp; omega⟩
  | other => scalar other
termination_by (text.length, 0)
decreasing_by
  all_goals
    simp_wf
    have := length_skip_le rest
    apply Prod.Lex.left
    omega

/-- Reads the items of a list up to its end; those read so far are kept in reverse. -/
def items (read : List Json) (text : List Char) : Except Failure (Parsed (List Json) text) :=
  match value text with
  | .error e => .error e
  | .ok v =>
    have := v.shorter
    have := length_skip_le v.rest
    match h : skip v.rest with
    | ']' :: rest => .ok ⟨(v.value :: read).reverse, rest, by simp [h] at this; omega⟩
    | ',' :: rest =>
      have := length_skip_le rest
      match items (v.value :: read) (skip rest) with
      | .error e => .error e
      | .ok r => .ok ⟨r.value, r.rest, by have := r.shorter; simp [h] at *; omega⟩
    | other => failAt .expectedComma other
termination_by (text.length, 1)
decreasing_by
  · apply Prod.Lex.right
    omega
  · apply Prod.Lex.left
    simp_all
    omega

/-- Reads the entries of an object up to its end, into those read so far. -/
def fields (read : Fields) (text : List Char) : Except Failure (Parsed Fields text) :=
  match text with
  | '"' :: afterQuote =>
    match string afterQuote [] afterQuote with
    | .error e => .error e
    | .ok key =>
      have := key.shorter
      have := length_skip_le key.rest
      match h : skip key.rest with
      | ':' :: afterColon =>
        have := length_skip_le afterColon
        match value (skip afterColon) with
        | .error e => .error e
        | .ok v =>
          have := v.shorter
          have := length_skip_le v.rest
          let read := Entries.put read key.value v.value
          match h' : skip v.rest with
          | '}' :: rest => .ok ⟨read, rest, by simp [h, h'] at *; omega⟩
          | ',' :: rest =>
            have := length_skip_le rest
            match fields read (skip rest) with
            | .error e => .error e
            | .ok r => .ok ⟨r.value, r.rest, by have := r.shorter; simp [h, h'] at *; omega⟩
          | other => failAt .expectedComma other
      | other => failAt .expectedColon other
  | other => failAt .expectedName other
termination_by (text.length, 1)
decreasing_by
  · apply Prod.Lex.left
    simp_all
    omega
  · apply Prod.Lex.left
    simp_all
    omega

end

/-! ## Documents -/

/-- A flaw with its place in the text. -/
structure ReadError where
  flaw : Flaw
  /-- The number of characters before the flaw. -/
  offset : Nat
  /-- The line of the flaw, counted from one. -/
  line : Nat
  /-- The column of the flaw in its line, counted from one. -/
  column : Nat
  deriving DecidableEq

/-- Places a flaw in a text. -/
def Failure.place (f : Failure) (text : List Char) : ReadError :=
  let before := text.take (text.length - f.left)
  { flaw := f.flaw
    offset := before.length
    line := before.count '\n' + 1
    column := (before.reverse.takeWhile (· ≠ '\n')).length + 1 }

/-- The wording of a flaw with its place. -/
def ReadError.message (e : ReadError) : String :=
  match e.flaw with
  | .longInteger _ => e.flaw.message
  | _ => s!"{e.flaw.message}: line {e.line} column {e.column} (char {e.offset})"

/-- Reads a text that holds one value and blanks around it. -/
def readChars (text : List Char) : Except Failure Json :=
  match text with
  | c :: _ =>
    if c.toNat = 0xFEFF then failAt .byteOrderMark text
    else
      match value (skip text) with
      | .error e => .error e
      | .ok p =>
        match skip p.rest with
        | [] => .ok p.value
        | rest => failAt .extraData rest
  | [] => failAt .expectedValue []

/-- Reads a document. -/
def read (text : String) : Except ReadError Json :=
  match readChars text.toList with
  | .ok v => .ok v
  | .error f => .error (f.place text.toList)

end NodeFlow.Json
