import NodeFlow.Binary64
import NodeFlow.Text.Blank
import NodeFlow.Text.Digit
/-!
# Reading numbers from text

A numeral may stand between blanks, carry a sign, use the decimal digits of any
script and separate two digits by one underscore. `Numeral.int?` reads an
integer; `Numeral.float?` reads a double, also the words for infinity and no
number in any case. Integers of more than `digitLimit` digits are refused,
with an error of their own.
-/

namespace NodeFlow.Numeral

/-- The largest number of digits of an integer that is read or written as text. -/
def digitLimit : Nat := 4300

/-- The least number that has more digits. -/
@[irreducible] def unwritable : Nat := Nat.pow 10 digitLimit

/-- The characters of a numeral: decimal digits of any script as the ASCII ones, and without
blanks around it. -/
def normalize (s : String) : List Char :=
  (Text.trimChars Text.isBlank s.toList).map fun c =>
    match Text.digitValue? c with
    | some v => Nat.digitChar v
    | none => c

/-- Whether a character is an ASCII digit. -/
def isAsciiDigit (c : Char) : Bool := '0' ≤ c && c ≤ '9'

/-- A sign and the rest. -/
def splitSign : List Char → Bool × List Char
  | '-' :: rest => (true, rest)
  | '+' :: rest => (false, rest)
  | cs => (false, cs)

/-- Drops the underscores that stand between two digits; there is no result if one stands
elsewhere. The first argument tells whether a digit came just before. -/
def dropUnderscores : Bool → List Char → Option (List Char)
  | _, [] => some []
  | afterDigit, '_' :: rest =>
    match rest with
    | d :: _ => if afterDigit && isAsciiDigit d then dropUnderscores false rest else none
    | [] => none
  | _, c :: rest => (dropUnderscores (isAsciiDigit c) rest).map (c :: ·)

/-- The value of a run of ASCII digits. -/
def digitsValue (cs : List Char) : Nat :=
  cs.foldl (fun n c => 10 * n + (c.toNat - 48)) 0

/-- Why a text is no integer. -/
inductive IntError where
  /-- The text is not spelled like an integer. -/
  | malformed
  /-- The text is an integer with too many digits. -/
  | tooLong (digits : Nat)
  deriving DecidableEq

/-- The integer that a text spells. The digits at its head are counted before anything else is
looked at. -/
def int? (s : String) : Except IntError Int :=
  let (negative, body) := splitSign (normalize s)
  let head := body.takeWhile fun c => isAsciiDigit c || c = '_'
  match dropUnderscores false head with
  | none => .error .malformed
  | some digits =>
    if digitLimit < digits.length then .error (.tooLong digits.length)
    else if digits.isEmpty || head.length < body.length then .error .malformed
    else
      let n : Int := digitsValue digits
      .ok (if negative then -n else n)

/-- Lower case of the ASCII letters. -/
def asciiLower (cs : List Char) : List Char := cs.map Char.toLower

/-- The parts of an unsigned decimal numeral: the digits before and after the point, and the
exponent. -/
structure Parts where
  whole : List Char
  fraction : List Char
  exponent : Int

/-- The exponent that follows the digits of a numeral, which must end with it. -/
def exponentOf? : List Char → Option Int
  | [] => some 0
  | c :: rest =>
    if c = 'e' || c = 'E' then
      let (negative, digits) := splitSign rest
      if digits.isEmpty || !digits.all isAsciiDigit then none
      else
        let n : Int := digitsValue digits
        some (if negative then -n else n)
    else none

/-- The parts of an unsigned decimal numeral with a digit before or after the point. -/
def parts? (cs : List Char) : Option Parts :=
  let whole := cs.takeWhile isAsciiDigit
  let rest := cs.dropWhile isAsciiDigit
  let (fraction, tail) := match rest with
    | '.' :: more => (more.takeWhile isAsciiDigit, more.dropWhile isAsciiDigit)
    | _ => ([], rest)
  if whole.isEmpty && fraction.isEmpty then none
  else (exponentOf? tail).map fun e => ⟨whole, fraction, e⟩

/-- The double nearest to a numeral. -/
def Parts.toBinary64 (p : Parts) (negative : Bool) : Binary64 :=
  .ofDecimal negative (digitsValue (p.whole ++ p.fraction)) (p.exponent - p.fraction.length)

/-- The double that a signed ASCII numeral or one of the words for infinity and no number spells. -/
def asciiFloat? (cs : List Char) : Option Binary64 :=
  let (negative, body) := splitSign cs
  let word := asciiLower body
  if word = "inf".toList || word = "infinity".toList then some (.infinity negative)
  else if word = "nan".toList then some .nan
  else (parts? body).map fun p => p.toBinary64 negative

/-- The double that a text spells. -/
def float? (s : String) : Option Binary64 :=
  (dropUnderscores false (normalize s)).bind asciiFloat?

end NodeFlow.Numeral
