import NodeFlow.Binary64.Shortest
/-!
# Doubles as text

A double is written with the fewest digits that read back, positionally
while the point is near the digits and with an exponent otherwise. Where
the change happens and how the pieces look is a value of `Notation`; the
two notations of this library, in documents and in messages, differ in the
words for the infinities and for no number only.
-/

namespace NodeFlow.Binary64

/-- How a double is spelled. -/
structure Notation where
  /-- The least decimal exponent that is written positionally. -/
  leastPositional : Int
  /-- The least decimal exponent beyond the positional ones. -/
  leastScientific : Int
  /-- The least number of digits of a written exponent. -/
  exponentWidth : Nat
  /-- The word for no number. -/
  nan : String
  /-- The word for positive infinity. -/
  infinity : String

/-- Doubles in documents. -/
def Notation.document : Notation := ⟨-4, 16, 2, "NaN", "Infinity"⟩

/-- Doubles in messages and in text made from values. -/
def Notation.message : Notation := ⟨-4, 16, 2, "nan", "inf"⟩

/-- The decimal digits of a natural number. -/
def digitChars (n : Nat) : List Char := Nat.toDigits 10 n

/-- The digits with the point after the first `whole` of them, filled with zeros where there are
no digits, and with at least one digit on either side. -/
def positional (digits : List Char) (whole : Int) : List Char :=
  if whole ≤ 0 then '0' :: '.' :: (List.replicate (-whole).toNat '0' ++ digits)
  else
    let n := whole.toNat
    let fraction := digits.drop n
    digits.take n ++ List.replicate (n - digits.length) '0' ++
      '.' :: (if fraction.isEmpty then ['0'] else fraction)

/-- The digits with the point after the first one, and the exponent with its sign. -/
def scientific (width : Nat) (digits : List Char) (exponent : Int) : List Char :=
  let mantissa := match digits with
    | [] => []
    | [d] => [d]
    | d :: rest => d :: '.' :: rest
  let places := digitChars exponent.natAbs
  mantissa ++ 'e' :: (if exponent < 0 then '-' else '+') ::
    (List.replicate (width - places.length) '0' ++ places)

/-- The text of a number without its sign. -/
def Notation.unsigned (n : Notation) (significand : Nat) (exponent : Int) : List Char :=
  if significand = 0 then ['0', '.', '0']
  else
    let d := (shortest significand exponent).trim
    let digits := digitChars d.digits
    let place := d.exponent + digits.length - 1
    if n.leastPositional ≤ place && place < n.leastScientific then positional digits (place + 1)
    else scientific n.exponentWidth digits place

/-- The text of a double. -/
def Notation.chars (n : Notation) (x : Binary64) : List Char :=
  match x.value with
  | .nan => n.nan.toList
  | .infinite s => (if s then ['-'] else []) ++ n.infinity.toList
  | .finite s m e => (if s then ['-'] else []) ++ n.unsigned m e

/-- The text of a double as a string. -/
def Notation.write (n : Notation) (x : Binary64) : String := String.ofList (n.chars x)

/-- The text of a finite double with a fixed number of digits after the point, rounded to
nearest with halves to the even digit. -/
def fixedPlaces (places : Nat) (x : Binary64) : String :=
  match x.value with
  | .nan => "nan"
  | .infinite s => if s then "-inf" else "inf"
  | .finite s m e =>
    let scaledUp := m * Nat.pow 10 places
    let n :=
      if 0 ≤ e then scaledUp * Nat.pow 2 e.toNat else roundDiv scaledUp (Nat.pow 2 (-e).toNat)
    let digits := digitChars n
    let padded := List.replicate (places + 1 - digits.length) '0' ++ digits
    let whole := padded.take (padded.length - places)
    let fraction := padded.drop (padded.length - places)
    String.ofList ((if s then ['-'] else []) ++ whole ++
      (if fraction.isEmpty then [] else '.' :: fraction))

/-- The first digits of a positive number, and its decimal exponent: as many digits as are asked
for, rounded to nearest with halves to the even digit. -/
def leadingDigits (count significand : Nat) (exponent : Int) : List Char × Int :=
  let num := significand * Nat.pow 2 exponent.toNat
  let den := Nat.pow 2 (-exponent).toNat
  let place : Int :=
    if den ≤ num then ((digitChars (num / den)).length : Int) - 1
    else
      let n := (digitChars (den / num)).length
      if den ≤ num * Nat.pow 10 (n - 1) then -((n : Int) - 1) else -(n : Int)
  let shift : Int := (count : Int) - 1 - place
  let digits := roundDiv (num * Nat.pow 10 shift.toNat) (den * Nat.pow 10 (-shift).toNat)
  if digits = Nat.pow 10 count then (digitChars (Nat.pow 10 (count - 1)), place + 1)
  else (digitChars digits, place)

/-- The text of a double with an exponent and a fixed number of digits after the point. -/
def scientificPlaces (places : Nat) (x : Binary64) : String :=
  match x.value with
  | .finite s m e =>
    let (digits, place) :=
      if m = 0 then (List.replicate (places + 1) '0', 0) else leadingDigits (places + 1) m e
    String.ofList ((if s then ['-'] else []) ++ scientific 2 digits place)
  | _ => fixedPlaces 0 x

/-- Drops the zeros at the end of a fraction, and a point without one. -/
def dropFinalZeros (cs : List Char) : List Char :=
  if cs.contains '.' then
    (((cs.reverse.dropWhile (· = '0')).dropWhile (· = '.')).reverse)
  else cs

/-- The text of a double with a number of significant digits, positional while the exponent is
small, and with zeros at the end only if they are asked for. -/
def significantPlaces (count : Nat) (keepZeros : Bool) (x : Binary64) : String :=
  match x.value with
  | .finite s m e =>
    let (digits, place) :=
      if m = 0 then (List.replicate count '0', 0) else leadingDigits count m e
    let trim (cs : List Char) : List Char := if keepZeros then cs else dropFinalZeros cs
    let body :=
      if -4 ≤ place && place < count then
        let whole := place + 1
        if (digits.length : Int) ≤ whole then digits ++ (if keepZeros then ['.'] else [])
        else trim (positional digits whole)
      else
        let spelled := scientific 2 digits place
        trim (spelled.takeWhile (· ≠ 'e')) ++ spelled.dropWhile (· ≠ 'e')
    String.ofList ((if s then ['-'] else []) ++ body)
  | _ => fixedPlaces 0 x

end NodeFlow.Binary64
