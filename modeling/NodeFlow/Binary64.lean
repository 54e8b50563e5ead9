/-!
# Double-precision numbers

A `Binary64` is the 64 bits of a double. Its value is read off the bits as
a sign, an integer significand and a power of two, and every operation
works on these exactly: a ratio of naturals is rounded to the nearest
double, halves to the even neighbour, and sums and decimal numerals are
rounded ratios. Two doubles are the same value of the type when their bits
agree, so a not-a-number equals itself here.
-/

namespace NodeFlow

/-- A double, as its bits. -/
structure Binary64 where
  bits : UInt64
  deriving DecidableEq, Inhabited

/-- What the bits of a double denote. -/
inductive Binary64.Value where
  /-- No number. -/
  | nan
  /-- One of the two infinities. -/
  | infinite (negative : Bool)
  /-- The number `significand * 2 ^ exponent`, with a sign. -/
  | finite (negative : Bool) (significand : Nat) (exponent : Int)
  deriving DecidableEq

namespace Binary64

/-! ## Reading the bits -/

/-- The bits without the sign. -/
def magnitude (x : Binary64) : Nat := x.bits.toNat % Nat.pow 2 63

/-- Whether the sign bit is set. -/
def negative (x : Binary64) : Bool := Nat.pow 2 63 ≤ x.bits.toNat

/-- The magnitude of the infinities; every larger one is no number. -/
def infiniteMagnitude : Nat := 0x7FF * Nat.pow 2 52

/-- The value that the bits denote. -/
def value (x : Binary64) : Value :=
  if infiniteMagnitude < x.magnitude then .nan
  else if x.magnitude = infiniteMagnitude then .infinite x.negative
  else
    let biased : Nat := x.magnitude / Nat.pow 2 52
    let fraction : Nat := x.magnitude % Nat.pow 2 52
    if biased = 0 then .finite x.negative fraction (-1074)
    else .finite x.negative (fraction + Nat.pow 2 52) (Int.ofNat biased - 1075)

/-- Whether the value is no number. -/
def isNaN (x : Binary64) : Bool := infiniteMagnitude < x.magnitude

/-- Whether the value is a number other than the infinities. -/
def isFinite (x : Binary64) : Bool := x.magnitude < infiniteMagnitude

/-! ## Building doubles -/

/-- The double with a given sign and magnitude. -/
def ofMagnitude (negative : Bool) (magnitude : Nat) : Binary64 :=
  ⟨UInt64.ofNat ((if negative then Nat.pow 2 63 else 0) + magnitude)⟩

/-- Zero. -/
def zero : Binary64 := ofMagnitude false 0

/-- One. -/
def one : Binary64 := ofMagnitude false (1023 * Nat.pow 2 52)

/-- Infinity with a sign. -/
def infinity (negative : Bool) : Binary64 := ofMagnitude negative infiniteMagnitude

/-- The one not-a-number that reading text yields. -/
def nan : Binary64 := ofMagnitude false (0x7FF * Nat.pow 2 52 + Nat.pow 2 51)

/-- The quotient rounded to the nearest natural number, a half to the even one. -/
def roundDiv (num den : Nat) : Nat :=
  let quotient := num / den
  let rest := num % den
  if 2 * rest < den then quotient
  else if den < 2 * rest then quotient + 1
  else if quotient % 2 = 0 then quotient else quotient + 1

/-- `num / den` scaled by `2 ^ (-exponent)`, as a numerator and a denominator. -/
def scaled (num den : Nat) (exponent : Int) : Nat × Nat :=
  if exponent < 0 then (num * Nat.pow 2 (-exponent).toNat, den)
  else (num, den * Nat.pow 2 exponent.toNat)

/-- The exponent of the last place of the double nearest to `num / den`: such that the scaled
quotient has 53 bits, but not below the least exponent there is. -/
def lastPlace (num den : Nat) : Int :=
  let guess : Int := (num.log2 : Int) - (den.log2 : Int) - 52
  let s := scaled num den guess
  max (-1074) (if s.1 < Nat.pow 2 52 * s.2 then guess - 1 else guess)

/-- The double nearest to the ratio of two naturals, ties to the even significand. The carry of
a significand that rounds up to 53 bits and more runs into the exponent field by itself. -/
def ofRatio (negative : Bool) (num den : Nat) : Binary64 :=
  if num = 0 then ofMagnitude negative 0
  else
    let exponent := lastPlace num den
    let s := scaled num den exponent
    let magnitude := (exponent + 1074).toNat * Nat.pow 2 52 + roundDiv s.1 s.2
    ofMagnitude negative (min magnitude infiniteMagnitude)

/-- The double nearest to `significand * 10 ^ exponent`. Numerals far outside the range of the
doubles are settled by their size, so that no huge power is ever formed. -/
def ofDecimal (negative : Bool) (significand : Nat) (exponent : Int) : Binary64 :=
  let size : Int := ((significand.log2 + 1 : Nat) : Int)
  if significand = 0 then ofMagnitude negative 0
  else if 310 < exponent then infinity negative
  else if exponent < -400 - size then ofMagnitude negative 0
  else if exponent < 0 then ofRatio negative significand (Nat.pow 10 (-exponent).toNat)
  else ofRatio negative (significand * Nat.pow 10 exponent.toNat) 1

/-- The double nearest to an integer, if that is not beyond the largest one. -/
def ofInt? (i : Int) : Option Binary64 :=
  let x := ofRatio (i < 0) i.natAbs 1
  if x.isFinite then some x else none

/-! ## Comparing -/

/-- The number denoted, on a scale that puts doubles into their order; the two zeros share a
place, and a not-a-number has none. -/
def rank? (x : Binary64) : Option Int :=
  if x.isNaN then none
  else some (if x.negative then -(x.magnitude : Int) else (x.magnitude : Int))

/-- Whether the first number is at most the second; never with a not-a-number. -/
def le (x y : Binary64) : Bool :=
  match x.rank?, y.rank? with
  | some a, some b => a ≤ b
  | _, _ => false

/-- Whether the first number is below the second; never with a not-a-number. -/
def lt (x y : Binary64) : Bool :=
  match x.rank?, y.rank? with
  | some a, some b => a < b
  | _, _ => false

/-! ## Arithmetic -/

/-- The integer `significand * 2 ^ (exponent - least)`, signed. -/
def onGrid (negative : Bool) (significand : Nat) (exponent least : Int) : Int :=
  let n : Int := (significand * Nat.pow 2 (exponent - least).toNat : Nat)
  if negative then -n else n

/-- The sum, rounded to the nearest double. A sum that is exactly zero is negative only if both
summands are. -/
def add (x y : Binary64) : Binary64 :=
  match x.value, y.value with
  | .nan, _ => nan
  | _, .nan => nan
  | .infinite s, .infinite t => if s = t then infinity s else nan
  | .infinite s, .finite _ _ _ => infinity s
  | .finite _ _ _, .infinite t => infinity t
  | .finite s m e, .finite t n f =>
    let least := min e f
    let sum := onGrid s m e least + onGrid t n f least
    if sum = 0 then ofMagnitude (s && t) 0
    else if least < 0 then ofRatio (sum < 0) sum.natAbs (Nat.pow 2 (-least).toNat)
    else ofRatio (sum < 0) (sum.natAbs * Nat.pow 2 least.toNat) 1

/-- The integer a double denotes, if it is one. -/
def toInt? (x : Binary64) : Option Int :=
  match x.value with
  | .finite s m e =>
    if 0 ≤ e then some (onGrid s m e 0)
    else if m % Nat.pow 2 (-e).toNat = 0 then
      let n : Int := (m / Nat.pow 2 (-e).toNat : Nat)
      some (if s then -n else n)
    else none
  | _ => none

/-- The integer part of a finite double. -/
def truncate? (x : Binary64) : Option Int :=
  match x.value with
  | .finite s m e =>
    let n : Int := Int.ofNat (if 0 ≤ e then m * Nat.pow 2 e.toNat else m / Nat.pow 2 (-e).toNat)
    some (if s then -n else n)
  | _ => none

end Binary64

end NodeFlow
