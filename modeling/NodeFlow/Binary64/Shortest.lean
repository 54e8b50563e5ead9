import NodeFlow.Binary64
/-!
# The fewest digits that read back

`Binary64.shortest` finds, for a positive double `m * 2 ^ q`, the decimal
`d * 10 ^ p` with the fewest digits that lies in the interval of the reals
rounding to it, and of those the nearest. The interval is that of rounding
to nearest: half a unit of the last place to either side, the side below a
power of two half as wide, with the ends included when `m` is even. The
grids of 1, 2, … 17 digits are tried in turn, and on each only the two
neighbours of the value. If no grid held a point the exact decimal would be
taken, so the result lies in the interval whatever the double.
-/

namespace NodeFlow.Binary64

/-- A decimal number `digits * 10 ^ exponent`. -/
structure Decimal where
  digits : Nat
  exponent : Int
  deriving DecidableEq, Repr

/-- A positive dyadic number `significand * 2 ^ exponent` together with its rounding interval,
all on one grid of quarter units: `low`, `mid` and `high` times `2 ^ (exponent - 2)`. -/
structure Interval where
  low : Nat
  mid : Nat
  high : Nat
  exponent : Int
  closed : Bool
  deriving DecidableEq

namespace Interval

/-- The interval of the reals that round to `significand * 2 ^ exponent`. -/
def around (significand : Nat) (exponent : Int) : Interval :=
  let narrow := significand = Nat.pow 2 52 ∧ -1074 < exponent
  { low := 4 * significand - (if narrow then 1 else 2)
    mid := 4 * significand
    high := 4 * significand + 2
    exponent := exponent - 2
    closed := significand % 2 = 0 }

/-- Two numbers on a common scale: a decimal and the multiple `n` of the grid of an interval. -/
def common (i : Interval) (d : Decimal) (n : Nat) : Nat × Nat :=
  (d.digits * Nat.pow 10 d.exponent.toNat * Nat.pow 2 (-i.exponent).toNat,
   n * Nat.pow 2 i.exponent.toNat * Nat.pow 10 (-d.exponent).toNat)

/-- Whether a decimal lies in the interval. -/
def holds (i : Interval) (d : Decimal) : Bool :=
  let lo := i.common d i.low
  let hi := i.common d i.high
  if i.closed then lo.2 ≤ lo.1 && hi.1 ≤ hi.2 else lo.2 < lo.1 && hi.1 < hi.2

/-- How far a decimal is from the middle of the interval, on the scale of its own exponent. -/
def distance (i : Interval) (d : Decimal) : Nat :=
  let c := i.common d i.mid
  (c.1 - c.2) + (c.2 - c.1)

/-- The largest decimal with the given exponent that is not above the middle. -/
def below (i : Interval) (exponent : Int) : Decimal :=
  let num := i.mid * Nat.pow 2 i.exponent.toNat * Nat.pow 10 (-exponent).toNat
  let den := Nat.pow 2 (-i.exponent).toNat * Nat.pow 10 exponent.toNat
  ⟨num / den, exponent⟩

/-- The better of the two neighbours of the middle with the given exponent, if one lies in the
interval: the nearer one, or of two equally near the one with an even last digit. -/
def onGrid? (i : Interval) (exponent : Int) : Option Decimal :=
  let down := i.below exponent
  let up : Decimal := ⟨down.digits + 1, exponent⟩
  match i.holds down && down.digits ≠ 0, i.holds up with
  | true, true =>
    let a := i.distance down
    let b := i.distance up
    if a < b then some down
    else if b < a then some up
    else if down.digits % 2 = 0 then some down else some up
  | true, false => some down
  | false, true => some up
  | false, false => none

/-- The number of digits of the integer part of the middle, or for a number below one minus the
count of zeros that follow the point. -/
def magnitude (i : Interval) : Int :=
  let whole := (i.below 0).digits
  if whole ≠ 0 then (Nat.toDigits 10 whole).length
  else
    let scale := ((-i.exponent).toNat * 30103 / 100000 + 2 : Nat)
    let shifted := (i.below (-(scale : Int))).digits
    ((Nat.toDigits 10 shifted).length : Int) - scale

/-- The exact decimal of the middle. -/
def exact (i : Interval) : Decimal :=
  if 0 ≤ i.exponent then ⟨i.mid * Nat.pow 2 i.exponent.toNat, 0⟩
  else ⟨i.mid * Nat.pow 5 (-i.exponent).toNat, i.exponent⟩

/-- The first grid, from one digit up to the given number of further ones, with a point in the
interval. -/
def search (i : Interval) : Nat → Int → Decimal
  | 0, _ => i.exact
  | n + 1, exponent => (i.onGrid? exponent).getD (i.search n (exponent - 1))

/-- The shortest decimal in the interval, and of those the nearest to its middle. -/
def shortest (i : Interval) : Decimal := i.search 17 (i.magnitude - 1)

end Interval

/-- Drops trailing zeros of the digits. -/
def Decimal.trim (d : Decimal) : Decimal :=
  go (Nat.log2 d.digits) d
where
  /-- Divides by ten while the last digit is zero, at most the given number of times. -/
  go : Nat → Decimal → Decimal
  | 0, d => d
  | n + 1, d => if d.digits % 10 = 0 then go n ⟨d.digits / 10, d.exponent + 1⟩ else d

/-- The shortest decimal that rounds to `significand * 2 ^ exponent`. -/
def shortest (significand : Nat) (exponent : Int) : Decimal :=
  (Interval.around significand exponent).shortest

end NodeFlow.Binary64
