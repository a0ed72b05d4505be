import Overlay.Binary64
import Overlay.Decimal.Digits

/-!
The fewest decimal digits that read back as a given double.

The reals that round to a double form an interval around it, closed if the mantissa is even. For one
digit, two digits and so on, the value's two neighbours on that decimal grid are tested; the first
grid with a neighbour inside the interval gives the answer, and of two such neighbours the nearer.
-/

set_option autoImplicit false

namespace Overlay.Decimal

/-- The reals that round to one double, over a common denominator. -/
structure Interval where
  low : Nat
  value : Nat
  high : Nat
  denominator : Nat
  closed : Bool

namespace Interval

/-- The interval of a positive finite double. The gap below is half as wide where the mantissa is
the least of its binade. -/
def ofParts (mantissa : Nat) (exponent : Int) : Interval :=
  let narrow := mantissa = Nat.pow 2 52 ∧ -1074 < exponent
  let (numerator, denominator) := quotient (4 * mantissa) (exponent - 2)
  let (unit, _) := quotient 1 (exponent - 2)
  let scale := if exponent - 2 < 0 then 1 else unit
  { low := numerator - (if narrow then 1 else 2) * scale
    value := numerator
    high := numerator + 2 * scale
    denominator := denominator
    closed := mantissa % 2 = 0 }

/-- Whether `number * 10 ^ power` rounds to the double. -/
def holds (interval : Interval) (number : Nat) (power : Int) : Bool :=
  let (scaled, unit) := match power with
    | .ofNat zeros => (number * Nat.pow 10 zeros * interval.denominator, 1)
    | .negSucc places => (number * interval.denominator, Nat.pow 10 (places + 1))
  if interval.closed then
    interval.low * unit ≤ scaled && scaled ≤ interval.high * unit
  else
    interval.low * unit < scaled && scaled < interval.high * unit

/-- The value divided by `10 ^ power`, as a quotient. -/
def scaledDown (interval : Interval) (power : Int) : Nat × Nat :=
  match power with
  | .ofNat zeros => (interval.value, interval.denominator * Nat.pow 10 zeros)
  | .negSucc places => (interval.value * Nat.pow 10 (places + 1), interval.denominator)

/-- The neighbour of the value on the grid of multiples of `10 ^ power` that reads back, if any;
of two the nearer, and the upper of two that are equally near. -/
def candidate (interval : Interval) (power : Int) : Option Nat :=
  let (numerator, denominator) := interval.scaledDown power
  let below := numerator / denominator
  match interval.holds below power, interval.holds (below + 1) power with
  | true, true => some (roundQuotient .up numerator denominator)
  | true, false => some below
  | false, true => some (below + 1)
  | false, false => none

/-- Searches the grids from coarse to fine. -/
def search (interval : Interval) : Nat → Int → Nat × Int
  | 0, power => (interval.value / interval.denominator, power)
  | tries + 1, power =>
    match interval.candidate power with
    | some number => (number, power)
    | none => search interval tries (power - 1)

end Interval

/-- The largest power of ten not above a positive quotient. -/
def leadingPower (numerator denominator : Nat) : Int :=
  if denominator ≤ numerator then (Nat.toDigits 10 (numerator / denominator)).length - 1
  else -(Nat.toDigits 10 ((denominator - 1) / numerator)).length

/-- The fewest digits of a positive finite double, with their power of ten. -/
def shortest (mantissa : Nat) (exponent : Int) : Nat × Int :=
  let interval := Interval.ofParts mantissa exponent
  let (numerator, denominator) := quotient mantissa exponent
  interval.search 20 (leadingPower numerator denominator + 1)

end Overlay.Decimal

namespace Overlay.Binary64

open Decimal

/-- The fewest digits that read back, never with an exponent. -/
def shortest (number : Binary64) : String :=
  if number.isNaN then "NaN"
  else
    let sign := if number.isNegative then ['-'] else []
    if number.isFinite then
      if number.mantissa = 0 then String.ofList (sign ++ ['0'])
      else
        let (digits, power) := Decimal.shortest number.mantissa number.exponent
        String.ofList (sign ++ positional digits power)
    else String.ofList (sign ++ ['i', 'n', 'f'])

end Overlay.Binary64
