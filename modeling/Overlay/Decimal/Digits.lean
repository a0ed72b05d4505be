/-!
Exact decimal arithmetic on quotients of whole numbers: rounding a quotient, counting digits, and
laying digits out around a decimal point without ever using an exponent.
-/

set_option autoImplicit false

namespace Overlay.Decimal

/-- Which neighbour a quotient that lies half-way between two whole numbers goes to. -/
inductive Tie
  | toEven
  | up
deriving DecidableEq, Repr

/-- The whole number nearest to a quotient. -/
def roundQuotient (tie : Tie) (numerator denominator : Nat) : Nat :=
  let floor := numerator / denominator
  let rest := 2 * (numerator % denominator)
  if rest < denominator then floor
  else if denominator < rest then floor + 1
  else match tie with
    | .up => floor + 1
    | .toEven => if floor % 2 = 0 then floor else floor + 1

/-- A magnitude `mantissa * 2 ^ exponent` as a quotient of whole numbers. -/
def quotient (mantissa : Nat) (exponent : Int) : Nat × Nat :=
  match exponent with
  | .ofNat power => (mantissa * Nat.pow 2 power, 1)
  | .negSucc power => (mantissa, Nat.pow 2 (power + 1))

/-- The decimal digits of a whole number. -/
def digits (number : Nat) : List Char := Nat.toDigits 10 number

/-- At least `width` characters, filled with zeros on the left. -/
def zeroFilled (width : Nat) (text : List Char) : List Char :=
  List.replicate (width - text.length) '0' ++ text

/-- A whole number of units of `10 ^ -places`, written with a decimal point and all its places. -/
def withPlaces (places units : Nat) : List Char :=
  if places = 0 then digits units
  else
    let text := zeroFilled (places + 1) (digits units)
    text.take (text.length - places) ++ '.' :: text.drop (text.length - places)

/-- `number * 10 ^ power` written positionally; digits right of the point only where needed. -/
def positional (number : Nat) (power : Int) : List Char :=
  match power with
  | .ofNat zeros => digits number ++ List.replicate zeros '0'
  | .negSucc places => withPlaces (places + 1) number

end Overlay.Decimal
