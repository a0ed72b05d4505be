import Overlay.Binary64
import Overlay.Decimal.Digits

/-!
A double written with a fixed number of decimal places. The digits are those of the exact value,
rounded once; a value half-way between two candidates goes to the even one.
-/

set_option autoImplicit false

namespace Overlay.Binary64

open Decimal

/-- The exact value with `places` digits after the point; the sign is kept even when all digits
are zero. -/
def withPlaces (places : Nat) (number : Binary64) : String :=
  if number.isNaN then "NaN"
  else
    let sign := if number.isNegative then ['-'] else []
    if number.isFinite then
      let (numerator, denominator) := quotient number.mantissa number.exponent
      let units := roundQuotient .toEven (numerator * Nat.pow 10 places) denominator
      String.ofList (sign ++ Decimal.withPlaces places units)
    else String.ofList (sign ++ ['i', 'n', 'f'])

end Overlay.Binary64
