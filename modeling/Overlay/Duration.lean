import Overlay.Binary64
import Overlay.Decimal.Digits

/-!
Spans of time in nanoseconds.

`jittered` is the one place where a span meets a fraction: the span is turned into seconds,
multiplied and rounded back to whole nanoseconds, a half going to the even one.
-/

set_option autoImplicit false

namespace Overlay

/-- A span of time. -/
structure Duration where
  nanos : Nat
deriving DecidableEq, Inhabited, Repr

namespace Duration

def ofMillis (millis : Nat) : Duration := ⟨millis * 1000000⟩

instance : Add Duration := ⟨fun left right => ⟨left.nanos + right.nanos⟩⟩
instance : LE Duration := ⟨fun left right => left.nanos ≤ right.nanos⟩

/-- Half of a span, whole nanoseconds only. -/
def half (span : Duration) : Duration := ⟨span.nanos / 2⟩

def wholeSeconds (span : Duration) : Nat := span.nanos / 1000000000

/-- The nanoseconds beyond the whole seconds. -/
def subsecondNanos (span : Duration) : Nat := span.nanos % 1000000000

def wholeMillis (span : Duration) : Nat := span.nanos / 1000000

/-- The millisecond ticks that have to pass before the span is over. -/
def ticks (span : Duration) : Nat := (span.nanos + 999999) / 1000000

/-- The span in seconds: whole seconds plus the rest, each rounded to a double. -/
def seconds (span : Duration) : Binary64 :=
  Binary64.ofNat span.wholeSeconds
    + Binary64.ofNat span.subsecondNanos / Binary64.ofNat 1000000000

/-- The span nearest to a number of seconds that is finite and not negative. -/
def ofSeconds (seconds : Binary64) : Duration :=
  let (numerator, denominator) := Decimal.quotient seconds.mantissa seconds.exponent
  ⟨Decimal.roundQuotient .toEven (numerator * 1000000000) denominator⟩

/-- The given fraction of a span. -/
def scaled (span : Duration) (fraction : Binary64) : Duration :=
  ofSeconds (fraction * span.seconds)

/-- A span lengthened by the given fraction of itself. -/
def jittered (span : Duration) (fraction : Binary64) : Duration := span + span.scaled fraction

/-- The span in milliseconds, as latencies are reported. -/
def millis (span : Duration) : Binary64 := span.seconds * Binary64.ofNat 1000

end Duration

end Overlay
