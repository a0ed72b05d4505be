import Overlay.Document.Value

/-!
The plain values of a TOML document: whole numbers, other numbers, truth values and moments. Each is
a run of characters without blanks, apart from the blank that may stand between a date and a time.
-/

set_option autoImplicit false

namespace Overlay.Document.Toml

/-- The value of a digit in a base up to sixteen. -/
def digit? (base : Nat) (char : Char) : Option Nat :=
  let value :=
    if '0' ≤ char ∧ char ≤ '9' then char.toNat - 48
    else if 'a' ≤ char ∧ char ≤ 'f' then char.toNat - 87
    else if 'A' ≤ char ∧ char ≤ 'F' then char.toNat - 55
    else 16
  if value < base then some value else none

/-- The value of digits in which single underscores may stand between two digits. -/
def digits? (base : Nat) : List Char → Option Nat
  | [] => none
  | first :: rest => do
    let start ← digit? base first
    let step := fun (state : Nat × Bool) (char : Char) =>
      if char = '_' then if state.2 then none else some (state.1, true)
      else (digit? base char).map fun value => (state.1 * base + value, false)
    let (value, open_) ← rest.foldlM step (start, false)
    if open_ then none else some value

/-- Digits without a leading zero, apart from zero itself. -/
def natural? (text : List Char) : Option Nat :=
  if text.length ≠ 1 ∧ text.head? = some '0' then none else digits? 10 text

/-- A sign, and the text after it. -/
def signed (text : List Char) : Bool × List Char :=
  match text with
  | '-' :: rest => (true, rest)
  | '+' :: rest => (false, rest)
  | rest => (false, rest)

/-- A whole number that fits in sixty-four bits with a sign. -/
def inRange (value : Int) : Option Value :=
  if -9223372036854775808 ≤ value ∧ value < 9223372036854775808 then some (.whole value) else none

/-- A whole number in base ten with or without a sign, or without one in another base. -/
def whole? : List Char → Option Value
  | '0' :: 'x' :: rest => do inRange (← digits? 16 rest)
  | '0' :: 'o' :: rest => do inRange (← digits? 8 rest)
  | '0' :: 'b' :: rest => do inRange (← digits? 2 rest)
  | text => do
    let (negative, rest) := signed text
    let value ← natural? rest
    inRange (if negative then -(value : Int) else value)

/-- Digits behind the point: their value and their number. -/
def fraction? (text : List Char) : Option (Nat × Nat) :=
  (digits? 10 text).map fun value => (value, (text.filter (· ≠ '_')).length)

/-- The exponent of a number; it may have leading zeros. -/
def exponent? (text : List Char) : Option Int :=
  let (negative, rest) := signed text
  (digits? 10 rest).map fun value => if negative then -(value : Int) else value

/-- The double nearest to `number * 10 ^ power`. Powers far beyond the range of doubles are told by
the number of digits before the point. -/
def nearest (number : Nat) (power : Int) : Binary64 :=
  let whole : Int := (Nat.toDigits 10 number).length + power
  if number = 0 ∨ whole < -400 then .zero
  else if 400 < whole then .infinity
  else Binary64.ofFloat (Float.ofScientific number (power < 0) power.natAbs)

/-- A number with a sign; one that is beyond the finite doubles must be negative. -/
def scaled? (negative : Bool) (number : Nat) (power : Int) : Option Value :=
  let magnitude := nearest number power
  if negative then some (.real (.negativeZero - magnitude))
  else if magnitude.isFinite then some (.real magnitude)
  else none

/-- A number with a point or an exponent, or one of the two special ones. -/
def real? (text : List Char) : Option Value := do
  let (negative, rest) := signed text
  if rest = ['i', 'n', 'f'] then
    return .real (if negative then .negativeInfinity else .infinity)
  if rest = ['n', 'a', 'n'] then
    return .real .notANumber
  let isMark := fun (char : Char) => char = 'e' ∨ char = 'E'
  let body := rest.takeWhile fun char => !decide (isMark char)
  let power ← match rest.drop body.length with
    | [] => some 0
    | _ :: power => exponent? power
  let before := body.takeWhile (· ≠ '.')
  let start ← natural? before
  match body.drop before.length with
  | [] => if body.length = rest.length then none else scaled? negative start power
  | _ :: places =>
    let (value, count) ← fraction? places
    scaled? negative (start * Nat.pow 10 count + value) (power - count)

/-- A number of exactly `width` digits between two bounds. -/
def field? (width low high : Nat) (text : List Char) : Option (Nat × List Char) := do
  let taken := text.take width
  if taken.length ≠ width ∨ taken.any (fun char => (digit? 10 char).isNone) then none
  let value ← digits? 10 taken
  if low ≤ value ∧ value ≤ high then some (value, text.drop width) else none

def skip? (char : Char) : List Char → Option (List Char)
  | first :: rest => if first = char then some rest else none
  | [] => none

/-- The number of days of a month. -/
def daysIn (year month : Nat) : Nat :=
  let leap := year % 4 = 0 ∧ (year % 100 ≠ 0 ∨ year % 400 = 0)
  if month = 2 then if leap then 29 else 28
  else if month ∈ [4, 6, 9, 11] then 30 else 31

/-- Reads a date and hands on the rest. -/
def date? (text : List Char) : Option (List Char) := do
  let (year, rest) ← field? 4 0 9999 text
  let (month, rest) ← field? 2 1 12 (← skip? '-' rest)
  let (_, rest) ← field? 2 1 (daysIn year month) (← skip? '-' rest)
  pure rest

/-- Reads a time of day and hands on the rest. -/
def timeOfDay? (text : List Char) : Option (List Char) := do
  let (_, rest) ← field? 2 0 23 text
  let (_, rest) ← field? 2 0 59 (← skip? ':' rest)
  let (_, rest) ← field? 2 0 60 (← skip? ':' rest)
  match rest with
  | '.' :: places =>
    let count := (places.takeWhile fun char => (digit? 10 char).isSome).length
    if count = 0 then none else pure (places.drop count)
  | rest => pure rest

/-- Reads the distance from universal time, if one is given. -/
def offset? (text : List Char) : Option (List Char) :=
  match text with
  | 'Z' :: rest | 'z' :: rest => some rest
  | '+' :: rest | '-' :: rest => do
    let (_, rest) ← field? 2 0 23 rest
    let (_, rest) ← field? 2 0 59 (← skip? ':' rest)
    pure rest
  | rest => some rest

/-- A date, a time of day, or both with or without an offset. -/
def moment? (text : List Char) : Option Value :=
  let ends := fun (rest : Option (List Char)) =>
    if rest = some [] then some Value.moment else none
  match date? text with
  | some [] => some .moment
  | some (mark :: rest) =>
    if mark = 'T' ∨ mark = 't' ∨ mark = ' ' then ends (timeOfDay? rest >>= offset?) else none
  | none => ends (timeOfDay? text)

/-- The value of a run of characters. -/
def scalar? (text : List Char) : Option Value :=
  if text = ['t', 'r', 'u', 'e'] then some (.flag true)
  else if text = ['f', 'a', 'l', 's', 'e'] then some (.flag false)
  else (moment? text).orElse fun _ => (whole? text).orElse fun _ => real? text

/-- The characters that plain values consist of. -/
def isScalarChar (char : Char) : Bool :=
  char.isAlphanum || char ∈ ['+', '-', '.', '_', ':']

/-- Takes the plain value from the front of a text. A blank after a date belongs to it if a digit
follows. -/
def readScalar? (text : List Char) : Option (Value × List Char) :=
  let run := text.takeWhile isScalarChar
  let rest := text.drop run.length
  match date? run, rest with
  | some [], ' ' :: next :: more =>
    if next.isDigit then
      let time := (next :: more).takeWhile isScalarChar
      (scalar? (run ++ ' ' :: time)).map fun value => (value, (next :: more).drop time.length)
    else (scalar? run).map fun value => (value, rest)
  | _, _ => (scalar? run).map fun value => (value, rest)

end Overlay.Document.Toml
