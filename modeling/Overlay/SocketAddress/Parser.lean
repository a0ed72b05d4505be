import Overlay.SocketAddress.Basic

/-!
Reading a socket address.

Every reader takes the rest of the text and returns what it read with the text that remains, or
nothing; a failed reader consumes nothing.
-/

set_option autoImplicit false

namespace Overlay.SocketAddress

/-- Reads a value from the front of a text. -/
abbrev Reader (α : Type) := List Char → Option (α × List Char)

/-- The value of a digit in bases up to sixteen; letters count in either case. -/
def digitValue (base : Nat) (char : Char) : Option Nat :=
  let code := char.toNat
  let value :=
    if 48 ≤ code ∧ code ≤ 57 then some (code - 48)
    else if 97 ≤ code ∧ code ≤ 102 then some (code - 87)
    else if 65 ≤ code ∧ code ≤ 70 then some (code - 55)
    else none
  value.filter (· < base)

/-- The longest run of digits: their value, how many there are, and the rest. -/
def readDigits (base : Nat) : List Char → Nat → Nat → Nat × Nat × List Char
  | [], value, count => (value, count, [])
  | char :: rest, value, count =>
    match digitValue base char with
    | some digit => readDigits base rest (value * base + digit) (count + 1)
    | none => (value, count, char :: rest)

/-- A number below `limit` with at most `width` digits, if a width is set. -/
def readNumber (base limit : Nat) (width : Option Nat) (leadingZero : Bool) : Reader Nat :=
  fun text =>
    let (value, count, rest) := readDigits base text 0 0
    if count = 0 then none
    else if width.any (· < count) then none
    else if !leadingZero && text.head? == some '0' && 1 < count then none
    else if value < limit then some (value, rest)
    else none

def readChar (expected : Char) : Reader Unit
  | [] => none
  | char :: rest => if char = expected then some ((), rest) else none

/-- Four numbers up to 255 without leading zeros, with dots between them. -/
def readNarrow : Reader Nat := fun text => do
  let octet := readNumber 10 256 (some 3) false
  let (first, rest) ← octet text
  let (_, rest) ← readChar '.' rest
  let (second, rest) ← octet rest
  let (_, rest) ← readChar '.' rest
  let (third, rest) ← octet rest
  let (_, rest) ← readChar '.' rest
  let (fourth, rest) ← octet rest
  pure (((first * 256 + second) * 256 + third) * 256 + fourth, rest)

def readPort : Reader UInt16 := fun text => do
  let (_, rest) ← readChar ':' text
  let (port, rest) ← readNumber 10 65536 none true rest
  pure (UInt16.ofNat port, rest)

/-- Up to `room` groups with colons between them, the last two of which may be a narrow address.
The answer holds the groups and whether a narrow address ended them. -/
def readGroups : Nat → Bool → List Char → List Nat × Bool × List Char
  | 0, _, text => ([], false, text)
  | room + 1, isFirst, text =>
    let inside := if isFirst then some text else (readChar ':' text).map Prod.snd
    match inside with
    | none => ([], false, text)
    | some inner =>
      match (if room = 0 then none else readNarrow inner) with
      | some (narrow, rest) => ([narrow / 65536, narrow % 65536], true, rest)
      | none =>
        match readNumber 16 65536 (some 4) true inner with
        | none => ([], false, text)
        | some (group, rest) =>
          let (others, narrow, rest) := readGroups room false rest
          (group :: others, narrow, rest)

/-- The address that eight groups make. -/
def ofGroups (groups : List Nat) : BitVec 128 :=
  BitVec.ofNat 128 (groups.foldl (fun value group => value * 65536 + group) 0)

/-- A wide address: eight groups, or fewer around one double colon. -/
def readWide : Reader (BitVec 128) := fun text => do
  let (head, endsNarrow, rest) := readGroups 8 true text
  if head.length = 8 then pure (ofGroups head, rest)
  else if endsNarrow then none
  else
    let (_, rest) ← readChar ':' rest
    let (_, rest) ← readChar ':' rest
    let (tail, _, rest) := readGroups (7 - head.length) true rest
    let zeros := List.replicate (8 - head.length - tail.length) 0
    pure (ofGroups (head ++ zeros ++ tail), rest)

def readScope : Reader UInt32 := fun text => do
  let (_, rest) ← readChar '%' text
  let (scope, rest) ← readNumber 10 UInt32.size none true rest
  pure (UInt32.ofNat scope, rest)

def readNarrowSocket : Reader SocketAddress := fun text => do
  let (ip, rest) ← readNarrow text
  let (port, rest) ← readPort rest
  pure (.v4 (BitVec.ofNat 32 ip) port, rest)

def readWideSocket : Reader SocketAddress := fun text => do
  let (_, rest) ← readChar '[' text
  let (ip, rest) ← readWide rest
  let (scope, rest) := (readScope rest).getD (0, rest)
  let (_, rest) ← readChar ']' rest
  let (port, rest) ← readPort rest
  pure (.v6 ip port 0 scope, rest)

/-- Reads an address that makes up the whole text. -/
def ofText? (text : String) : Option SocketAddress :=
  match (readNarrowSocket text.toList).orElse fun _ => readWideSocket text.toList with
  | some (address, []) => some address
  | _ => none

end Overlay.SocketAddress
