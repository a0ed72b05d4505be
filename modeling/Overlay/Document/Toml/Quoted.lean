import Overlay.Document.Toml.Scalar

/-!
Quoted text of a TOML document: on one line or on several, with escapes between double quotes and
without between single ones.
-/

set_option autoImplicit false

namespace Overlay.Document.Toml

/-- Text taken from the front of a document, and the rest. -/
abbrev Taken := Option (List Char × List Char)

/-- Control characters may not stand in a document, tabs apart. -/
def isPrintable (char : Char) : Bool := char = '\t' || (31 < char.toNat && char.toNat ≠ 127)

/-- A character by its number, given in exactly `width` hexadecimal digits. -/
def numbered? (width : Nat) (text : List Char) : Option (Char × List Char) := do
  let taken := text.take width
  if taken.length ≠ width ∨ taken.any (fun char => (digit? 16 char).isNone) then none
  let value ← digits? 16 taken
  if value < 0xd800 ∨ (0xdfff < value ∧ value < 0x110000) then
    some (Char.ofNat value, text.drop width)
  else none

/-- The character that an escape stands for; the text starts after the backslash. -/
def escape? : List Char → Option (Char × List Char)
  | 'b' :: rest => some ('\x08', rest)
  | 't' :: rest => some ('\t', rest)
  | 'n' :: rest => some ('\n', rest)
  | 'f' :: rest => some ('\x0c', rest)
  | 'r' :: rest => some ('\r', rest)
  | '"' :: rest => some ('"', rest)
  | '\\' :: rest => some ('\\', rest)
  | 'u' :: rest => numbered? 4 rest
  | 'U' :: rest => numbered? 8 rest
  | _ => none

/-- The rest of a text after a line break. -/
def lineBreak? : List Char → Option (List Char)
  | '\n' :: rest => some rest
  | '\r' :: '\n' :: rest => some rest
  | _ => none

def isBlank (char : Char) : Bool := char = ' ' || char = '\t'

/-- Drops blanks and line breaks. -/
def skipLines (text : List Char) : List Char :=
  match text with
  | '\r' :: '\n' :: rest => skipLines rest
  | char :: rest => if char = ' ' ∨ char = '\t' ∨ char = '\n' then skipLines rest else text
  | [] => []

/-- The text up to the closing double quote. The bound is the length of the text. -/
def readEscaped : Nat → List Char → Taken
  | 0, _ => none
  | bound + 1, text =>
    match text with
    | '"' :: rest => some ([], rest)
    | '\\' :: rest => do
      let (char, rest) ← escape? rest
      let (more, rest) ← readEscaped bound rest
      pure (char :: more, rest)
    | char :: rest => do
      if !isPrintable char then none
      let (more, rest) ← readEscaped bound rest
      pure (char :: more, rest)
    | [] => none

/-- The text up to the closing single quote. -/
def readLiteral : List Char → Taken
  | [] => none
  | '\'' :: rest => some ([], rest)
  | char :: rest => do
    if !isPrintable char then none
    let (more, rest) ← readLiteral rest
    pure (char :: more, rest)

/-- Three to five quotes end a text of several lines; those beyond three belong to it. -/
def closing? (quote : Char) (text : List Char) : Taken :=
  let quotes := text.takeWhile (· = quote)
  if 3 ≤ quotes.length then
    let extra := min (quotes.length - 3) 2
    some (List.replicate extra quote, text.drop (3 + extra))
  else none

/-- Several lines between triple double quotes. A backslash at the end of a line takes the blanks
and breaks after it away. -/
def readEscapedLines : Nat → List Char → Taken
  | 0, _ => none
  | bound + 1, text =>
    match closing? '"' text with
    | some taken => some taken
    | none =>
      match lineBreak? text with
      | some rest => do
        let (more, rest) ← readEscapedLines bound rest
        pure ('\n' :: more, rest)
      | none =>
        match text with
        | '\\' :: rest =>
          match lineBreak? (rest.dropWhile isBlank) with
          | some rest => readEscapedLines bound (skipLines rest)
          | none => do
            let (char, rest) ← escape? rest
            let (more, rest) ← readEscapedLines bound rest
            pure (char :: more, rest)
        | char :: rest => do
          if !isPrintable char then none
          let (more, rest) ← readEscapedLines bound rest
          pure (char :: more, rest)
        | [] => none

/-- Several lines between triple single quotes. -/
def readLiteralLines : Nat → List Char → Taken
  | 0, _ => none
  | bound + 1, text =>
    match closing? '\'' text with
    | some taken => some taken
    | none =>
      match lineBreak? text with
      | some rest => do
        let (more, rest) ← readLiteralLines bound rest
        pure ('\n' :: more, rest)
      | none =>
        match text with
        | char :: rest => do
          if !isPrintable char then none
          let (more, rest) ← readLiteralLines bound rest
          pure (char :: more, rest)
        | [] => none

/-- A quoted text on one line. -/
def readQuoted? : List Char → Taken
  | '"' :: rest => readEscaped (rest.length + 1) rest
  | '\'' :: rest => readLiteral rest
  | _ => none

/-- Any quoted text; a line break right after triple quotes does not count. -/
def readText? : List Char → Taken
  | '"' :: '"' :: '"' :: rest =>
    readEscapedLines (rest.length + 1) ((lineBreak? rest).getD rest)
  | '\'' :: '\'' :: '\'' :: rest =>
    readLiteralLines (rest.length + 1) ((lineBreak? rest).getD rest)
  | text => readQuoted? text

end Overlay.Document.Toml
