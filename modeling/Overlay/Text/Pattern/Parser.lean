import Overlay.Text.Character
import Overlay.Text.Pattern.Basic

/-!
Reading a pattern.

A pattern holds no comma, equals sign or closing brace, because these end it where it stands; so
every opening brace outside a set asks for something that cannot come. Every reader takes the rest
of the text and hands on what remains after it, or nothing where the pattern is malformed.
-/

set_option autoImplicit false

namespace Overlay.Text

/-- Drops blanks and comments; the flag tells whether a comment is open. -/
def dropLoose : Bool → List Char → List Char
  | _, [] => []
  | true, char :: rest => dropLoose (char ≠ '\n') rest
  | false, char :: rest =>
    if isBlank char then dropLoose false rest
    else if char = '#' then dropLoose true rest
    else char :: rest

/-- Drops blanks and comments where they do not count. -/
def skipLoose (isLoose : Bool) (text : List Char) : List Char :=
  if isLoose then dropLoose false text else text

/-- The same where something must follow. -/
def skipLoose? (isLoose : Bool) (text : List Char) : Option (List Char) :=
  match skipLoose isLoose text with
  | [] => none
  | rest => some rest

/-- The next character that counts; a comment only hides its mark. -/
def glance (isLoose : Bool) (text : List Char) : Option Char :=
  if isLoose then
    match text.dropWhile isBlank with
    | '#' :: rest => (rest.dropWhile isBlank).head?
    | rest => rest.head?
  else text.head?

namespace Pattern

/-- The value of a hexadecimal digit. -/
def hexValue? (char : Char) : Option Nat :=
  if char.isDigit then some (char.toNat - 48)
  else if 'a' ≤ char ∧ char ≤ 'f' then some (char.toNat - 87)
  else if 'A' ≤ char ∧ char ≤ 'F' then some (char.toNat - 55)
  else none

/-- The number that exactly `count` hexadecimal digits make, after `value`. -/
def readHex (isLoose : Bool) : Nat → Nat → List Char → Option (Nat × List Char)
  | 0, value, text => some (value, text)
  | count + 1, value, text =>
    match skipLoose isLoose text with
    | [] => none
    | char :: rest => do readHex isLoose count (value * 16 + (← hexValue? char)) rest

/-- A character by its number. -/
def ofNumber? (number : Nat) : Option Char :=
  if h : number.isValidChar then some (Char.ofNatAux number h) else none

/-- Whether a backslash leaves a character as it is, or makes it plain. -/
def isEscapable (char : Char) : Bool :=
  char.toNat < 128 && !char.isAlphanum && char ≠ '<' && char ≠ '>'

/-- The characters that have a letter of their own behind a backslash. -/
def letterEscapes : List (Char × Char) :=
  [('a', '\x07'), ('f', '\x0c'), ('t', '\t'), ('n', '\n'), ('r', '\r'), ('v', '\x0b')]

/-- What stands behind a backslash: one character, a set, or an edge. -/
def readEscape (isLoose : Bool) (text : List Char) : Option (Pattern × List Char) :=
  match text with
  | [] => none
  | char :: rest =>
    let hex := fun (count : Nat) => do
      let (number, rest) ← readHex isLoose count 0 rest
      pure (Pattern.literal ⟨← ofNumber? number, count = 2⟩, rest)
    if char = 'x' then hex 2
    else if char = 'u' then hex 4
    else if char = 'U' then hex 8
    else if char = 'p' ∨ char = 'P' then
      match skipLoose isLoose rest with
      | [] | '\\' :: _ | '\x7b' :: _ => none
      | _ :: rest => some (.oneOf .property, rest)
    else if char ∈ ['d', 's', 'w'] then some (.oneOf (.shorthand false), rest)
    else if char ∈ ['D', 'S', 'W'] then some (.oneOf (.shorthand true), rest)
    else if char ∈ ['A', 'z'] then some (.edge, rest)
    else if char ∈ ['b', 'B', '<', '>'] then some (.wordEdge, rest)
    else if isEscapable char then some (.literal ⟨char, false⟩, rest)
    else match letterEscapes.find? (·.1 = char) with
      | some (_, meant) => some (.literal ⟨meant, false⟩, rest)
      | none => none

/-- The names of the classes of characters below 128. -/
def classNames : List String :=
  ["alnum", "alpha", "ascii", "blank", "cntrl", "digit", "graph", "lower", "print", "punct",
    "space", "upper", "word", "xdigit"]

/-- A class by name, between colons. The text starts behind the opening bracket. -/
def readNamed? (text : List Char) : Option (CharSet × List Char) :=
  match text with
  | ':' :: rest =>
    let (isNegated, rest) := match rest with
      | '^' :: rest => (true, rest)
      | rest => (false, rest)
    let name := rest.takeWhile (· ≠ ':')
    match rest.drop name.length with
    | ':' :: ']' :: rest =>
      if String.ofList name ∈ classNames then some (.named isNegated, rest) else none
    | _ => none
  | _ => none

/-- One end of a range, or a set that stands for itself. -/
def readMember (isLoose : Bool) (text : List Char) : Option (CharSet × List Char) :=
  match text with
  | [] => none
  | '\\' :: rest => do
    match ← readEscape isLoose rest with
    | (.literal item, rest) => pure (.single item, rest)
    | (.oneOf set, rest) => pure (set, rest)
    | _ => none
  | char :: rest => some (.single ⟨char, false⟩, rest)

/-- A member of a set, or a range of characters. -/
def readRange (isLoose : Bool) (text : List Char) : Option (CharSet × List Char) := do
  let (first, rest) ← readMember isLoose text
  match ← skipLoose? isLoose rest with
  | '-' :: rest =>
    if glance isLoose rest ∈ [some ']', some '-'] then pure (first, '-' :: rest)
    else do
      let (last, rest) ← readMember isLoose (← skipLoose? isLoose rest)
      match first, last with
      | .single low, .single high =>
        if low.char ≤ high.char then pure (.range low high, rest) else none
      | _, _ => none
  | rest => pure (first, rest)

/-- The hyphens that start a set. -/
def readHyphens (isLoose : Bool) : Nat → List Char → Option (List CharSet × List Char)
  | 0, _ => none
  | bound + 1, text =>
    match text with
    | '-' :: rest => do
      let (more, rest) ← readHyphens isLoose bound (← skipLoose? isLoose rest)
      pure (.single ⟨'-', false⟩ :: more, rest)
    | rest => some ([], rest)

/-- The start of a set behind its bracket: whether it is negated, and its first members, among which
a closing bracket may stand. -/
def readSetStart (isLoose : Bool) (text : List Char) :
    Option (Bool × List CharSet × List Char) := do
  let text ← skipLoose? isLoose text
  let (isNegated, text) ← match text with
    | '^' :: rest => do pure (true, ← skipLoose? isLoose rest)
    | rest => pure (false, rest)
  let (members, text) ← readHyphens isLoose (text.length + 1) text
  match members, text with
  | [], ']' :: rest => do pure (isNegated, [.single ⟨']', false⟩], ← skipLoose? isLoose rest)
  | _, _ => pure (isNegated, members, text)

/-- The members so far, put together with the sets before the last operation. -/
def closeSet (before : Option CharSet) (members : List CharSet) : CharSet :=
  match before with
  | some left => .combined left (.ofMembers members)
  | none => .ofMembers members

mutual

/-- A set behind its opening bracket. -/
def readSet : Nat → Bool → List Char → Option (CharSet × List Char)
  | 0, _, _ => none
  | bound + 1, isLoose, text => do
    let (isNegated, members, rest) ← readSetStart isLoose text
    let (inner, rest) ← readMembers bound isLoose none members rest
    pure (.bracketed isNegated inner, rest)

/-- The members of a set up to its closing bracket. -/
def readMembers : Nat → Bool → Option CharSet → List CharSet → List Char →
    Option (CharSet × List Char)
  | 0, _, _, _, _ => none
  | bound + 1, isLoose, before, members, text =>
    match skipLoose isLoose text with
    | [] => none
    | ']' :: rest => some (closeSet before members, rest)
    | '[' :: rest => do
      let (member, rest) ← match readNamed? rest with
        | some found => some found
        | none => readSet bound isLoose rest
      readMembers bound isLoose before (members ++ [member]) rest
    | '&' :: '&' :: rest | '-' :: '-' :: rest | '~' :: '~' :: rest =>
      readMembers bound isLoose (some (closeSet before members)) [] rest
    | rest => do
      let (member, rest) ← readRange isLoose rest
      readMembers bound isLoose before (members ++ [member]) rest

end

/-- A switch by its letter. -/
def flag? (char : Char) : Option PatternFlag :=
  match char with
  | 'i' => some .caseless
  | 'm' => some .multiline
  | 's' => some .dotForAll
  | 'U' => some .lazy
  | 'u' => some .allScripts
  | 'R' => some .returnBreaks
  | 'x' => some .loose
  | _ => none

/-- The switches of a group up to a colon or a closing bracket, which stays. A hyphen turns off what
follows it; it stands once at most, and never last. -/
def readFlags : Bool → List FlagChange → List Char → Option (List FlagChange × List Char)
  | _, _, [] => none
  | isOn, changes, char :: rest =>
    if char = ':' ∨ char = ')' then some (changes, char :: rest)
    else if char = '-' then
      if isOn ∧ rest.head? ∉ [some ':', some ')'] then readFlags false changes rest else none
    else match flag? char with
      | some flag =>
        if changes.any (·.flag == flag) then none
        else readFlags isOn (changes ++ [⟨flag, isOn⟩]) rest
      | none => none

/-- The name of a group up to its closing angle bracket. -/
def readName? (text : List Char) : Option (List Char × List Char) :=
  let name := text.takeWhile (· ≠ '>')
  let isMiddle := fun (char : Char) =>
    isLetter char || isNumeral char || char ∈ ['_', '.', '[', ']']
  match name, text.drop name.length with
  | first :: others, '>' :: rest =>
    if (isLetter first || first = '_') && others.all isMiddle then some (name, rest) else none
  | _, _ => none

/-- How a group starts. -/
inductive Opening
  /-- Switches alone: the brackets are already closed. -/
  | switches (changes : List FlagChange)
  | body (changes : List FlagChange) (name : Option (List Char))

/-- The start of a group behind its opening bracket. -/
def readOpening (isLoose : Bool) (text : List Char) : Option (Opening × List Char) :=
  match skipLoose isLoose text with
  | '?' :: '!' :: _ | '?' :: '<' :: '!' :: _ => none
  | '?' :: 'P' :: '<' :: rest | '?' :: '<' :: rest => do
    let (name, rest) ← readName? rest
    pure (.body [] (some name), rest)
  | '?' :: rest => do
    match ← readFlags true [] rest with
    | ([], ')' :: _) => none
    | (changes, ')' :: rest) => pure (.switches changes, rest)
    | (changes, rest) => pure (.body changes none, rest.drop 1)
  | rest => some (.body [] none, rest)

/-- Whether blanks and comments do not count after some switches. -/
def isLooseAfter (isLoose : Bool) (changes : List FlagChange) : Bool :=
  match changes.find? (·.flag == .loose) with
  | some change => change.isOn
  | none => isLoose

/-- What was read of a group: its finished alternatives and the parts of the one being read, newest
first, and the names of all groups so far. -/
structure Body where
  choices : List Pattern
  parts : List Pattern
  names : List (List Char)

def Body.add (body : Body) (part : Pattern) : Body := { body with parts := part :: body.parts }

/-- The alternatives put together. -/
def Body.close (body : Body) : Pattern :=
  .ofChoices (.ofParts body.parts.reverse :: body.choices).reverse

/-- The inside of a group up to a closing bracket, which stays, or the end of the text. -/
def readBody : Nat → Bool → Body → List Char → Option (Pattern × List (List Char) × List Char)
  | 0, _, _, _ => none
  | bound + 1, isLoose, body, text =>
    match skipLoose isLoose text with
    | [] => some (body.close, body.names, [])
    | ')' :: rest => some (body.close, body.names, ')' :: rest)
    | '(' :: rest => do
      match ← readOpening isLoose rest with
      | (.switches changes, rest) =>
        readBody bound (isLooseAfter isLoose changes) (body.add (.flags changes)) rest
      | (.body changes name, rest) => do
        if name.any (· ∈ body.names) then none
        let (inner, names, rest) ← readBody bound (isLooseAfter isLoose changes)
          ⟨[], [], name.toList ++ body.names⟩ rest
        match rest with
        | ')' :: rest =>
          readBody bound isLoose ({ body with names }.add (.group changes inner)) rest
        | _ => none
    | '|' :: rest =>
      readBody bound isLoose
        { body with choices := .ofParts body.parts.reverse :: body.choices, parts := [] } rest
    | '[' :: rest => do
      let (set, rest) ← readSet (rest.length + 1) isLoose rest
      readBody bound isLoose (body.add (.oneOf set)) rest
    | '?' :: rest | '*' :: rest | '+' :: rest =>
      let rest := match rest with
        | '?' :: rest => rest
        | rest => rest
      match body.parts with
      | [] | .flags _ :: _ => none
      | part :: others =>
        readBody bound isLoose { body with parts := .repeated part :: others } rest
    | '\x7b' :: _ => none
    | '\\' :: rest => do
      let (part, rest) ← readEscape isLoose rest
      readBody bound isLoose (body.add part) rest
    | '.' :: rest => readBody bound isLoose (body.add .anyChar) rest
    | '^' :: rest | '$' :: rest => readBody bound isLoose (body.add .edge) rest
    | char :: rest => readBody bound isLoose (body.add (.literal ⟨char, false⟩)) rest

/-- The pattern that a text makes, or nothing if it is malformed. -/
def parse? (text : List Char) : Option Pattern :=
  match readBody (text.length + 1) false ⟨[], [], []⟩ text with
  | some (pattern, _, []) => some pattern
  | _ => none

end Pattern

end Overlay.Text
