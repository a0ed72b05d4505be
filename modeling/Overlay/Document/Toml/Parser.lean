import Overlay.Document.Toml.Quoted
import Overlay.Document.Toml.Tree

/-!
Reading a TOML document into a table of values.

Every reader takes the rest of the document and hands on what remains after it, or nothing where the
document is malformed. The bound of a reader counts down with every piece that it takes, so the
length of the document is always enough.
-/

set_option autoImplicit false

namespace Overlay.Document.Toml

def skipBlanks (text : List Char) : List Char := text.dropWhile isBlank

/-- Drops a comment, if there is one; the line break stays. -/
def skipComment? (text : List Char) : Option (List Char) :=
  match text with
  | '#' :: rest =>
    let body := rest.takeWhile fun char => char ≠ '\n' && char ≠ '\r'
    if body.all isPrintable then some (rest.drop body.length) else none
  | rest => some rest

/-- The end of a line: blanks, perhaps a comment, and a line break or the end of the document. -/
def endLine? (text : List Char) : Option (List Char) := do
  match ← skipComment? (skipBlanks text) with
  | [] => some []
  | rest => lineBreak? rest

/-- Drops blanks, line breaks and comments between the items of a list. -/
def skipBetween : Nat → List Char → Option (List Char)
  | 0, _ => none
  | bound + 1, text => do
    let rest ← skipComment? (skipBlanks text)
    match lineBreak? rest with
    | some rest => skipBetween bound rest
    | none => some rest

/-- The characters of a key without quotes. -/
def isKeyChar (char : Char) : Bool := char.isAlphanum || char = '_' || char = '-'

/-- One part of a key. -/
def readName? (text : List Char) : Option (String × List Char) :=
  match text with
  | '"' :: _ | '\'' :: _ =>
    (readQuoted? text).map fun (name, rest) => (String.ofList name, rest)
  | _ =>
    let name := text.takeWhile isKeyChar
    if name.isEmpty then none else some (String.ofList name, text.drop name.length)

/-- Lists and tables in braces nest at most this deep, and keys have at most so many parts. -/
def deepest : Nat := 79

/-- A key of at most `bound` parts. -/
def readParts : Nat → List Char → Option (List String × List Char)
  | 0, _ => none
  | bound + 1, text => do
    let (name, rest) ← readName? text
    match skipBlanks rest with
    | '.' :: rest => do
      let (more, rest) ← readParts bound (skipBlanks rest)
      pure (name :: more, rest)
    | rest => pure ([name], rest)

/-- A key: parts with dots between them, and blanks around the dots. The rest starts behind the
blanks after the key. -/
def readKey? (text : List Char) : Option (List String × List Char) := readParts deepest text

mutual

/-- A value of any kind. -/
def readValue : Nat → Nat → List Char → Option (Value × List Char)
  | 0, _, _ => none
  | bound + 1, depth, text =>
    match text with
    | '"' :: _ | '\'' :: _ =>
      (readText? text).map fun (chars, rest) => (.text (String.ofList chars), rest)
    | '[' :: rest => do
      if depth = 0 then none
      let (items, rest) ← readItems bound (depth - 1) rest
      pure (.list items, rest)
    | '{' :: rest => do
      if depth = 0 then none
      let (children, rest) ← readBraces bound (depth - 1) [] (skipBlanks rest)
      pure (.table (fieldsOf children), rest)
    | _ => readScalar? text

/-- The items of a list up to its closing bracket. -/
def readItems : Nat → Nat → List Char → Option (List Value × List Char)
  | 0, _, _ => none
  | bound + 1, depth, text => do
    match ← skipBetween (text.length + 1) text with
    | ']' :: rest => pure ([], rest)
    | rest => do
      let (item, rest) ← readValue bound depth rest
      match ← skipBetween (rest.length + 1) rest with
      | ',' :: rest => do
        let (more, rest) ← readItems bound depth rest
        pure (item :: more, rest)
      | ']' :: rest => pure ([item], rest)
      | _ => none

/-- The fields of a table up to its closing brace. -/
def readBraces : Nat → Nat → Children → List Char → Option (Children × List Char)
  | 0, _, _, _ => none
  | bound + 1, depth, children, text =>
    match text with
    | '}' :: rest => if children.isEmpty then some (children, rest) else none
    | _ => do
      let (key, rest) ← readKey? text
      let rest ← skip? '=' rest
      let (value, rest) ← readValue bound depth (skipBlanks rest)
      let children ← insertValue key value children
      match skipBlanks rest with
      | ',' :: rest => do
        let (children, rest) ← readBraces bound depth children (skipBlanks rest)
        pure (children, rest)
      | '}' :: rest => pure (children, rest)
      | _ => none

end

/-- The document read so far and the header whose table is open. -/
structure State where
  children : Children
  path : List String
deriving Inhabited, Repr

/-- One line: a header of a table, a header of a row, or a value with its key. -/
def readLine? (state : State) (text : List Char) : Option (State × List Char) :=
  match text with
  | '[' :: '[' :: rest => do
    let (key, rest) ← readKey? (skipBlanks rest)
    let rest ← skip? ']' rest >>= skip? ']'
    pure (⟨← openRow key state.children, key⟩, ← endLine? rest)
  | '[' :: rest => do
    let (key, rest) ← readKey? (skipBlanks rest)
    let rest ← skip? ']' rest
    pure (⟨← openTable key state.children, key⟩, ← endLine? rest)
  | _ => do
    let (key, rest) ← readKey? text
    let rest ← skip? '=' rest
    let (value, rest) ← readValue (rest.length + 1) deepest (skipBlanks rest)
    let children ← alongHeader (insertValue key value) state.path state.children
    pure (⟨children, state.path⟩, ← endLine? rest)

/-- All lines up to the end of the document. -/
def readLines : Nat → State → List Char → Option Children
  | 0, _, _ => none
  | bound + 1, state, text =>
    match skipBlanks text with
    | [] => some state.children
    | '#' :: rest => do readLines bound state (← endLine? ('#' :: rest))
    | rest =>
      match lineBreak? rest with
      | some rest => readLines bound state rest
      | none => do
        let (state, rest) ← readLine? state rest
        readLines bound state rest

/-- The table that a document makes, or nothing if it is malformed. A mark of the byte order may
stand before it. -/
def parse? (text : String) : Option Fields :=
  let chars := match text.toList with
    | '\ufeff' :: rest => rest
    | chars => chars
  (readLines (chars.length + 2) ⟨[], []⟩ chars).map fieldsOf

end Overlay.Document.Toml
