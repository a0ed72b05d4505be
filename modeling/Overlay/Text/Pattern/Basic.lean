/-!
Patterns of text.

A pattern matches characters one by one, or in sets between brackets, and is built from parts in
sequence, in alternatives, repeated, or grouped. Flags change how the rest of a group is read. How
deep a pattern nests is limited.
-/

set_option autoImplicit false

namespace Overlay.Text

/-- The switches of a pattern. -/
inductive PatternFlag
  /-- Letters match in either case. -/
  | caseless
  | multiline
  | dotForAll
  | lazy
  /-- Characters of all scripts count, not just bytes below 128. -/
  | allScripts
  | returnBreaks
  /-- Blanks and comments in the pattern do not count. -/
  | loose
deriving DecidableEq, Inhabited, Repr

/-- A switch turned on or off. -/
structure FlagChange where
  flag : PatternFlag
  isOn : Bool
deriving DecidableEq, Inhabited, Repr

/-- One character, and whether it was written as a byte of two hexadecimal digits. -/
structure PatternChar where
  char : Char
  isByte : Bool
deriving DecidableEq, Inhabited, Repr

/-- A set of characters. -/
inductive CharSet
  | empty
  | single (item : PatternChar)
  | range (first last : PatternChar)
  /-- A class of characters below 128, by name. -/
  | named (isNegated : Bool)
  /-- Digits, blanks or word characters. -/
  | shorthand (isNegated : Bool)
  /-- Characters with a property, by the letter of the property. -/
  | property
  | bracketed (isNegated : Bool) (inner : CharSet)
  | union (members : List CharSet)
  /-- Two sets put together by an operation. -/
  | combined (left right : CharSet)
deriving Inhabited, Repr

/-- A pattern. -/
inductive Pattern
  | empty
  | flags (changes : List FlagChange)
  | literal (item : PatternChar)
  | anyChar
  /-- The start or the end of a line or of the text. -/
  | edge
  /-- The start or the end of a word, or a place that is neither. -/
  | wordEdge
  | oneOf (set : CharSet)
  | repeated (part : Pattern)
  | group (changes : List FlagChange) (part : Pattern)
  | choice (parts : List Pattern)
  | sequence (parts : List Pattern)
deriving Inhabited, Repr

/-- Why a pattern is refused. -/
inductive PatternFault
  | malformed
  /-- Edges of words in all scripts are not supported. -/
  | wordEdges
deriving DecidableEq, Inhabited, Repr

def PatternFault.message : PatternFault → String
  | .malformed => "error building NFA"
  | .wordEdges => "unsupported regex feature for DFAs: cannot build DFAs for regexes with Unicode "
      ++ "word boundaries; switch to ASCII word boundaries, or heuristically enable Unicode word "
      ++ "boundaries or use a different regex engine"

mutual

/-- How deep a set nests. -/
def CharSet.depth : CharSet → Nat
  | .bracketed _ inner => inner.depth + 1
  | .union members => CharSet.deepest members + 1
  | .combined left right => max left.depth right.depth + 1
  | _ => 0

/-- How deep the deepest of several sets nests. -/
def CharSet.deepest : List CharSet → Nat
  | [] => 0
  | set :: rest => max set.depth (CharSet.deepest rest)

end

mutual

/-- How deep a pattern nests. -/
def Pattern.depth : Pattern → Nat
  | .oneOf set => set.depth
  | .repeated part => part.depth + 1
  | .group _ part => part.depth + 1
  | .choice parts => Pattern.deepest parts + 1
  | .sequence parts => Pattern.deepest parts + 1
  | _ => 0

/-- How deep the deepest of several patterns nests. -/
def Pattern.deepest : List Pattern → Nat
  | [] => 0
  | part :: rest => max part.depth (Pattern.deepest rest)

end

/-- One part alone is no sequence. -/
def Pattern.ofParts : List Pattern → Pattern
  | [] => .empty
  | [part] => part
  | parts => .sequence parts

/-- One alternative alone is no choice. -/
def Pattern.ofChoices : List Pattern → Pattern
  | [part] => part
  | parts => .choice parts

/-- One member alone is no union. -/
def CharSet.ofMembers : List CharSet → CharSet
  | [] => .empty
  | [member] => member
  | members => .union members

end Overlay.Text
