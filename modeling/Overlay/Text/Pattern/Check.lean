import Overlay.Text.Pattern.Parser

/-!
Which patterns can be used.

A pattern must be well-formed and not nest too deep. Sets that need tables of all scripts (classes
by shorthand or property, letters in either case) can be used only where the pattern is about bytes
below 128; there, in turn, nothing may match half a character. Edges of words can be found only
among such bytes.
-/

set_option autoImplicit false

namespace Overlay.Text

/-- The switches that decide what can be used. -/
structure PatternMode where
  isCaseless : Bool
  allScripts : Bool
deriving DecidableEq, Inhabited, Repr

namespace PatternMode

/-- How a pattern starts. -/
def initial : PatternMode := ⟨false, true⟩

def change (mode : PatternMode) (change : FlagChange) : PatternMode :=
  match change.flag with
  | .caseless => { mode with isCaseless := change.isOn }
  | .allScripts => { mode with allScripts := change.isOn }
  | _ => mode

/-- Whether a character of a set can be used. -/
def allowsMember (mode : PatternMode) (item : PatternChar) : Bool :=
  if mode.allScripts then !mode.isCaseless else item.char.toNat < 128

/-- Whether a character outside of sets can be used. -/
def allowsChar (mode : PatternMode) (item : PatternChar) : Bool :=
  if mode.allScripts then !mode.isCaseless else !item.isByte || item.char.toNat < 128

end PatternMode

mutual

/-- Whether a set can be used. -/
def CharSet.isUsable (mode : PatternMode) : CharSet → Bool
  | .empty => true
  | .single item => mode.allowsMember item
  | .range first last => mode.allowsMember first && mode.allowsMember last
  | .named isNegated => if mode.allScripts then !mode.isCaseless else !isNegated
  | .shorthand isNegated => !mode.allScripts && !isNegated
  | .property => false
  | .bracketed isNegated inner => inner.isUsable mode && (mode.allScripts || !isNegated)
  | .union members => CharSet.areUsable mode members
  | .combined left right => left.isUsable mode && right.isUsable mode

/-- Whether several sets can be used. -/
def CharSet.areUsable (mode : PatternMode) : List CharSet → Bool
  | [] => true
  | set :: rest => set.isUsable mode && CharSet.areUsable mode rest

end

/-- What a look at a part of a pattern tells: the switches after it, whether it can be used, and
whether it has an edge of words in all scripts. -/
structure PatternView where
  mode : PatternMode
  isUsable : Bool
  hasWordEdge : Bool
deriving DecidableEq, Inhabited, Repr

mutual

/-- Looks at a pattern. Switches hold up to the end of the group in which they stand. -/
def Pattern.view (mode : PatternMode) : Pattern → PatternView
  | .empty | .edge => ⟨mode, true, false⟩
  | .flags changes => ⟨changes.foldl .change mode, true, false⟩
  | .literal item => ⟨mode, mode.allowsChar item, false⟩
  | .anyChar => ⟨mode, mode.allScripts, false⟩
  | .wordEdge => ⟨mode, true, mode.allScripts⟩
  | .oneOf set => ⟨mode, set.isUsable mode, false⟩
  | .repeated part => part.view mode
  | .group changes part => { part.view (changes.foldl .change mode) with mode }
  | .choice parts | .sequence parts => Pattern.views mode parts

/-- Looks at several patterns, one after the other. -/
def Pattern.views (mode : PatternMode) : List Pattern → PatternView
  | [] => ⟨mode, true, false⟩
  | part :: rest =>
    let first := part.view mode
    let others := Pattern.views first.mode rest
    ⟨others.mode, first.isUsable && others.isUsable, first.hasWordEdge || others.hasWordEdge⟩

end

namespace Pattern

/-- The most levels that a pattern may nest. -/
def deepestNesting : Nat := 250

/-- What is wrong with a pattern, if anything is. -/
def fault? (text : List Char) : Option PatternFault :=
  match parse? text with
  | none => some .malformed
  | some pattern =>
    let view := pattern.view .initial
    if deepestNesting < pattern.depth ∨ !view.isUsable then some .malformed
    else if view.hasWordEdge then some .wordEdges
    else none

end Pattern

end Overlay.Text
