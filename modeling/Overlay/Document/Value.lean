import Overlay.Binary64

/-!
Structured values without a schema: what settings documents hold and what log events carry.
-/

set_option autoImplicit false

namespace Overlay.Document

/-- The kinds of documents that values come from. -/
inductive Format
  | json
  | toml
deriving DecidableEq, Inhabited, Repr

/-- A structured value. The fields of a table keep their order. -/
inductive Value
  | nothing
  | flag (value : Bool)
  | whole (value : Int)
  | real (value : Binary64)
  | moment
  | text (value : String)
  | list (items : List Value)
  | table (fields : List (String × Value))
deriving Inhabited, Repr

/-- The fields of a table by name. -/
abbrev Fields := List (String × Value)

/-- The value of a field, if the table has it. -/
def Fields.get? (fields : Fields) (name : String) : Option Value :=
  (fields.find? (·.1 == name)).map Prod.snd

namespace Value

def flag? : Value → Option Bool
  | .flag value => some value
  | _ => none

def text? : Value → Option String
  | .text value => some value
  | _ => none

/-- A whole number below a limit. -/
def below? (limit : Nat) : Value → Option Nat
  | .whole (.ofNat value) => if value < limit then some value else none
  | _ => none

def word64? (value : Value) : Option UInt64 := (value.below? UInt64.size).map UInt64.ofNat

def word32? (value : Value) : Option UInt32 := (value.below? UInt32.size).map UInt32.ofNat

def list? : Value → Option (List Value)
  | .list items => some items
  | _ => none

/-- Whether a value stands for nothing at all. Where there is no value for it, an empty list or
table does. -/
def isVoid (format : Format) (value : Value) : Bool :=
  match format, value with
  | .json, .nothing | .toml, .list [] | .toml, .table [] => true
  | _, _ => false

/-- The name of one of several constants: a text, or a field with nothing in it. -/
def choice? (format : Format) : Value → Option String
  | .text name => some name
  | .table [(name, value)] => if value.isVoid format then some name else none
  | _ => none

/-- The fields of a table with known names. A list gives the fields in the order of their names, at
least `least` of them; a moment has none of them. -/
def fields? (names : List String) (least : Nat) : Value → Option Fields
  | .table fields => some fields
  | .list items => if least ≤ items.length then some (names.zip items) else none
  | .moment => some []
  | _ => none

mutual

/-- Whether two values are the same, with the fields of their tables in the same order. -/
def same : Value → Value → Bool
  | .nothing, .nothing | .moment, .moment => true
  | .flag left, .flag right => left = right
  | .whole left, .whole right => left = right
  | .real left, .real right => left = right
  | .text left, .text right => left = right
  | .list left, .list right => sameItems left right
  | .table left, .table right => sameFields left right
  | _, _ => false

def sameItems : List Value → List Value → Bool
  | [], [] => true
  | left :: lefts, right :: rights => same left right && sameItems lefts rights
  | _, _ => false

def sameFields : Fields → Fields → Bool
  | [], [] => true
  | (name, left) :: lefts, (other, right) :: rights =>
    name = other && same left right && sameFields lefts rights
  | _, _ => false

end

mutual

theorem same_iff : ∀ left right : Value, left.same right ↔ left = right
  | .list left, right => by cases right <;> simp [same, sameItems_iff left]
  | .table left, right => by cases right <;> simp [same, sameFields_iff left]
  | .nothing, right | .moment, right | .flag _, right | .whole _, right | .real _, right
  | .text _, right => by cases right <;> simp [same]

theorem sameItems_iff : ∀ left right, sameItems left right ↔ left = right
  | [], right => by cases right <;> simp [sameItems]
  | left :: lefts, right => by
      cases right <;> simp [sameItems, same_iff left, sameItems_iff lefts]

theorem sameFields_iff : ∀ left right, sameFields left right ↔ left = right
  | [], right => by cases right <;> simp [sameFields]
  | (name, left) :: lefts, right => by
      cases right <;>
        simp [sameFields, same_iff left, sameFields_iff lefts, and_assoc, Prod.ext_iff]

end

instance : DecidableEq Value := fun left right => decidable_of_iff _ (same_iff left right)

end Value

end Overlay.Document
