import Overlay.Document.Value

/-!
The tables of a TOML document while it is read.

A table can be opened once by a header, or grow through dotted keys, or come into being as the
parent of another one; what may be added to it later depends on which of these made it.
-/

set_option autoImplicit false

namespace Overlay.Document.Toml

/-- How a table came into being. -/
inductive Origin
  /-- By its own header, or between braces. -/
  | header
  /-- As the parent of a table with a header. -/
  | parent
  /-- As the parent of a value with a dotted key. -/
  | dotted
deriving DecidableEq, Inhabited, Repr

/-- A place of the document: a value, a table, or the tables of a list with their newest last. -/
inductive Tree
  | leaf (value : Value)
  | branch (origin : Origin) (children : List (String × Tree))
  | rows (tables : List (List (String × Tree)))
deriving Inhabited, Repr

abbrev Children := List (String × Tree)

/-- The child of a name. -/
def Children.get? (children : Children) (name : String) : Option Tree :=
  (children.find? (·.1 == name)).map Prod.snd

/-- Puts a child in the place of the one of the same name, or at the end. -/
def Children.set (children : Children) (name : String) (child : Tree) : Children :=
  match children with
  | [] => [(name, child)]
  | first :: rest =>
    if first.1 == name then (name, child) :: rest else first :: Children.set rest name child

/-- Changes the table that a path of dotted keys leads to; the tables on the way must have come into
being without a header. -/
def alongDotted (change : Children → Option Children) :
    List String → Children → Option Children
  | [], children => change children
  | name :: path, children =>
    match children.get? name with
    | none => do pure (children.set name (.branch .dotted (← alongDotted change path [])))
    | some (.branch .dotted inner) => do
      pure (children.set name (.branch .dotted (← alongDotted change path inner)))
    | some (.branch .parent inner) => do
      if path.isEmpty then none
      pure (children.set name (.branch .parent (← alongDotted change path inner)))
    | some (.rows tables) => do
      if path.isEmpty then none
      match tables.reverse with
      | [] => none
      | newest :: older =>
        let changed ← alongDotted change path newest
        pure (children.set name (.rows (changed :: older).reverse))
    | some _ => none

/-- Adds a value under a dotted key, none of whose last name may be there yet. -/
def insertValue (key : List String) (value : Value) (children : Children) : Option Children :=
  match key.reverse with
  | [] => none
  | last :: path =>
    alongDotted (fun inner =>
      if (inner.get? last).isSome then none else some (inner.set last (.leaf value)))
      path.reverse children

/-- Changes the table that a header's path leads to; missing tables come into being, and a list of
tables stands for its newest one. -/
def alongHeader (change : Children → Option Children) :
    List String → Children → Option Children
  | [], children => change children
  | name :: path, children =>
    match children.get? name with
    | none => do pure (children.set name (.branch .parent (← alongHeader change path [])))
    | some (.branch origin inner) => do
      pure (children.set name (.branch origin (← alongHeader change path inner)))
    | some (.rows tables) =>
      match tables.reverse with
      | [] => none
      | newest :: older => do
        let changed ← alongHeader change path newest
        pure (children.set name (.rows (changed :: older).reverse))
    | some (.leaf _) => none

/-- Opens a table by its header; only one that came into being as a parent may be there. -/
def openTable (key : List String) (children : Children) : Option Children :=
  match key.reverse with
  | [] => none
  | last :: path =>
    alongHeader (fun inner =>
      match inner.get? last with
      | none => some (inner.set last (.branch .header []))
      | some (.branch .parent old) => some (inner.set last (.branch .header old))
      | some _ => none) path.reverse children

/-- Adds a table to a list of tables. -/
def openRow (key : List String) (children : Children) : Option Children :=
  match key.reverse with
  | [] => none
  | last :: path =>
    alongHeader (fun inner =>
      match inner.get? last with
      | none => some (inner.set last (.rows [[]]))
      | some (.rows tables) => some (inner.set last (.rows (tables ++ [[]])))
      | some _ => none) path.reverse children

mutual

/-- The value of a place. -/
def Tree.value : Tree → Value
  | .leaf value => value
  | .branch _ children => .table (fieldsOf children)
  | .rows tables => .list (rowsOf tables)

/-- The fields of a table. -/
def fieldsOf : List (String × Tree) → Fields
  | [] => []
  | (name, child) :: rest => (name, child.value) :: fieldsOf rest

/-- The tables of a list. -/
def rowsOf : List (List (String × Tree)) → List Value
  | [] => []
  | table :: rest => .table (fieldsOf table) :: rowsOf rest

end

end Overlay.Document.Toml
