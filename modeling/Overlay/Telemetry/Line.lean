import Overlay.Event

/-!
Log events as lines: text for a terminal, or structured data.
-/

set_option autoImplicit false

namespace Overlay

/-- The level in capitals. -/
def Level.capitals (level : Level) : String := level.name.toUpper

namespace Telemetry

open Document (Value)

/-- A text between quotes, with quotes, backslashes and control characters escaped. -/
def quoted (text : String) : String :=
  let escape := fun (char : Char) =>
    if char = '"' then "\\\""
    else if char = '\\' then "\\\\"
    else if char = '\n' then "\\n"
    else if char = '\t' then "\\t"
    else if char = '\r' then "\\r"
    else if char.toNat < 32 then
      "\\u" ++ String.ofList (Hexadecimal.digits 4 char.toNat)
    else char.toString
  "\"" ++ String.join (text.toList.map escape) ++ "\""

/-- A number as it is shown: whole doubles have one place. -/
def realText (number : Binary64) : String :=
  let text := number.shortest
  if number.isFinite && !text.contains '.' then text ++ ".0" else text

mutual

/-- A value as structured data. Numbers that are not finite have no form there. -/
def dataText : Value → String
  | .nothing | .moment => "null"
  | .flag value => if value then "true" else "false"
  | .whole value => toString value
  | .real value => if value.isFinite then realText value else "null"
  | .text value => quoted value
  | .list items => "[" ++ ",".intercalate (itemTexts items) ++ "]"
  | .table fields => "\x7b" ++ ",".intercalate (fieldTexts fields) ++ "\x7d"

def itemTexts : List Value → List String
  | [] => []
  | item :: rest => dataText item :: itemTexts rest

def fieldTexts : List (String × Value) → List String
  | [] => []
  | (name, value) :: rest => (quoted name ++ ":" ++ dataText value) :: fieldTexts rest

end

/-- A field for a terminal. -/
def detailText : Event.Detail → String
  | .plain text => text
  | .typed (.real value) => realText value
  | .typed value => dataText value

/-- An event as a line for a terminal. -/
def textLine (event : Event) : String :=
  let details := event.details.map fun item => " " ++ item.1 ++ "=" ++ detailText item.2
  event.level.capitals ++ " " ++ event.target ++ ": " ++ event.message ++ String.join details

/-- An event as a line of structured data. -/
def dataLine (event : Event) : String :=
  dataText (.table [("level", .text event.level.capitals), ("fields", .table event.fields),
    ("target", .text event.target)])

end Telemetry

end Overlay
