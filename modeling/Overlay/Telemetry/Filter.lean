import Overlay.Telemetry.Settings
import Overlay.Text.Pattern.Check

/-!
Filter directives: which log events are shown.

A filter is a list of directives with commas between them. A directive names a level, or a target
with or without a level, and may be narrowed to a span and to fields. Of the directives that fit
an event the most specific one decides.
-/

set_option autoImplicit false

namespace Overlay.Telemetry

/-- How much is shown: nothing at zero, everything at five. -/
abbrev Verbosity := Nat

/-- A field that a directive asks for, with the value it must have, if one is given: a number, or a
pattern that its text must match. -/
structure FieldMatch where
  name : String
  value : Option String
deriving DecidableEq, Inhabited, Repr

/-- One directive of a filter. -/
structure Directive where
  verbosity : Verbosity
  target : Option String
  span : Option String
  fields : List FieldMatch
deriving DecidableEq, Inhabited, Repr

/-- Why a directive is refused. -/
inductive DirectiveFault
  | shape
  | level
  | value (fault : Text.PatternFault)
deriving DecidableEq, Inhabited, Repr

def DirectiveFault.message : DirectiveFault → String
  | .shape => "invalid filter directive"
  | .level => "error parsing level filter: expected one of \"off\", \"error\", \"warn\", \"info\", "
      ++ "\"debug\", \"trace\", or a number 0-5"
  | .value fault => "invalid field filter: " ++ fault.message

/-- The names of the levels, from least to most. -/
def levelNames : List String := ["off", "error", "warn", "info", "debug", "trace"]

/-- A level by name in any case, or by number. -/
def level? (text : List Char) : Option Verbosity :=
  let name := (String.ofList text).toLower
  match levelNames.idxOf? name with
  | some verbosity => some verbosity
  | none =>
    let digits := match text with
      | '+' :: rest => rest
      | rest => rest
    if digits.isEmpty || !digits.all Char.isDigit then none
    else
      let number := digits.foldl (fun value char => value * 10 + (char.toNat - 48)) 0
      if number ≤ 5 then some number else none

namespace Directive

/-- Everything is shown unless a level says less. -/
def everything : Directive := ⟨5, none, none, []⟩

/-- Where the reading of a directive stands; positions count bytes. -/
private inductive Place
  | start
  | word (from_ : Nat)
  | span (from_ : Nat)
  | field (from_ : Nat)
  | afterFields
  | afterSpan
  | level (from_ : Nat)

/-- Digits, at least one of them on either side of a point, up to what may be a power of ten. -/
private def isUnsigned (text : List Char) : Bool :=
  let isExponent := fun (text : List Char) => match text with
    | '+' :: digits | '-' :: digits | digits => !digits.isEmpty && digits.all Char.isDigit
  let whole := text.takeWhile Char.isDigit
  let rest := text.drop whole.length
  let fraction := if rest.head? = some '.' then rest.tail.takeWhile Char.isDigit else []
  let rest := if rest.head? = some '.' then rest.tail.drop fraction.length else rest
  (!whole.isEmpty || !fraction.isEmpty) && match rest with
    | [] => true
    | char :: exponent => char ∈ ['e', 'E'] && isExponent exponent

/-- Whether a value is a number, which may be infinite or none at all. -/
private def isNumber (text : List Char) : Bool :=
  let unsigned := match text with
    | '+' :: rest | '-' :: rest | rest => rest
  isUnsigned unsigned || ["inf", "infinity", "nan"].contains (String.ofList unsigned).toLower

/-- A field by name, with the value behind an equals sign; what follows a second one is left out. -/
private def readField (text : List Char) : Except DirectiveFault FieldMatch :=
  if text.isEmpty then .error .shape
  else match (String.ofList text).splitOn "=" with
    | name :: value :: _ =>
      if isNumber value.toList then .ok ⟨name, some value⟩
      else match Text.Pattern.fault? value.toList with
        | some fault => .error (.value fault)
        | none => .ok ⟨name, some value⟩
    | [name] => .ok ⟨name, none⟩
    | [] => .error .shape

/-- A word on its own is a level if it can be one, and else a target. -/
private def ofWord (directive : Directive) (word : List Char) : Directive :=
  match level? word with
  | some verbosity => { directive with verbosity, target := none }
  | none => { directive with target := some (String.ofList word) }

/-- A level behind an equals sign; none means everything. -/
private def withLevel (directive : Directive) (text : List Char) :
    Except DirectiveFault Directive :=
  if text.isEmpty then .ok directive
  else match level? text with
    | some verbosity => .ok { directive with verbosity }
    | none => .error .level

/-- Takes one character. -/
private def step (slice : Nat → Nat → List Char) (state : Place × Directive) (item : Char × Nat) :
    Except DirectiveFault (Place × Directive) :=
  let (place, directive) := state
  let (char, index) := item
  match place with
  | .start =>
    if char = '[' then .ok (.span (index + 1), directive)
    else if Text.isLetter char || Text.isNumeral char || char ∈ ['-', ':', '_'] then
      .ok (.word index, directive)
    else .error .shape
  | .word from_ =>
    if char = '=' then
      .ok (.level (index + 1),
        { directive with target := some (String.ofList (slice from_ index)) })
    else if char = '[' then
      .ok (.span (index + 1),
        { directive with target := some (String.ofList (slice from_ index)) })
    else .ok (place, directive)
  | .span from_ =>
    let name := String.ofList (slice from_ index)
    if char = ']' then .ok (.afterSpan, { directive with span := some name })
    else if char = '\x7b' then
      .ok (.field (index + 1),
        { directive with span := if name.isEmpty then none else some name })
    else .ok (place, directive)
  | .field from_ =>
    if char = '\x7d' then do
      let field ← readField (slice from_ index)
      .ok (.afterFields, { directive with fields := directive.fields ++ [field] })
    else .ok (place, directive)
  | .afterFields => if char = ']' then .ok (.afterSpan, directive) else .error .shape
  | .afterSpan => if char = '=' then .ok (.level (index + 1), directive) else .error .shape
  | .level _ => .ok (place, directive)

/-- Characters, each with its place: the number of bytes before it. -/
private def placed : Nat → List Char → List (Char × Nat)
  | _, [] => []
  | place, char :: rest => (char, place) :: placed (place + char.utf8Size) rest

/-- Reads one directive. The places found in it without the blanks at its ends count in the text as
it was given, so blanks at the start shift what is cut out. -/
def parse (text : List Char) : Except DirectiveFault Directive := do
  let places := placed 0 text
  let slice := fun (first last : Nat) =>
    (places.filter fun item => first ≤ item.2 && item.2 < last).map Prod.fst
  let behind := fun (first : Nat) => (places.filter fun item => first ≤ item.2).map Prod.fst
  let (place, directive) ← (placed 0 (Text.trim text)).foldlM (step slice) (.start, everything)
  match place with
  | .word from_ => pure (ofWord directive (behind from_))
  | .level from_ => withLevel directive (behind from_)
  | .afterSpan => pure directive
  | _ => throw .shape

/-- Whether the directive can decide about an event outside of any span. -/
def isStatic (directive : Directive) : Bool :=
  directive.span.isNone && directive.fields.all (·.value.isNone)

/-- Whether an event has the target and the fields that the directive asks for. -/
def fits (directive : Directive) (target : String) (fields : List String) : Bool :=
  (match directive.target with
    | some wanted => wanted.isPrefixOf target
    | none => true)
    && directive.fields.all fun field => field.name ∈ fields

/-- How specific the target of a directive is: longer ones are, and none at all is least. -/
def targetSize (directive : Directive) : Nat :=
  match directive.target with
  | some target => target.utf8ByteSize + 1
  | none => 0

/-- Whether the first directive comes before the second one: if its target is longer, or else it
asks for more fields, or else the names of its fields come later in order. -/
def isBefore (first second : Directive) : Bool :=
  let names := fun (directive : Directive) => directive.fields.map (·.name)
  if first.targetSize ≠ second.targetSize then second.targetSize < first.targetSize
  else if first.fields.length ≠ second.fields.length then
    second.fields.length < first.fields.length
  else names second < names first

end Directive

/-- A list of directives. -/
structure Filter where
  directives : List Directive
deriving Inhabited, Repr

namespace Filter

/-- Reads a filter; nothing between two commas counts as no directive. -/
def parse (text : String) : Except DirectiveFault Filter := do
  let pieces := (text.splitOn ",").filter (!·.isEmpty)
  pure ⟨← pieces.mapM fun piece => Directive.parse piece.toList⟩

/-- The directive that decides, of some that fit an event: the most specific one, and of several
for the same target and fields the last one. -/
def decisive? (fitting : List Directive) : Option Directive :=
  fitting.foldl (fun best directive =>
    match best with
    | some best => if best.isBefore directive then some best else some directive
    | none => some directive) none

/-- Whether an event is shown. Without any directive errors are. -/
def shows (filter : Filter) (verbosity : Verbosity) (target : String) (fields : List String) :
    Bool :=
  if filter.directives.isEmpty then verbosity ≤ 1
  else
    let fitting := filter.directives.filter fun directive =>
      directive.isStatic && directive.fits target fields
    match decisive? fitting with
    | some best => verbosity ≤ best.verbosity
    | none => false

/-- The filter that counts: the common one if it is set and can be read, else the configured one. -/
def ofVariables (environment : Variables) (settings : Settings) : Except Fault Filter :=
  match (environment.get? commonFilter).map parse with
  | some (.ok filter) => .ok filter
  | _ => match parse settings.filter with
    | .ok filter => .ok filter
    | .error fault => .error (.filter fault.message)

end Filter

end Overlay.Telemetry
