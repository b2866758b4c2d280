import DecoratorVeil.Pipeline
import DecoratorVeil.Record.Issue
import DecoratorVeil.Text.Integer

/-!
# Reading records

Decorator ranges, declarations and options out of loose data.  Fields that are not known are passed
over.  Integers may also be truth values, whole decimals and texts.
-/

namespace DecoratorVeil.Record

def readInt : Data → Checked Int
  | .bool value => .ok (if value then 1 else 0)
  | .number digits places =>
    let scale := Int.ofNat (Nat.pow 10 places)
    if digits % scale = 0 then .ok (digits / scale) else .issue .intFromFloat
  | .text value =>
    match Text.Integer.ofAscii? value.toList with
    | some n => .ok n
    | none => .issue .intParsing
  | _ => .issue .intType

def readText : Data → Checked String
  | .text value => .ok value
  | _ => .issue .stringType

def readKind : Data → Checked DeclarationKind
  | .text value =>
    match DeclarationKind.ofName? value with
    | some kind => .ok kind
    | none => .issue .enum
  | _ => .issue .enum

def readNullable {α : Type} (read : Data → Checked α) : Data → Checked (Option α)
  | .null => .ok none
  | data => (read data).map some

/-- A field that must be there. -/
def required {α : Type} (fields : List (String × Data)) (name : String)
    (read : Data → Checked α) : Checked α :=
  match get? fields name with
  | some data => (read data).inside (.field name)
  | none => (Checked.issue .missing).inside (.field name)

/-- A field that may be absent or null. -/
def nullable {α : Type} (fields : List (String × Data)) (name : String)
    (read : Data → Checked α) : Checked (Option α) :=
  match get? fields name with
  | some data => (readNullable read data).inside (.field name)
  | none => .ok none

def readRange : Data → Checked DecoratorRange
  | .record fields =>
    (Checked.both (required fields "start" readInt) (required fields "end" readInt)).map
      fun (start, stop) => ⟨start, stop⟩
  | _ => .issue .modelType

def readRanges : Data → Checked (List DecoratorRange)
  | .list items => .sequence 0 (items.map readRange)
  | _ => .issue .listType

def readOptions : Data → Checked FormatOptions
  | .record fields =>
    (Checked.both (nullable fields "config" readText) (nullable fields "cwd" readText)).map
      fun (config, directory) => ⟨config, directory⟩
  | _ => .issue .modelType

def readDeclaration : Data → Checked Declaration
  | .record fields =>
    let kind := required fields "kind" readKind
    let name := nullable fields "name" readText
    let members : Checked (Option (List Declaration)) :=
      match _h : get? fields "members" with
      | none | some .null => .ok none
      | some (.list items) =>
        Checked.inside (.field "members")
          ((Checked.sequence 0 (items.attach.map fun ⟨item, _⟩ => readDeclaration item)).map some)
      | some _ => (Checked.issue .listType).inside (.field "members")
    let decorators := nullable fields "decorators" readRanges
    (Checked.both (Checked.both kind name) (Checked.both members decorators)).map
      fun ((kind, name), (members, decorators)) => ⟨kind, name, members, decorators⟩
  | _ => .issue .modelType
termination_by data => sizeOf data
decreasing_by exact sizeOf_item_lt _h (by assumption)

end DecoratorVeil.Record
