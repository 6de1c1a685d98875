import LsxKit.Json.Printer
import LsxKit.Json.Reader
import LsxKit.Text.Quoted

/-!
# Shapes of JSON

Reading JSON of an expected shape from its tree, so that parts nobody asks for need not stand for
anything.

* `string`, `natBelow`, `binary64`, `optional`, `listOf`: values of simple shapes.
* `choice`: one of several names.
* `fields`: the fields of a record, written as an object or as a list.
-/

namespace LsxKit.Json.Shape

open Decimal

/-- A number, in a message. -/
def describeNumber : Number → String
  | .int i => s!"integer `{i}`"
  | .float x => "floating point `" ++ floatLayout.render x ++ "`"

/-- A string, in a message. -/
def describeString (s : String) : String := "string " ++ Text.quoted s

/-- A boolean, in a message. -/
def describeBool (b : Bool) : String := s!"boolean `{b}`"

/-- Something that is not what was expected. -/
def mistaken (found expected : String) : Cause :=
  .unfit s!"invalid type: {found}, expected {expected}"

/-- A name that is none of those known. -/
def unknownName {α : Type} (name : String) (names : List (String × α)) : Cause :=
  let known := ", ".intercalate (names.map fun n => s!"`{n.1}`")
  .unfit s!"unknown variant `{name}`, expected one of {known}"

/-- A name that occurs twice. -/
def repeated (name : String) : Cause := .unfit s!"duplicate field `{name}`"

/-- The fault of a term that is not what was expected. -/
def unfit {α : Type} (t : Term) (expected : String) : Except Cause α :=
  match t with
  | .null => .error (mistaken "null" expected)
  | .bool b => .error (mistaken (describeBool b) expected)
  | .number n => .error (mistaken (describeNumber n) expected)
  | .string s => .error (mistaken (describeString s) expected)
  | .array _ => .error (mistaken "sequence" expected)
  | .object _ => .error (mistaken "map" expected)
  | .broken cause => .error cause

/-- A string. -/
def string : Term → Except Cause String
  | .string s => .ok s
  | t => unfit t "a string"

/-- A boolean. -/
def boolean : Term → Except Cause Bool
  | .bool b => .ok b
  | t => unfit t "a boolean"

/-- An integer from zero to below `bound`. -/
def natBelow (bound : Nat) (expected : String) : Term → Except Cause Nat
  | .number (.int i) =>
    if 0 ≤ i ∧ i < bound then .ok i.toNat
    else .error (.unfit s!"invalid value: integer `{i}`, expected {expected}")
  | t => unfit t expected

/-- A number as the nearest binary64 value. -/
def binary64 : Term → Except Cause Binary64
  | .number n =>
    match n.toBinary64 with
    | some x => .ok x
    | none => .error .numberTooLarge
  | t => unfit t "a number"

/-- A value that may be null. -/
def optional {α : Type} (shape : Term → Except Cause α) : Term → Except Cause (Option α)
  | .null => .ok none
  | t => (shape t).map some

/-- The elements of an array. -/
def elements : Term → Except Cause (List Term)
  | .array ts => .ok ts
  | t => unfit t "a sequence"

/-- A list of values of one shape. -/
def listOf {α : Type} (shape : Term → Except Cause α) (t : Term) : Except Cause (List α) := do
  (← elements t).mapM shape

/-- The members of an object, with their keys. -/
def members : Term → Except Cause (List (String × Term))
  | .object ms => ms.mapM fun (key, t) => return (← Term.keyText key, t)
  | t => unfit t "a map"

/-- One of several names, as a string or as an object with the name as its only key and null
under it. -/
def choice {α : Type} (names : List (String × α)) (t : Term) : Except Cause α :=
  match t with
  | .string s => pick s
  | .object [(some name, .null)] => pick name
  | _ => .error .expectedValue
where
  /-- The value of a name. -/
  pick (name : String) : Except Cause α :=
    match Entries.get? name names with
    | some x => .ok x
    | none => .error (unknownName name names)

/-- Picks the members with known names; each may occur once, unknown ones are ignored. -/
def known (names : List String) (found : Entries String Term) :
    List (String × Term) → Except Cause (Entries String Term)
  | [] => .ok found
  | (key, t) :: ms =>
    if key ∈ names then
      if found.contains key then .error (repeated key)
      else known names (found.insert key t) ms
    else known names found ms

/-- The fields of a record that are present, by name. A record is written as an object or as a
list of its fields in order. -/
def fields (record : String) (names : List String) (t : Term) :
    Except Cause (Entries String Term) :=
  match t with
  | .object _ => do known names [] (← members t)
  | .array ts => if names.length < ts.length then .error .trailingCharacters else .ok (names.zip ts)
  | t => unfit t ("struct " ++ record)

/-- A field, or a default if it is missing. -/
def withDefault {α : Type} (fs : Entries String Term) (name : String) (default : α)
    (shape : Term → Except Cause α) : Except Cause α :=
  match fs.get? name with
  | some t => shape t
  | none => .ok default

/-- A field that must be present. -/
def needed {α : Type} (fs : Entries String Term) (name : String) (shape : Term → Except Cause α) :
    Except Cause α :=
  match fs.get? name with
  | some t => shape t
  | none => .error (.unfit s!"missing field `{name}`")

end LsxKit.Json.Shape
