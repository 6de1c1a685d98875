import LsxKit.Decimal.Layout
import LsxKit.Json.Path
import LsxKit.Json.Printer
import LsxKit.Schema.Basic

/-!
# Violations

Where a value breaks a schema, and which keyword it breaks.

* `Violation`: a broken keyword at a path, with its kind, its message and its argument.
* `Violation.describe`: the message for a user.
-/

namespace LsxKit.Schema

open Json Decimal

/-- Numbers in messages are written positionally, without a fractional part that is zero. -/
def messageLayout : Layout where
  tie := .away
  positional := fun _ => true
  pointZero := false

/-- A least number in a message. -/
def renderBound : Bound → String
  | .finite x => messageLayout.render x
  | .infinite negative => if negative then "-inf" else "inf"
  | .nan => "NaN"

/-- A value in a message: a string as it is, any other value as JSON. -/
def renderValue : Value → String
  | .string s => s
  | v => v.compact

/-- The keyword that a value breaks. -/
inductive Breach where
  | type (types : TypeSet)
  | constant (expected : Value)
  | options (values : List Value)
  | pattern (source : String)
  | minimum (least : Bound)
  | required (key : String)
  | additional (key : String)
  | repeated
  /-- None of `count` schemas is satisfied. -/
  | noneOf (count : Nat)
  deriving Repr

namespace Breach

/-- The name of the kind of a breach. -/
def kind : Breach → String
  | .type _ => "type"
  | .constant _ => "const"
  | .options _ => "enum"
  | .pattern _ => "pattern"
  | .minimum _ => "minimum"
  | .required _ => "required"
  | .additional _ => "additionalProperties"
  | .repeated | .noneOf _ => "other"

/-- The key that is missing or that should not be there. -/
def argument? : Breach → Option String
  | .required key | .additional key => some key
  | _ => none

/-- What is wrong with the value. -/
def message : Breach → String
  | .type types => "is not of a type(s) " ++ types.render
  | .constant v => "does not exactly match expected constant: " ++ renderValue v
  | .options vs => "is not one of enum values: " ++ ",".intercalate (vs.map renderValue)
  | .pattern source => s!"does not match pattern \"{source}\""
  | .minimum m => "must be greater than or equal to " ++ renderBound m
  | .required key => s!"requires property \"{key}\""
  | .additional key => s!"is not allowed to have the additional property \"{key}\""
  | .repeated => "contains duplicate item"
  | .noneOf n =>
    "is not any of " ++ ",".intercalate ((List.range n).map fun i => s!"[subschema {i}]")

end Breach

/-- A breach of a schema, with the path to the value that it is about. For a missing key that is
the object, for an additional key the member. -/
structure Violation where
  path : List Step
  breach : Breach
  deriving Repr

namespace Violation

/-- The path and the message. -/
def render (v : Violation) : String := renderPath v.path ++ " " ++ v.breach.message

/-- The message for a user; `group` is the key of attributes. -/
def describe (v : Violation) (group textKey : String) : String :=
  match v.breach with
  | .required key => s!"Missing required element/attribute: `{key}`"
  | .additional key => s!"Unknown element/attribute: `{key}`"
  | .type _ =>
    let names := v.path.reverse.filterMap Step.key?
    let name := (names.find? fun k => k ≠ group && k ≠ textKey).getD "document"
    s!"`{name}` value is not of valid type"
  | breach => breach.message

end Violation

end LsxKit.Schema
