import LsxKit.Json.Shape
import LsxKit.Version

/-!
# Versions as JSON

* `Version.toJson`: an object with the four numbers.
* `Version.ofJson`: reads such an object, or a list of the four numbers.
-/

namespace LsxKit.Version

open Json

/-- The names of the four numbers. -/
def fieldNames : List String := ["major", "minor", "revision", "build"]

/-- An object with the four numbers. -/
def toJson (v : Version) : Value :=
  .object (fieldNames.zip (v.numbers.map fun (n : Nat) => .number (.int n)))

/-- A version as a record whose fields must all be present. -/
def shape (t : Term) : Except Cause Version := do
  let fs ← Shape.fields "Version64" fieldNames t
  let number (name : String) : Except Cause UInt32 := do
    return .ofNat (← Shape.needed fs name (Shape.natBelow UInt32.size "a number of 32 bits"))
  return ⟨← number "major", ← number "minor", ← number "revision", ← number "build"⟩

/-- The version that a JSON text describes. -/
def ofJson (text : String) : Except Error Version := (Term.readAs shape text).mapError .json

end LsxKit.Version
