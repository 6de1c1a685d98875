import LsxKit.Decimal.Binary64
import LsxKit.Entries

/-!
# JSON values

A JSON value keeps the members of an object in order, with distinct keys when it is read from a
text. Numbers are integers or binary64 values, and the two kinds are different values.

* `Number.same`: two numbers are equal if they are of one kind and equal there; `0.0` equals
  `-0.0`.
* `Value.same`: equality up to the order of the members of objects.
-/

namespace LsxKit.Json

open Decimal

/-- A number: an integer, or a finite binary64 value. -/
inductive Number where
  | int (i : Int)
  | float (x : Binary64)
  deriving Repr, DecidableEq, Inhabited

/-- Equality of numbers; an integer never equals a float. -/
def Number.same : Number → Number → Bool
  | .int i, .int j => i == j
  | .float x, .float y => x.sameValue y
  | _, _ => false

/-- The nearest binary64 value. -/
def Number.toBinary64 : Number → Option Binary64
  | .int i => Binary64.ofInt i
  | .float x => some x

/-- A JSON value. -/
inductive Value where
  | null
  | bool (b : Bool)
  | number (n : Number)
  | string (s : String)
  | array (items : List Value)
  | object (members : List (String × Value))
  deriving Repr, Inhabited

namespace Value

mutual

/-- Equality of values, the order of members apart. -/
def same : Value → Value → Bool
  | .null, .null => true
  | .bool a, .bool b => a == b
  | .number m, .number n => m.same n
  | .string s, .string t => s == t
  | .array xs, .array ys => sameItems xs ys
  | .object ms, .object ns => ms.length == ns.length && sameMembers ms ns
  | _, _ => false
  termination_by structural v => v

/-- Equality of lists of values, position by position. -/
def sameItems : List Value → List Value → Bool
  | [], [] => true
  | v :: vs, w :: ws => same v w && sameItems vs ws
  | _, _ => false
  termination_by structural vs => vs

/-- Whether every member has an equal one under its key. -/
def sameMembers : List (String × Value) → List (String × Value) → Bool
  | [], _ => true
  | (k, v) :: ms, ns =>
    (match Entries.get? k ns with
      | some w => same v w
      | none => false) && sameMembers ms ns
  termination_by structural ms => ms

end

/-- The member of an object under a key. -/
def get? (key : String) : Value → Option Value
  | .object ms => Entries.get? key ms
  | _ => none

/-- The text of a string. -/
def asString? : Value → Option String
  | .string s => some s
  | _ => none

/-- The elements of an array, or the value itself as the only one. -/
def asList : Value → List Value
  | .array xs => xs
  | v => [v]

/-- Whether the value is an array. -/
def isArray : Value → Bool
  | .array _ => true
  | _ => false

/-- Whether the value is an object. -/
def isObject : Value → Bool
  | .object _ => true
  | _ => false

end Value

end LsxKit.Json
