import LsxKit.Json.Value

/-!
# Schemas

A schema describes JSON values by keywords: the types a value may have, the keys an object must
have, sub-schemas for members and elements, and so on.

* `Schema`: a schema; `Keywords` are the keywords without sub-schemas.
* `Schema.nodes`: a schema and all schemas nested in it, outer before inner.
-/

namespace LsxKit

open Json Decimal

/-- The name of a type of JSON values; `integer` are the numbers without a fractional part. -/
inductive JsonType where
  | object
  | array
  | string
  | number
  | integer
  | boolean
  | null
  deriving Repr, DecidableEq

namespace JsonType

/-- All types. -/
def all : List JsonType := [.object, .array, .string, .number, .integer, .boolean, .null]

/-- The name of a type. -/
def name : JsonType → String
  | .object => "object"
  | .array => "array"
  | .string => "string"
  | .number => "number"
  | .integer => "integer"
  | .boolean => "boolean"
  | .null => "null"

/-- Whether a value is of a type. -/
def accepts : JsonType → Value → Bool
  | .object, .object _ => true
  | .array, .array _ => true
  | .string, .string _ => true
  | .number, .number _ => true
  | .integer, .number (.int _) => true
  | .integer, .number (.float x) => x.isIntegral
  | .boolean, .bool _ => true
  | .null, .null => true
  | _, _ => false

end JsonType

/-- One type, or a list of accepted ones. -/
inductive TypeSet where
  | single (t : JsonType)
  | many (ts : List JsonType)
  deriving Repr, DecidableEq

namespace TypeSet

/-- The types of the set. -/
def types : TypeSet → List JsonType
  | .single t => [t]
  | .many ts => ts

/-- Whether a value is of one of the types. -/
def accepts (s : TypeSet) (v : Value) : Bool := s.types.any (·.accepts v)

/-- The names with commas between them. -/
def render (s : TypeSet) : String := ",".intercalate (s.types.map JsonType.name)

end TypeSet

/-- A least number. It need not be finite, and it may be no number at all. -/
inductive Bound where
  | finite (x : Binary64)
  | infinite (negative : Bool)
  | nan
  deriving Repr, DecidableEq

/-- Whether a value is below a least number; nothing is below one that is no number. -/
def Bound.exceeds (b : Bound) (x : Binary64) : Bool :=
  match b with
  | .finite least => x.isLess least
  | .infinite negative => !negative
  | .nan => false

/-- The keywords of a schema that hold no schemas. -/
structure Keywords where
  types : Option TypeSet
  /-- Keys an object must have. -/
  required : List String
  /-- Whether an object may have keys without a sub-schema; it may if this is not said. -/
  additional : Option Bool
  constant : Option Value
  options : Option (List Value)
  /-- A pattern that strings must contain a match of. -/
  pattern : Option String
  /-- The least number. -/
  minimum : Option Bound
  /-- Whether the elements of an array must differ. -/
  unique : Option Bool
  deriving Repr

/-- No keywords. -/
def Keywords.none : Keywords := ⟨.none, [], .none, .none, .none, .none, .none, .none⟩

mutual

/-- A schema: its keywords, the sub-schemas of members in order, those of elements, and the
schemas of which a value must satisfy one, unless there are none. -/
inductive Schema where
  | mk (own : Keywords) (properties : List (String × Schema)) (items : Items) (anyOf : List Schema)

/-- The sub-schemas of the elements of an array. -/
inductive Items where
  | free
  /-- One schema for every element. -/
  | each (s : Schema)
  /-- A schema for each of the first elements; later ones are free. -/
  | tuple (ss : List Schema)

end

namespace Schema

/-- The keywords of a schema. -/
def own : Schema → Keywords
  | .mk own _ _ _ => own

/-- The sub-schemas of members. -/
def properties : Schema → List (String × Schema)
  | .mk _ properties _ _ => properties

/-- The sub-schemas of elements. -/
def items : Schema → Items
  | .mk _ _ items _ => items

/-- The schemas of which a value must satisfy one. -/
def anyOf : Schema → List Schema
  | .mk _ _ _ anyOf => anyOf

/-! ## Building schemas -/

/-- The schema that every value satisfies. -/
def any : Schema := .mk .none [] .free []

instance : Inhabited Schema := ⟨any⟩

/-- Changes the keywords. -/
def withOwn (f : Keywords → Keywords) : Schema → Schema
  | .mk own properties items anyOf => .mk (f own) properties items anyOf

/-- The values of one type. -/
def ofType (t : JsonType) : Schema := any.withOwn fun k => { k with types := some (.single t) }

/-- The values of several types. -/
def ofTypes (ts : List JsonType) : Schema :=
  any.withOwn fun k => { k with types := some (.many ts) }

/-- Requires keys, after those that are required already. -/
def require (keys : List String) (s : Schema) : Schema :=
  s.withOwn fun k => { k with required := k.required ++ keys }

/-- Sets the sub-schema of a member. -/
def property (s : Schema) (key : String) (sub : Schema) : Schema :=
  match s with
  | .mk own properties items anyOf => .mk own (Entries.insert key sub properties) items anyOf

/-- Allows no keys without a sub-schema. -/
def closed (s : Schema) : Schema := s.withOwn fun k => { k with additional := some false }

/-- Sets the sub-schemas of elements. -/
def withItems (items : Items) : Schema → Schema
  | .mk own properties _ anyOf => .mk own properties items anyOf

/-- Requires one of several schemas. -/
def withAnyOf (anyOf : List Schema) : Schema → Schema
  | .mk own properties items _ => .mk own properties items anyOf

/-- Requires a value. -/
def constant (v : Value) (s : Schema) : Schema :=
  s.withOwn fun k => { k with constant := some v }

/-- Requires one of several values. -/
def oneOf (vs : List Value) (s : Schema) : Schema :=
  s.withOwn fun k => { k with options := some vs }

/-- Requires a match of a pattern. -/
def pattern (source : String) (s : Schema) : Schema :=
  s.withOwn fun k => { k with pattern := some source }

/-- Requires a least number. -/
def minimum (m : Binary64) (s : Schema) : Schema :=
  s.withOwn fun k => { k with minimum := some (.finite m) }

/-- Requires elements to differ. -/
def unique (s : Schema) : Schema := s.withOwn fun k => { k with unique := some true }

/-- A string that equals `s`. -/
def constantString (s : String) : Schema := (ofType .string).constant (.string s)

/-! ## Nested schemas -/

mutual

/-- A schema and all schemas nested in it, outer before inner, in the order in which they are
declared. -/
def nodes : Schema → List Schema
  | .mk own properties items anyOf =>
    .mk own properties items anyOf ::
      (nodesOfMembers properties ++ nodesOfItems items ++ nodesOfList anyOf)
  termination_by structural s => s

/-- The schemas of members and those nested in them. -/
def nodesOfMembers : List (String × Schema) → List Schema
  | [] => []
  | (_, s) :: ms => nodes s ++ nodesOfMembers ms
  termination_by structural ms => ms

/-- The schemas of elements and those nested in them. -/
def nodesOfItems : Items → List Schema
  | .free => []
  | .each s => nodes s
  | .tuple ss => nodesOfList ss
  termination_by structural i => i

/-- Several schemas and those nested in them. -/
def nodesOfList : List Schema → List Schema
  | [] => []
  | s :: ss => nodes s ++ nodesOfList ss
  termination_by structural ss => ss

end

/-- The patterns of a schema and of all nested ones, in order. -/
def patterns (s : Schema) : List String := s.nodes.filterMap (·.own.pattern)

end Schema

end LsxKit
