import LsxKit.Error
import LsxKit.Json.Shape
import LsxKit.Schema.Basic

/-!
# Schemas as JSON

A schema is an object of keywords. Absent keywords are left out when it is written; when it is
read, unknown ones are ignored.

* `Schema.toJson`: the JSON value of a schema.
* `Schema.ofJson`: the schema of a JSON text.
-/

namespace LsxKit.Schema

open Json

/-! ## Writing -/

/-- A type by its name. -/
def typeJson (t : JsonType) : Value := .string t.name

/-- One type by its name, several as a list of names. -/
def typesJson : TypeSet → Value
  | .single t => typeJson t
  | .many ts => .array (ts.map typeJson)

/-- A least number; one that is not finite is written as null. -/
def boundJson : Bound → Value
  | .finite x => .number (.float x)
  | _ => .null

/-- A member, if there is a value for it. -/
def member? {α : Type} (key : String) (f : α → Value) (x : Option α) : List (String × Value) :=
  x.toList.map fun a => (key, f a)

/-- A member that is left out if its list is empty. -/
def listMember (key : String) (vs : List Value) : List (String × Value) :=
  if vs.isEmpty then [] else [(key, .array vs)]

mutual

/-- The JSON value of a schema. -/
def toJson : Schema → Value
  | .mk own properties items anyOf =>
    let members := toJsonMembers properties
    .object <|
      member? "type" typesJson own.types ++
      listMember "required" (own.required.map .string) ++
      (if members.isEmpty then [] else [("properties", .object members)]) ++
      member? "additionalProperties" .bool own.additional ++
      member? "items" id (toJsonItems items) ++
      member? "const" id own.constant ++
      member? "enum" .array own.options ++
      member? "pattern" .string own.pattern ++
      member? "minimum" boundJson own.minimum ++
      listMember "anyOf" (toJsonList anyOf) ++
      member? "uniqueItems" .bool own.unique
  termination_by structural s => s

/-- The schemas of members under their keys. -/
def toJsonMembers : List (String × Schema) → List (String × Value)
  | [] => []
  | (key, s) :: ms => (key, toJson s) :: toJsonMembers ms
  termination_by structural ms => ms

/-- The schemas of elements, if there are any. -/
def toJsonItems : Items → Option Value
  | .free => none
  | .each s => some (toJson s)
  | .tuple ss => some (.array (toJsonList ss))
  termination_by structural i => i

/-- Several schemas. -/
def toJsonList : List Schema → List Value
  | [] => []
  | s :: ss => toJson s :: toJsonList ss
  termination_by structural ss => ss

end

/-! ## Reading -/

/-- The names of the keywords in order. -/
def keywordNames : List String :=
  ["type", "required", "properties", "additionalProperties", "items", "const", "enum", "pattern",
    "minimum", "anyOf", "uniqueItems"]

/-- One type. -/
def typeShape : Term → Except Cause JsonType := Shape.choice (JsonType.all.map fun t => (t.name, t))

/-- One type or a list of types. Every part of it must stand for a value. -/
def typesShape (t : Term) : Except Cause TypeSet := do
  let _ ← t.toValue
  match t with
  | .array ts => return .many (← ts.mapM typeShape)
  | t => return .single (← typeShape t)

/-- The keywords without sub-schemas among the fields of a schema. -/
def keywordsShape (fs : Entries String Term) : Except Cause Keywords := do
  let optional {α : Type} (name : String) (shape : Term → Except Cause α) :
      Except Cause (Option α) :=
    Shape.withDefault fs name none (Shape.optional shape)
  return {
    types := ← optional "type" typesShape
    required := ← Shape.withDefault fs "required" [] (Shape.listOf Shape.string)
    additional := ← optional "additionalProperties" Shape.boolean
    constant := ← optional "const" Term.toValue
    options := ← optional "enum" (Shape.listOf Term.toValue)
    pattern := ← optional "pattern" Shape.string
    minimum := (← optional "minimum" Shape.binary64).map .finite
    unique := ← optional "uniqueItems" Shape.boolean }

/-- A schema that may nest a number of levels. A list under `items` is a list of schemas if it can
be, and else one schema written as a list. -/
def shape : Nat → Term → Except Cause Schema
  | 0, _ => .error .tooDeep
  | levels + 1, t => do
    let fs ← Shape.fields "Schema" keywordNames t
    let own ← keywordsShape fs
    let properties ← Shape.withDefault fs "properties" [] fun t => do
      (← Shape.members t).mapM fun (key, t) => return (key, ← shape levels t)
    let items ← Shape.withDefault fs "items" Items.free fun t => do
      let _ ← t.toValue
      match t with
      | .null => return .free
      | .array ts =>
        match ts.mapM (shape levels) with
        | .ok ss => return .tuple ss
        | .error _ => return .each (← shape levels t)
      | t => return .each (← shape levels t)
    let anyOf ← Shape.withDefault fs "anyOf" [] (Shape.listOf (shape levels))
    return .mk own (Entries.extend [] properties) items anyOf

/-- The schema of a JSON text. -/
def ofJson (text : String) : Except Error Schema :=
  (Term.readAs (shape (maxDepth + 1)) text).mapError .json

end LsxKit.Schema
