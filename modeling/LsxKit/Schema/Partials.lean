import LsxKit.Schema.Basic
import LsxKit.Tree.Options

/-!
# Parts of schemas

Schemas of elements that occur in several kinds of documents.
-/

namespace LsxKit.Schema

open Json Decimal LsxKit.Tree

/-- The pattern of a UUID in lower case. -/
def uuidPattern : String := "^[0-9a-f]{8}-([0-9a-f]{4}-){3}[0-9a-f]{12}$"

/-- The pattern of a localization handle in lower case. -/
def handlePattern : String := "^h[0-9a-f]{8}(g[0-9a-f]{4}){3}g[0-9a-f]{12}$"

/-- A small natural number as a least number. -/
def least (n : Nat) : Binary64 := (Binary64.ofInt n).getD default

/-- An object with exactly the given members. -/
def exactly (members : List (String × Schema)) : Schema :=
  members.foldl (fun s (name, sub) => (s.require [name]).property name sub) (ofType .object).closed

/-- An element that has attributes and nothing else, as described. -/
def withAttributes (attributes : Schema) : Schema :=
  (((ofType .object).require [attributesGroup]).closed).property attributesGroup attributes

/-- An element whose attributes are exactly the given ones. -/
def attributeElement (fields : List (String × Schema)) : Schema := withAttributes (exactly fields)

/-- An attribute of a node, with a fixed id and type. -/
def nodeAttribute (id type : String) (value : Schema) : Schema :=
  attributeElement [("id", constantString id), ("type", constantString type), ("value", value)]

/-- Attributes of an element that are an id and nothing else. -/
def idAttributes (name : String) : Schema :=
  (((ofType .object).require ["id"]).closed).property "id" (constantString name)

/-- The XML declaration. -/
def declaration : Schema :=
  withAttributes <|
    ((((ofType .object).require ["version", "encoding"]).closed).property "version"
      ((ofType .number).minimum (least 1))).property "encoding"
      ((ofType .string).oneOf [.string "utf-8", .string "UTF-8"])

/-- The version of a document. -/
def versionElement : Schema :=
  withAttributes <| exactly <|
    ["major", "minor", "revision", "build"].map fun name =>
      (name, (ofType .number).minimum (least 0))

/-- Free text. Text that looks like a number or a boolean has become one. -/
def freeText : Schema := ofTypes [.string, .number, .boolean]

end LsxKit.Schema
