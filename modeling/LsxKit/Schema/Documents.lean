import LsxKit.Schema.Partials

/-!
# Schemas of documents

The kinds of documents that are known: the descriptor of a mod, localization files and the load
order of the game.

* `descriptor`: `save` with the version and the region `Config`, whose root node lists the
  dependencies and the module.
* `localization`: `contentList` with its entries.
* `loadOrder`: the frame of the region `ModuleSettings`.
-/

namespace LsxKit.Schema

open LsxKit.Tree

/-! ## The descriptor of a mod -/

/-- A UUID in lower case. -/
def uuidValue : Schema := (ofType .string).pattern uuidPattern

/-- A number of 64 bits; large ones are kept as text. -/
def int64Value : Schema := ofTypes [.string, .integer]

/-- A closed element with an id and one more member. -/
def nodeWith (name key : String) (sub : Schema) : Schema :=
  ((((ofType .object).require [attributesGroup, key]).closed).property attributesGroup
    (idAttributes name)).property key sub

/-- The children of a node, as described. -/
def childNodes (nodes : Schema) : Schema :=
  (((ofType .object).require ["node"]).closed).property "node" nodes

/-- An array with a schema for each of its first elements. -/
def tupleOf (ss : List Schema) : Schema := (ofType .array).withItems (.tuple ss)

/-- An array of elements of one schema. -/
def arrayOf (s : Schema) : Schema := (ofType .array).withItems (.each s)

/-- The attributes of a dependency. -/
def dependencyAttributes : Schema :=
  tupleOf [
    nodeAttribute "Folder" "LSString" freeText,
    nodeAttribute "MD5" "LSString" freeText,
    nodeAttribute "Name" "LSString" freeText,
    nodeAttribute "UUID" "FixedString" uuidValue,
    nodeAttribute "Version64" "int64" int64Value]

/-- The list of dependencies. -/
def dependenciesNode : Schema :=
  (((ofType .object).require [attributesGroup]).property attributesGroup
    (idAttributes "Dependencies")).property "children"
    (childNodes (arrayOf (nodeWith "ModuleShortDesc" "attribute" dependencyAttributes)))

/-- The attributes of the module: distinct, and each one of those that are known. -/
def moduleAttributes : Schema :=
  ((ofType .array).unique).withItems <| .each <| any.withAnyOf [
    nodeAttribute "Author" "LSWString" freeText,
    nodeAttribute "CharacterCreationLevelName" "FixedString" freeText,
    nodeAttribute "Description" "LSWString" freeText,
    nodeAttribute "Folder" "LSWString" freeText,
    nodeAttribute "GMTemplate" "FixedString" freeText,
    nodeAttribute "LobbyLevelName" "FixedString" freeText,
    nodeAttribute "MD5" "LSString" freeText,
    nodeAttribute "MainMenuBackgroundVideo" "FixedString" freeText,
    nodeAttribute "MenuLevelName" "FixedString" freeText,
    nodeAttribute "Name" "FixedString" freeText,
    nodeAttribute "NumPlayers" "uint8" (ofType .number),
    nodeAttribute "PhotoBooth" "FixedString" freeText,
    nodeAttribute "StartupLevelName" "FixedString" freeText,
    nodeAttribute "Tags" "LSWString" freeText,
    nodeAttribute "Type" "FixedString" freeText,
    nodeAttribute "UUID" "FixedString" uuidValue,
    nodeAttribute "Version64" "int64" int64Value]

/-- The version under which the module is published. -/
def publishVersionNode : Schema :=
  nodeWith "PublishVersion" "attribute" (tupleOf [nodeAttribute "Version64" "int64" int64Value])

/-- The scripts of the module. -/
def scriptsNode : Schema :=
  (((ofType .object).require [attributesGroup]).closed).property attributesGroup
    (idAttributes "Scripts")

/-- The modes that the module is for. -/
def targetModesNode : Schema :=
  nodeWith "TargetModes" "children" <| childNodes <| arrayOf <|
    nodeWith "Target" "attribute" <|
      tupleOf [nodeAttribute "Object" "FixedString" (constantString "Story")]

/-- The module. -/
def moduleNode : Schema :=
  (((((ofType .object).require [attributesGroup, "attribute", "children"]).closed).property
    attributesGroup (idAttributes "ModuleInfo")).property "attribute" moduleAttributes).property
    "children" (childNodes (tupleOf [publishVersionNode, scriptsNode, targetModesNode]))

/-- The descriptor of a mod. -/
def descriptor : Schema :=
  let root := nodeWith "root" "children" (childNodes (tupleOf [dependenciesNode, moduleNode]))
  let region := nodeWith "Config" "node" root
  let save :=
    ((((ofType .object).require ["version", "region"]).closed).property "version"
      versionElement).property "region" region
  ((((ofType .object).require [declarationKey, "save"]).closed).property declarationKey
    declaration).property "save" save

/-! ## Localization files -/

/-- An entry of a localization file. -/
def localizationEntry : Schema :=
  (((ofType .object).require [attributesGroup]).property attributesGroup
    ((((ofType .object).require ["contentuid", "version"]).property "contentuid"
      ((ofType .string).pattern handlePattern)).property "version"
      ((ofType .number).minimum (least 0)))).property textKey freeText

/-- A localization file. -/
def localization : Schema :=
  (((ofType .object).require [declarationKey, "contentList"]).property declarationKey
    declaration).property "contentList"
    ((((ofType .object).require ["content"]).closed).property "content"
      (arrayOf localizationEntry))

/-! ## The load order -/

/-- The load order of the game; its entries are not described. -/
def loadOrder : Schema :=
  let root :=
    ((ofType .object).require [attributesGroup, "children"]).property attributesGroup
      (idAttributes "root")
  let region :=
    (((ofType .object).require [attributesGroup, "node"]).property attributesGroup
      (idAttributes "ModuleSettings")).property "node" root
  let save :=
    (((ofType .object).require ["version"]).property "version" versionElement).property "region"
      region
  (((ofType .object).require [declarationKey, "save"]).property declarationKey
    declaration).property "save" save

end LsxKit.Schema
