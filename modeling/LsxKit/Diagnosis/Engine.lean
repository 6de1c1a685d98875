import LsxKit.Diagnosis.Locate
import LsxKit.Diagnosis.Problem
import LsxKit.Schema.Documents
import LsxKit.Schema.Validate
import LsxKit.Tree.Read
import LsxKit.Xml.WellFormed

/-!
# Diagnosis of documents

An engine checks the documents of one kind. A document that is not well formed has exactly one
problem; any other has one for each violation of the schema, at the place to which the path of
the violation leads.

* `Engine.problems`: the problems of a document.
* `Engine.descriptor`, `localization`, `loadOrder`: the engines for the known kinds.
-/

namespace LsxKit

/-- Checks the documents of one kind. -/
structure Engine where
  /-- The name that problems are reported under. -/
  source : String
  validator : Schema.Validator
  /-- The documents that the engine is for. -/
  applies : TextDocument → Bool
  options : Tree.Options

namespace Engine

/-- The code of the problem of a document that is not well formed. -/
def syntaxCode : String := "InvalidXml"

/-- The name that problems are usually reported under. -/
def defaultSource : String := "BG3XML"

/-- The engine of a schema whose patterns can all be read. -/
def ofSchema (source : String) (schema : Schema) (applies : TextDocument → Bool)
    (options : Tree.Options) : Except Error Engine := do
  return ⟨source, ← Schema.Validator.ofSchema schema, applies, options⟩

/-- The engine under another name. -/
def withSource (e : Engine) (source : String) : Engine := { e with source }

/-- The key of attributes in paths. -/
def group (e : Engine) : String := e.options.group.getD Tree.attributesGroup

/-- The problem of a document that cannot be read. -/
def syntaxProblem (e : Engine) (d : TextDocument) (error : Error) : Problem :=
  let (position, message) : Position × String := match error with
    | .document position fault => (position, fault.message)
    | error => (⟨0, 0⟩, error.message)
  { severity := .error
    source := e.source
    code := some syntaxCode
    message
    range := Range.toLineEnd (Text.lines d.text.toList) position.line position.column }

/-- The problem of a violation. -/
def violationProblem (e : Engine) (locator : Locator) (v : Schema.Violation) : Problem :=
  let location := locator.locate v.path
  let range : Range := match location.columns with
    | some (start, stop) => ⟨⟨location.line, start⟩, ⟨location.line, stop⟩⟩
    | none => Range.wholeLine locator.lines location.line
  { severity := .error
    source := e.source
    code := some v.breach.kind
    message := v.describe e.group Tree.textKey
    range }

/-- The tree of a well-formed document. -/
def tree (e : Engine) (d : TextDocument) : Except Error Json.Value := do
  Xml.checkWellFormed d.text
  Tree.parse e.options d.text

/-- The problems of a document, in the order of its violations. -/
def problems (e : Engine) (d : TextDocument) : List Problem :=
  match e.tree d with
  | .error error => [e.syntaxProblem d error]
  | .ok tree =>
    let locator := Locator.ofText d.text e.group
    (e.validator.violations tree).map (e.violationProblem locator)

/-! ## Known kinds of documents -/

/-- Descriptors of mods: markup in files named `meta.lsx`, or with a name that ends like this. -/
def descriptor : Except Error Engine :=
  ofSchema defaultSource Schema.descriptor
    (fun d => d.language = "xml" && d.nameEndsWith "meta.lsx")
    { Tree.Options.descriptor with convert := true }

/-- Localization files: `.xml` files below a folder `Localization`. -/
def localization : Except Error Engine :=
  ofSchema defaultSource Schema.localization
    (fun d => d.language = "xml" &&
      ".xml".toList.isSuffixOf (Text.lowercase d.fileName).toList &&
      Path.hasComponent d.path "Localization")
    { Tree.Options.standard with alwaysArray := fun tag _ => tag = "content" }

/-- Load orders: markup in files named `modsettings.lsx`, or with a name that ends like this. -/
def loadOrder : Except Error Engine :=
  ofSchema defaultSource Schema.loadOrder
    (fun d => d.language = "xml" && d.nameEndsWith "modsettings.lsx")
    { Tree.Options.standard with alwaysArray := fun tag _ => tag = "children" }

/-- The engines for all known kinds. -/
def known : Except Error (List Engine) := do
  return [← descriptor, ← localization, ← loadOrder]

end Engine

end LsxKit
