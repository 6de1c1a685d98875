import LsxKit.Json.Fault
import LsxKit.Text.Position
import LsxKit.Xml.Fault

/-!
# Errors

The causes for which an operation of the library has no result, each with its wording.

* `Error.message`: the wording.
* `Error.causes`: the wordings of the errors that an error passes on.
-/

namespace LsxKit

/-- Why a file could not be read or written, or a program not be started. -/
inductive FileFault where
  | notFound
  | permissionDenied
  | notDirectory
  | isDirectory
  | nameTooLong
  | notText
  /-- The path holds a NUL. -/
  | nulInPath
  /-- The name or an argument of a program holds a NUL. -/
  | nulInCommand
  deriving Repr, DecidableEq

/-- The wording of a fault of a file. -/
def FileFault.message : FileFault → String
  | .notFound => "No such file or directory (os error 2)"
  | .permissionDenied => "Permission denied (os error 13)"
  | .notDirectory => "Not a directory (os error 20)"
  | .isDirectory => "Is a directory (os error 21)"
  | .nameTooLong => "File name too long (os error 36)"
  | .nulInPath => "file name contained an unexpected NUL byte"
  | .nulInCommand => "nul byte found in provided data"
  | .notText => "stream did not contain valid UTF-8"

/-- Why a document tree cannot be written as markup. -/
inductive TreeFault where
  | notObject
  | nestedArray (tag : String)
  | attributesNotObject (tag : String)
  deriving Repr, DecidableEq

/-- The wording of a fault of a document tree. -/
def TreeFault.message : TreeFault → String
  | .notObject => "document must be an object"
  | .nestedArray tag => s!"nested array under `{tag}`"
  | .attributesNotObject tag => s!"attributes of `{tag}` must be an object"

/-- Why an operation has no result. -/
inductive Error where
  | file (fault : FileFault)
  | descriptorNotFound (root : String)
  | missingNode (id : String)
  | missingAttribute (node id : String)
  | dottedVersion (text : String)
  | packedVersion (text : String)
  | versionKind (text : String)
  | uuid (text : String)
  | handle (text : String)
  | game (text : String)
  | moduleField (text : String)
  | dependencyField (text : String)
  | markup (fault : Xml.Fault)
  | attribute (fault : Xml.AttributeFault)
  | document (position : Position) (fault : Xml.DocumentFault)
  | tree (fault : TreeFault)
  | json (fault : Json.Fault)
  | pattern (source : String)
  | unusablePath (path : String)
  | tool (name message : String)
  deriving Repr, DecidableEq

namespace Error

/-- The wording of an error. -/
def message : Error → String
  | .file fault => "IO error: " ++ fault.message
  | .descriptorNotFound root => s!"failed to find the `meta.lsx` file under {root}"
  | .missingNode id => s!"descriptor has no `{id}` node"
  | .missingAttribute node id => s!"`{node}` node has no `{id}` attribute"
  | .dottedVersion s =>
    s!"invalid version number `{s}` (format: \x7bmajor\x7d.\x7bminor\x7d.\x7brevision\x7d." ++
      "\x7bbuild\x7d)"
  | .packedVersion s => s!"invalid Version64 value `{s}`"
  | .versionKind s => s!"invalid version kind `{s}` (expected major, minor, revision or build)"
  | .uuid s => s!"invalid UUID `{s}`"
  | .handle s => s!"invalid localization handle `{s}`"
  | .game s => s!"unknown game `{s}` (expected dos, dosee, dos2, dos2de or bg3)"
  | .moduleField s => s!"unknown ModuleInfoField attribute `{s}`"
  | .dependencyField s => s!"unknown DependencyField attribute `{s}`"
  | .markup fault => "XML parse error: " ++ fault.message
  | .attribute fault => "XML attribute error: " ++ fault.message
  | .document p fault => s!"{fault.message} (line {p.line}, column {p.column})"
  | .tree fault => "cannot serialize document tree: " ++ fault.message
  | .json fault => "JSON error: " ++ fault.message
  | .pattern source => s!"invalid schema: invalid pattern `{source}`"
  | .unusablePath path => s!"invalid path: {path}"
  | .tool name message => s!"`{name}` failed: {message}"

/-- The wordings of the errors that an error passes on: the one it comes from, then the one that
that one comes from. -/
def causes : Error → List String
  | .file fault => [fault.message]
  | .markup (.declarationAttribute fault) =>
    [(Xml.Fault.declarationAttribute fault).message, fault.message]
  | .markup (.reference fault) => [(Xml.Fault.reference fault).message, fault.message]
  | .markup fault => [fault.message]
  | .json fault => [fault.message]
  | _ => []

end Error

end LsxKit
