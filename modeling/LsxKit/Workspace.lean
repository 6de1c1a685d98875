import LsxKit.Descriptor.Basic
import LsxKit.Diagnosis.Problem
import LsxKit.Files.Tree
import LsxKit.Localization.Table

/-!
# Workspaces

A workspace is a directory in which the files of a mod lie:
`Mods/<name>/meta.lsx` is its descriptor, and the `.xml` files below `Localization` hold its texts.

* `Workspace.descriptor`: the path of the descriptor.
* `Workspace.localizations`: the paths of the localization files.
-/

namespace LsxKit

namespace Workspace

/-- The name of descriptors. -/
def descriptorName : String := "meta.lsx"

/-- The files of a workspace, in the order of a sorted walk; none if there is no such
directory. -/
def files {α : Type} (root : String) (tree : Option (FileTree α)) : List String :=
  match tree with
  | some t => t.visible root
  | none => []

/-- The path of the first descriptor. -/
def descriptor {α : Type} (root : String) (tree : Option (FileTree α)) : Except Error String :=
  match (files root tree).find? (Path.fileName? · = some descriptorName) with
  | some path => .ok path
  | none => .error (.descriptorNotFound root)

/-- The paths of the localization files, in their order as paths. -/
def localizations {α : Type} (root : String) (tree : Option (FileTree α)) : List String :=
  ((files root tree).filter Path.isLocalizationXml).mergeSort
    fun p q => Path.compare p q ≠ .gt

end Workspace

/-- The document that a file holds. -/
def TextDocument.ofFile (path text : String) : TextDocument where
  uri := path
  language := languageOf path
  version := 0
  text := text

end LsxKit
