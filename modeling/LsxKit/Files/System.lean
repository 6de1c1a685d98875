import LsxKit.Error
import LsxKit.Files.Tree

/-!
# File systems

A file system is a directory tree with a working directory, from which paths without a slash in
front are followed. Every component of a path that is followed by another one, or by a slash, must
be a directory.

* `FileSystem.locate`: where a path leads.
* `FileSystem.read`, `write`, `listing`: what a program can do with files.
-/

namespace LsxKit

/-- What a file holds. -/
inductive Content where
  | text (s : String)
  /-- Bytes that are no UTF-8. -/
  | binary
  /-- No file but a device, which is always empty. -/
  | device
  deriving Repr, DecidableEq

/-- A directory tree with a working directory. -/
structure FileSystem where
  top : FileTree Content
  /-- The names of the directories from the top to the working directory. -/
  here : List String

namespace FileSystem

/-- Whether a path can be asked for at all: it holds no NUL. -/
def isAskable (path : String) : Bool := !path.toList.contains '\x00'

/-- The number of bytes that a component of a path may have. -/
def nameLimit : Nat := 255

/-- The number of bytes that a path may have. -/
def pathLimit : Nat := 4095

/-- Follows one component from a directory. -/
def step (fs : FileSystem) (place : List String) (part : List Char) :
    Except FileFault (List String) :=
  match fs.top.at? place with
  | none => .error .notFound
  | some (.file _) => .error .notDirectory
  | some (.directory _) =>
    if part = [] ∨ part = ['.'] then .ok place
    else if part = ['.', '.'] then .ok place.dropLast
    else if nameLimit < Text.size part then .error .nameTooLong
    else .ok (place ++ [String.ofList part])

/-- The names from the top to where a path leads; there may be nothing there. -/
def locate (fs : FileSystem) (path : String) : Except FileFault (List String) :=
  if !isAskable path then .error .nulInPath
  else if path.isEmpty then .error .notFound
  else if pathLimit < path.utf8ByteSize then .error .nameTooLong
  else
    let start := if path.toList.head? = some '/' then [] else fs.here
    (path.toList.splitOn '/').foldlM fs.step start

/-- What a path leads to. -/
def find (fs : FileSystem) (path : String) : Except FileFault (FileTree Content) := do
  match fs.top.at? (← fs.locate path) with
  | some t => return t
  | none => .error .notFound

/-- The text of a file. -/
def read (fs : FileSystem) (path : String) : Except FileFault String := do
  match ← fs.find path with
  | .file (.text s) => return s
  | .file .binary => .error .notText
  | .file .device => return ""
  | .directory _ => .error .isDirectory

/-- Whether a path leads to a file. -/
def isFile (fs : FileSystem) (path : String) : Bool :=
  match fs.find path with
  | .ok (.file .device) | .ok (.directory _) | .error _ => false
  | .ok (.file _) => true

/-- The tree at a path, if there is one. -/
def listing (fs : FileSystem) (path : String) : Option (FileTree Content) :=
  (fs.find path).toOption

/-- The path from the top to what a path leads to. -/
def canonical (fs : FileSystem) (path : String) : Except FileFault String := do
  let _ ← fs.find path
  return "/" ++ "/".intercalate (← fs.locate path)

/-- Writes the text of a file; its directory must exist. -/
def write (fs : FileSystem) (path text : String) : Except FileFault FileSystem := do
  let place ← fs.locate path
  match fs.top.at? place with
  | some (.directory _) => .error .isDirectory
  | some (.file .device) => return fs
  | _ => return { fs with top := fs.top.put (.text text) place }

end FileSystem

end LsxKit
