import LsxKit.Entries
import LsxKit.Path

/-!
# Directory trees

A directory tree is a file or a directory with named entries.

* `FileTree.at?`, `FileTree.put`: the tree and the file at a list of names.
* `FileTree.visible`: the paths of its files in the order of a sorted walk, without hidden ones.
-/

namespace LsxKit

/-- A file with its content, or a directory. -/
inductive FileTree (α : Type) where
  | file (content : α)
  | directory (entries : List (String × FileTree α))

namespace FileTree

variable {α β : Type}

/-- A directory without entries. -/
def empty : FileTree α := .directory []

/-- The entry of a directory with a name. -/
def child? (t : FileTree α) (name : String) : Option (FileTree α) :=
  match t with
  | .directory entries => Entries.get? name entries
  | .file _ => none

/-- The tree that a list of names leads to. -/
def at? (t : FileTree α) : List String → Option (FileTree α)
  | [] => some t
  | name :: names => (t.child? name).bind fun u => u.at? names

/-- Puts a file at a list of names, in directories that are made where they are missing. -/
def put (content : α) : List String → FileTree α → FileTree α
  | [], _ => .file content
  | name :: names, t =>
    let entries := match t with
      | .directory entries => entries
      | .file _ => []
    .directory (Entries.insert name (put content names ((Entries.get? name entries).getD empty))
      entries)

mutual

/-- The tree with other contents. -/
def map (f : α → β) : FileTree α → FileTree β
  | .file content => .file (f content)
  | .directory entries => .directory (mapEntries f entries)
  termination_by structural t => t

/-- Entries with other contents. -/
def mapEntries (f : α → β) : List (String × FileTree α) → List (String × FileTree β)
  | [] => []
  | (name, t) :: es => (name, map f t) :: mapEntries f es
  termination_by structural es => es

end

/-- Whether an entry is hidden. -/
def isHidden (name : String) : Bool := name.toList.head? = some '.'

/-- Groups in the order of their names. -/
def inOrder (groups : List (String × List String)) : List String :=
  (groups.mergeSort fun a b => !(b.1 < a.1)).flatMap Prod.snd

mutual

/-- The paths of the files of a tree that stands at a path: entries in the order of their names,
a directory where its name stands. Hidden entries are left out, but not the tree itself. -/
def visible (path : String) : FileTree α → List String
  | .file _ => [path]
  | .directory entries => inOrder (visibleEntries path entries)
  termination_by structural t => t

/-- The files of each entry that is not hidden. -/
def visibleEntries (path : String) : List (String × FileTree α) → List (String × List String)
  | [] => []
  | (name, t) :: es =>
    if isHidden name then visibleEntries path es
    else (name, visible (Path.join path name) t) :: visibleEntries path es
  termination_by structural es => es

end

end FileTree

end LsxKit
