import LsxKit.Error
import LsxKit.Text.Lower

/-!
# Paths

A path is a text whose components are separated by slashes. Repeated slashes, slashes at the
end and components that are a single dot do not count, except for a dot at the very beginning.

* `Path.components`: the components of a path.
* `Path.parent?`, `fileName?`, `extension?`, `join`, `withExtension?`.
* `Path.compare`: the order of paths by their components.
-/

namespace LsxKit

/-- A component of a path. -/
inductive Component where
  | root
  | current
  | parent
  | normal (name : List Char)
  deriving Repr, DecidableEq

namespace Path

/-- The component that stands between two slashes; `first` tells that it begins the path. -/
def component? (first : Bool) (part : List Char) : Option Component :=
  if part = [] then none
  else if part = ['.'] then if first then some .current else none
  else if part = ['.', '.'] then some .parent
  else some (.normal part)

/-- The components among parts that stand between slashes, each with the number of characters
of the path up to its end; `start` is the number of those before the first part. -/
def locate (first : Bool) (start : Nat) : List (List Char) → List (Component × Nat)
  | [] => []
  | part :: parts =>
    let rest := locate false (start + part.length + 1) parts
    match component? first part with
    | some c => (c, start + part.length) :: rest
    | none => rest

/-- The components of a path, each with the number of characters of the path up to its end. -/
def located (p : List Char) : List (Component × Nat) :=
  match p with
  | '/' :: rest => (.root, 1) :: locate false 1 (rest.splitOn '/')
  | p => locate true 0 (p.splitOn '/')

/-- The components of a path. -/
def components (p : String) : List Component := (located p.toList).map Prod.fst

/-- The path without its last component. A root has no parent, and neither has the path without
components. -/
def parent? (p : String) : Option String :=
  let all := located p.toList
  match all.getLast? with
  | none | some (.root, _) => none
  | _ =>
    match all.dropLast.getLast? with
    | some (_, n) => some (String.ofList (p.toList.take n))
    | none => some ""

/-- The last component, if it is a name. -/
def fileName? (p : String) : Option String :=
  match (located p.toList).getLast? with
  | some (.normal name, _) => some (String.ofList name)
  | _ => none

/-- A name split at its last dot, unless the dot begins the name. -/
def splitDot (name : List Char) : List Char × Option (List Char) :=
  let tail := name.reverse.takeWhile (· ≠ '.')
  match (name.reverse.drop tail.length) with
  | _ :: stem@(_ :: _) => (stem.reverse, some tail.reverse)
  | _ => (name, none)

/-- What follows the last dot of the last component. -/
def extension? (p : String) : Option String := do
  let name ← fileName? p
  let tail ← (splitDot name.toList).2
  return String.ofList tail

/-- A relative path below a directory. -/
def join (dir rest : String) : String :=
  if dir.isEmpty || dir.toList.getLast? = some '/' then dir ++ rest else dir ++ "/" ++ rest

/-- The path with another extension; what follows the last component is dropped. -/
def withExtension? (p extension : String) : Option String :=
  match (located p.toList).getLast? with
  | some (.normal name, stop) =>
    let (stem, _) := splitDot name
    let kept := p.toList.take (stop - name.length + stem.length)
    some (String.ofList kept ++ "." ++ extension)
  | _ => none

/-- Whether a component is a given name. -/
def hasComponent (p name : String) : Bool := (components p).contains (.normal name.toList)

/-- The place of a component among components of other kinds. -/
def Component.rank : Component → Nat
  | .root => 0
  | .current => 1
  | .parent => 2
  | .normal _ => 3

/-- The order of components. -/
def Component.compare (a b : Component) : Ordering :=
  match a, b with
  | .normal s, .normal t => Ord.compare (String.ofList s) (String.ofList t)
  | a, b => Ord.compare (Component.rank a) (Component.rank b)

/-- The order of lists of components: the first that differs decides. -/
def compareComponents : List Component → List Component → Ordering
  | [], [] => .eq
  | [], _ :: _ => .lt
  | _ :: _, [] => .gt
  | a :: as, b :: bs => (Component.compare a b).then (compareComponents as bs)

/-- The order of paths. -/
def compare (p q : String) : Ordering := compareComponents (components p) (components q)

/-! ## Paths of mods -/

/-- The folder three levels above a descriptor. -/
def modRoot (descriptor : String) : Except Error String :=
  match ((parent? descriptor).bind parent?).bind parent? with
  | some root => if root.isEmpty then .error (.unusablePath descriptor) else .ok root
  | none => .error (.unusablePath descriptor)

/-- The name of the folder three levels above a descriptor. -/
def modRootName (descriptor : String) : Except Error String := do
  let root ← modRoot descriptor
  match fileName? root with
  | some name => return name
  | none => .error (.unusablePath root)

/-- The package of a mod: beside its root folder, with the folder's name. -/
def packageOf (root : String) : Except Error String :=
  match fileName? root with
  | some name => .ok (join ((parent? root).getD "") (name ++ ".pak"))
  | none => .error (.unusablePath root)

/-- The converted form of a localization file: beside it, with its name. -/
def convertedOf (xml : String) : Except Error String :=
  match withExtension? xml "loca" with
  | some p => .ok p
  | none => .error (.unusablePath xml)

/-- Whether a path is an `.xml` file below a folder `Localization`. -/
def isLocalizationXml (p : String) : Bool :=
  (extension? p).any (fun e => Text.lower e = "xml") &&
    (parent? p).any (hasComponent · "Localization")

end Path

end LsxKit
