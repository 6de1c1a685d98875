import LsxKit.Descriptor.Node
import LsxKit.Tree.Read
import LsxKit.Tree.Write
import LsxKit.Version

/-!
# Descriptors of mods

A descriptor is kept as the tree of its text, so that writing it back changes nothing but what
was edited. What it says about the module and its dependencies is read from the tree once.

* `Descriptor.parse`: the descriptor of a text.
* `Descriptor.set`, `Descriptor.bump`: the edits.
* `Descriptor.toXml`: the text of a descriptor, with the line ends of the text it was read from.
-/

namespace LsxKit

open Json LsxKit.Tree

/-- A descriptor. -/
structure Descriptor where
  tree : Value
  /-- The attributes of the module. -/
  info : Entries ModuleField String
  /-- The attributes of each dependency. -/
  dependencies : List (Entries DependencyField String)
  /-- Whether lines end with a carriage return and a line feed. -/
  crlf : Bool
  /-- Whether the last line has an end. -/
  endsLine : Bool

namespace Descriptor

/-- What a tree says about the module, if it has a node for it. -/
def infoOf (tree : Value) : Except Error (Entries ModuleField String) :=
  match node? tree .moduleInfo with
  | some node => .ok (attributesOf ModuleField.ofId? node)
  | none => .error (.missingNode NodeKind.moduleInfo.id)

/-- What a tree says about dependencies. -/
def dependenciesOf (tree : Value) : List (Entries DependencyField String) :=
  match node? tree .dependencies with
  | some node => (childNodes node).map (attributesOf DependencyField.ofId?)
  | none => []

/-- Whether a carriage return stands before a line feed. -/
def hasCrlf : List Char → Bool
  | '\r' :: '\n' :: _ => true
  | _ :: s => hasCrlf s
  | [] => false

/-- The descriptor of a text, or why it is none. -/
def parse (text : String) : Except Error Descriptor := do
  let tree ← Tree.parse .descriptor text
  return {
    tree
    info := ← infoOf tree
    dependencies := dependenciesOf tree
    crlf := hasCrlf text.toList
    endsLine := text.toList.getLast? = some '\n' }

/-- The kinds of the nodes below the root node, in order. -/
def nodes (d : Descriptor) : List NodeKind :=
  (rootNodes d.tree).filterMap fun p => p.id?.map NodeKind.ofId

/-- The value of an attribute of the module. -/
def get? (d : Descriptor) (field : ModuleField) : Option String := d.info.get? field

/-- The value of an attribute that the module must have. -/
def require (d : Descriptor) (field : ModuleField) : Except Error String :=
  match d.get? field with
  | some value => .ok value
  | none => .error (.missingAttribute NodeKind.moduleInfo.id field.id)

/-- The first attribute of the module with an id. -/
def attribute? (node : Place) (id : String) : Option Place :=
  (attributePlaces node).find? (attributeId? · = some id)

/-- Changes the value of the first attribute of the module with the id of the field. -/
def set (d : Descriptor) (field : ModuleField) (value : String) : Except Error Descriptor :=
  match node? d.tree .moduleInfo with
  | none => .error (.missingNode NodeKind.moduleInfo.id)
  | some node =>
    match attribute? node field.id with
    | some ⟨path, .object members⟩ =>
      let changed := Value.object (Entries.insert "value" (.string value) members)
      .ok { d with
        tree := d.tree.replaceAt path changed
        info := d.info.insert field value }
    | _ => .error (.missingAttribute NodeKind.moduleInfo.id field.id)

/-- The version of the module. -/
def version (d : Descriptor) : Except Error Version := do
  Version.parsePacked (← d.require .version)

/-- Bumps the version of the module; gives the changed descriptor and the new version. -/
def bump (d : Descriptor) (kind : VersionKind) : Except Error (Descriptor × Version) := do
  let bumped := (← d.version).bump kind
  return (← d.set .version (toString bumped.pack.toNat), bumped)

/-- The UUID of the module. -/
def uuid (d : Descriptor) : Except Error String := d.require .uuid

/-- A carriage return before every line feed. -/
def toCrlf (s : List Char) : List Char :=
  s.flatMap fun c => if c = '\n' then ['\r', '\n'] else [c]

/-- The text of a descriptor. -/
def toXml (d : Descriptor) : Except Error String := do
  let text := (← Tree.write .descriptor d.tree).toList ++ if d.endsLine then ['\n'] else []
  return String.ofList (if d.crlf then toCrlf text else text)

end Descriptor

end LsxKit
