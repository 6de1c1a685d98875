import LsxKit.Descriptor.Field
import LsxKit.Entries
import LsxKit.Tree.Place

/-!
# Nodes of descriptors

The nodes below the root node of the region `Config`, and what they hold.

* `NodeKind`: the kind of a node, by its id.
* `Descriptor.node?`: the first node of a kind.
* `Descriptor.attributesOf`: the known attributes of a node.
-/

namespace LsxKit

open Json LsxKit.Tree

/-- The kind of a node of a descriptor. -/
inductive NodeKind where
  | dependencies
  | moduleInfo
  | publishVersion
  | scripts
  | targetModes
  | other (id : String)
  deriving Repr, DecidableEq

namespace NodeKind

/-- The id of a kind. -/
def id : NodeKind → String
  | .dependencies => "Dependencies"
  | .moduleInfo => "ModuleInfo"
  | .publishVersion => "PublishVersion"
  | .scripts => "Scripts"
  | .targetModes => "TargetModes"
  | .other id => id

/-- The kind with an id. -/
def ofId (id : String) : NodeKind :=
  ([NodeKind.dependencies, .moduleInfo, .publishVersion, .scripts, .targetModes].find?
    (·.id = id)).getD (.other id)

/-- Whether a kind has no meaning of its own. -/
def isOther : NodeKind → Bool
  | .other _ => true
  | _ => false

end NodeKind

namespace Descriptor

/-- The nodes among the children of a node. -/
def childNodes (p : Place) : List Place :=
  match p.member? "children" with
  | some q => q.members "node"
  | none => []

/-- The root node: that of the region `Config`, or of the first region if there is none. -/
def rootNode? (tree : Value) : Option Place := do
  let save ← (Place.top tree).member? "save"
  let regions := save.members "region"
  let region ← (regions.find? (·.id? = some "Config")).or regions.head?
  (region.members "node").find? (·.id? = some "root")

/-- The nodes below the root node. -/
def rootNodes (tree : Value) : List Place :=
  match rootNode? tree with
  | some root => childNodes root
  | none => []

/-- The first node of a kind. -/
def node? (tree : Value) (kind : NodeKind) : Option Place :=
  (rootNodes tree).find? (·.id? = some kind.id)

/-- The objects that hold the attributes of a node, one for each. -/
def attributePlaces (p : Place) : List Place :=
  (p.members "attribute").filterMap (·.member? attributesGroup)

/-- The id of an attribute of a node. -/
def attributeId? (p : Place) : Option String := (p.value.get? "id").bind (·.asString?)

/-- The value of an attribute of a node; empty if it has none. -/
def attributeValue (p : Place) : String :=
  ((p.value.get? "value").bind (·.asString?)).getD ""

/-- The known attributes of a node, in the order in which their ids first occur. Of attributes
with one id the last counts. -/
def attributesOf {α : Type} [DecidableEq α] (known : String → Option α) (p : Place) :
    Entries α String :=
  Entries.extend [] <| (attributePlaces p).filterMap fun q => do
    return (← known (← attributeId? q), attributeValue q)

end Descriptor

end LsxKit
