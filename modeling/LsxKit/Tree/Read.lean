import LsxKit.Json.Value
import LsxKit.Tree.Options
import LsxKit.Tree.Scalar
import LsxKit.Xml.Document

/-!
# Documents as trees

The tree of an element is its text if it has neither attributes nor children. Otherwise it is
an object: attributes in their group, children under their tags, and text under its own key.
Children of one tag form an array when there are several or when the options ask for one.

* `Tree.ofDocument`: the tree of a document.
* `Tree.parse`: the tree of a text.
-/

namespace LsxKit.Tree

open Json Xml

/-- Adds a value under a tag. A second value makes an array of the two, and further ones are
appended to it. -/
def addChild (members : Entries String Value) (tag : String) (value : Value) (inArray : Bool) :
    Entries String Value :=
  members.alter tag fun
    | some (.array items) => .array (items ++ [value])
    | some first => .array [first, value]
    | none => if inArray then .array [value] else value

/-- The members under which attributes stand in the tree of an element. -/
def attributeMembers (o : Options) (attributes : List (String × String)) : Entries String Value :=
  let values := Entries.extend [] (attributes.map fun (k, v) => (k, Scalar.ofText o.convert v))
  match o.group with
  | some group => [(group, .object values)]
  | none => values

/-- The tree of an element with the given attributes, children and text. -/
def elementValue (o : Options) (attributes : List (String × String))
    (children : Entries String Value) (text : List Char) : Value :=
  let text := String.ofList (Text.trimBy Text.isBlank text)
  if attributes.isEmpty && children.isEmpty then Scalar.ofText o.convert text
  else
    let members := if attributes.isEmpty then children
      else Entries.extend (attributeMembers o attributes) children
    .object (if text = "" then members else members.insert textKey (Scalar.ofText o.convert text))

/-- The text directly inside an element. -/
def contentText : List Node → List Char
  | [] => []
  | .text s :: ns => s.toList ++ contentText ns
  | .element .. :: ns => contentText ns

mutual

/-- The content of an element at a dotted path, added to `members`: a child under its name. -/
def addNode (o : Options) (path : String) (members : Entries String Value) :
    Node → Entries String Value
  | .text _ => members
  | .element name attributes content =>
    let inner := path ++ "." ++ name
    let value := elementValue o attributes (addContent o inner [] content) (contentText content)
    addChild members name value (o.alwaysArray name inner)
  termination_by structural n => n

/-- The children of an element at a dotted path, added to `members` in order. -/
def addContent (o : Options) (path : String) (members : Entries String Value) :
    List Node → Entries String Value
  | [] => members
  | n :: ns => addContent o path (addNode o path members n) ns
  termination_by structural ns => ns

end

/-- The members of a declaration: the version as a scalar, the others as text. -/
def declarationMembers (o : Options) (d : Declaration) : Entries String Value :=
  ("version", Scalar.ofText o.convert d.version) ::
    (d.encoding.toList.map fun e => ("encoding", Value.string e)) ++
    (d.standalone.toList.map fun s => ("standalone", Value.string s))

/-- The tree of a declaration. -/
def declarationValue (o : Options) (d : Declaration) : Value :=
  match o.group with
  | some group => .object [(group, .object (declarationMembers o d))]
  | none => .object (declarationMembers o d)

/-- Adds an item of a document. -/
def addItem (o : Options) (members : Entries String Value) : Item → Entries String Value
  | .declaration d => members.insert declarationKey (declarationValue o d)
  | .element name attributes content =>
    let value := elementValue o attributes (addContent o name [] content) (contentText content)
    addChild members name value (o.alwaysArray name name)

/-- The tree of a document. -/
def ofDocument (o : Options) (d : Document) : Value :=
  .object (d.foldl (addItem o) [])

/-- The tree of a text, or why it has none. -/
def parse (o : Options) (text : String) : Except Error Value :=
  (Document.read (!o.ignoreDeclaration) text).map (ofDocument o)

end LsxKit.Tree
