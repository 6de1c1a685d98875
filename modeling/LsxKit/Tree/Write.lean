import LsxKit.Error
import LsxKit.Tree.Options
import LsxKit.Tree.Scalar
import LsxKit.Xml.Writer

/-!
# Writing trees

The markup of a tree of the shape that reading with the same options gives.

* `Tree.marks`: the marks of a tree, or why it has none.
* `Tree.write`: the text of a tree.
-/

namespace LsxKit.Tree

open Json Xml

/-- What a member of the object of an element stands for. -/
inductive Role where
  | text
  | group
  | attribute
  | child
  deriving Repr, DecidableEq

/-- The role of a member. Without a group, members that are no objects or arrays are
attributes. -/
def role (o : Options) (key : String) (value : Value) : Role :=
  if key = textKey then .text
  else if o.group = some key then .group
  else if o.group.isNone && !(value.isObject || value.isArray) then .attribute
  else .child

/-- The attributes among the members of an element `tag`, in order. -/
def memberAttributes (o : Options) (tag : String) :
    List (String × Value) → Except TreeFault (List (String × String))
  | [] => .ok []
  | (key, value) :: members =>
    match role o key value with
    | .group =>
      match value with
      | .object own => do
        let rest ← memberAttributes o tag members
        return own.map (fun (k, v) => (k, Scalar.render v)) ++ rest
      | _ => .error (.attributesNotObject tag)
    | .attribute => do
      let rest ← memberAttributes o tag members
      return (key, Scalar.render value) :: rest
    | .text | .child => memberAttributes o tag members

/-- The text among the members of an element; empty if there is none. -/
def memberText (members : Entries String Value) : String :=
  ((members.get? textKey).map Scalar.render).getD ""

/-- The marks of an element: an empty tag if it has neither content nor text. -/
def elementMarks (tag : String) (attributes : List (String × String)) (text : String)
    (noChildren : Bool) (children : List Mark) : List Mark :=
  if noChildren && text = "" then [.empty tag attributes]
  else
    .start tag attributes :: (if text = "" then [] else [.text text]) ++ children ++ [.close tag]

/-- The text of a declaration member. -/
def declared? (o : Options) (value : Value) (name : String) : Option String := do
  let attributes ← match o.group with
    | some group => value.get? group
    | none => some value
  return Scalar.render (← attributes.get? name)

/-- The mark of a declaration; the version is 1.0 unless another is given. -/
def declarationMark (o : Options) (value : Value) : Mark :=
  .declaration ((declared? o value "version").getD "1.0") (declared? o value "encoding")
    (declared? o value "standalone")

mutual

/-- The marks of the elements that a value stands for under a tag. -/
def valueMarks (o : Options) (tag : String) : Value → Except TreeFault (List Mark)
  | .array items => itemMarks o tag items
  | .object members => do
    let attributes ← memberAttributes o tag members
    let children ← childMarks o members
    let noChildren := members.all fun (key, value) => role o key value ≠ .child
    return elementMarks tag attributes (memberText members) noChildren children
  | v => .ok (elementMarks tag [] (Scalar.render v) true [])
  termination_by structural v => v

/-- The marks of elements of one tag. -/
def itemMarks (o : Options) (tag : String) : List Value → Except TreeFault (List Mark)
  | [] => .ok []
  | v :: vs => do
    if v.isArray then .error (.nestedArray tag)
    return (← valueMarks o tag v) ++ (← itemMarks o tag vs)
  termination_by structural vs => vs

/-- The marks of the children among the members of an element. -/
def childMarks (o : Options) : List (String × Value) → Except TreeFault (List Mark)
  | [] => .ok []
  | (key, value) :: members => do
    let own ← if role o key value = .child then valueMarks o key value else .ok []
    return own ++ (← childMarks o members)
  termination_by structural members => members

end

/-- The marks of the members of a document. -/
def documentMarks (o : Options) : List (String × Value) → Except TreeFault (List Mark)
  | [] => .ok []
  | (key, value) :: members => do
    let own ← if key = declarationKey then .ok [declarationMark o value] else valueMarks o key value
    return own ++ (← documentMarks o members)

/-- The marks of a tree. -/
def marks (o : Options) : Value → Except TreeFault (List Mark)
  | .object members => documentMarks o members
  | _ => .error .notObject

/-- The text of a tree, or why it has none. -/
def write (o : Options) (tree : Value) : Except Error String :=
  match marks o tree with
  | .ok ms => .ok (String.ofList (spaceEmptyTags (Mark.layout 0 false ms)))
  | .error fault => .error (.tree fault)

end LsxKit.Tree
