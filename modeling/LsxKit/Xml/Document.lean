import LsxKit.Error
import LsxKit.Text.Blank
import LsxKit.Xml.Attribute
import LsxKit.Xml.Reference

/-!
# Documents as elements

The structure that a document describes: elements with their attributes and content, references
resolved, and declarations. Each run of text between two pieces of markup is taken without the
space at its ends, and not at all if it is nothing but space.

* `Document.read`: the structure of a text, or why it has none.
-/

namespace LsxKit.Xml

/-- Content of an element: a run of text, or an element with its name, its attributes and its
own content. -/
inductive Node where
  | text (chars : String)
  | element (name : String) (attributes : List (String × String)) (content : List Node)
  deriving Repr, Inhabited

/-- An XML declaration. -/
structure Declaration where
  version : String
  encoding : Option String
  standalone : Option String
  deriving Repr, DecidableEq

/-- What stands at the top of a document. -/
inductive Item where
  | declaration (d : Declaration)
  | element (name : String) (attributes : List (String × String)) (content : List Node)
  deriving Repr

/-- A document: its declarations and root elements, in order. -/
abbrev Document := List Item

namespace Document

/-- An element that has begun: its content so far, latest first. -/
structure Opened where
  name : String
  attributes : List (String × String)
  content : List Node
  deriving Repr

/-- A document that is being read: the open elements, innermost first, and the complete items,
latest first. -/
structure Partial where
  opened : List Opened
  items : List Item
  deriving Repr

/-! ## The parts of a document -/

/-- The attributes of a tag, values resolved, in order; the first fault counts, whether of a
reference in a value or of the attributes themselves. -/
def readAttributes (t : Tag) : Except Error (List (String × String)) := do
  let (raw, fault) := t.attributes
  let attributes ← raw.mapM fun a => do
    let value ← (unescape a.value).mapError fun f => Error.markup (.reference f)
    return (String.ofList a.key, String.ofList value)
  match fault with
  | some fault => .error (.attribute fault)
  | none => return attributes

/-- The value of the first attribute with the given key, if it comes before any fault. -/
def findAttribute (key : List Char) (content : List Char) : Except Error (Option String) :=
  let (raw, fault) := Attribute.scan false (Text.size content) [] (content.drop 3)
  match raw.find? (·.key = key), fault with
  | some a, _ => .ok (some (String.ofList a.value))
  | none, some fault => .error (.markup (.declarationAttribute fault))
  | none, none => .ok none

/-- The declaration with the given content. The version comes first; values are not resolved. -/
def readDeclaration (content : List Char) : Except Error Declaration := do
  let version ← match Attribute.scan false (Text.size content) [] (content.drop 3) with
    | (a :: _, _) =>
      if a.key = ['v', 'e', 'r', 's', 'i', 'o', 'n'] then .ok (String.ofList a.value)
      else .error (Error.markup (.versionNotFirst (some (String.ofList a.key))))
    | ([], some fault) => .error (Error.markup (.declarationAttribute fault))
    | ([], none) => .error (Error.markup (.versionNotFirst none))
  let encoding ← findAttribute ['e', 'n', 'c', 'o', 'd', 'i', 'n', 'g'] content
  let standalone ← findAttribute ['s', 't', 'a', 'n', 'd', 'a', 'l', 'o', 'n', 'e'] content
  return ⟨version, encoding, standalone⟩

/-! ## Reading -/

/-- Adds content to the innermost open element; text outside all elements is dropped. -/
def Partial.addText (p : Partial) (chars : List Char) : Partial :=
  match p.opened with
  | [] => p
  | o :: os =>
    { p with opened := { o with content := .text (String.ofList chars) :: o.content } :: os }

/-- Adds a complete element. -/
def Partial.addElement (p : Partial) (name : String) (attributes : List (String × String))
    (content : List Node) : Partial :=
  match p.opened with
  | [] => { p with items := .element name attributes content :: p.items }
  | o :: os =>
    { p with opened := { o with content := .element name attributes content :: o.content } :: os }

/-- Takes an event into account. -/
def Partial.add (keepDeclaration : Bool) (p : Partial) : Event → Except Error Partial
  | .start tag => do
    let attributes ← readAttributes tag
    return { p with opened := ⟨String.ofList tag.name, attributes, []⟩ :: p.opened }
  | .empty tag => do
    let attributes ← readAttributes tag
    return p.addElement (String.ofList tag.name) attributes []
  | .close _ =>
    match p.opened with
    | [] => .ok p
    | o :: os =>
      .ok (Partial.addElement { p with opened := os } o.name o.attributes o.content.reverse)
  | .text raw => do
    let run := Text.trimBy isSpace raw
    if run.isEmpty || p.opened.isEmpty then return p
    else return p.addText (← (unescape run).mapError fun f => Error.markup (.reference f))
  | .characterData raw => .ok (p.addText raw)
  | .declaration content => do
    if keepDeclaration then
      return { p with items := .declaration (← readDeclaration content) :: p.items }
    else return p
  | .other => .ok p

/-- The document of a text. Declarations are left out, and not even looked at, unless they are
to be kept. -/
def read (keepDeclaration : Bool) (text : String) : Except Error Document := do
  let cs := text.toList
  let r := Event.reading cs
  let p ← r.events.foldlM (fun p (_, e) => Partial.add keepDeclaration p e) ⟨[], []⟩
  match r.fault, p.opened with
  | some (_, fault), _ => .error (.markup fault)
  | none, o :: _ =>
    .error (.document (Position.ofOffset cs (Text.size cs)) (.unclosed o.name))
  | none, [] => return p.items.reverse

end Document

end LsxKit.Xml
