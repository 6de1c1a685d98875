import LsxKit.Diagnosis.Outline
import LsxKit.Json.Path
import LsxKit.Pattern.Read
import LsxKit.Pattern.Size
import LsxKit.Text.Lines
import LsxKit.Tree.Options

/-!
# Locating paths

Where in a text the value stands to which a path leads in its tree. The tags of the outline are
followed in order: each key is looked for after the tag at which the last one was found, each
index counts tags of that name at its depth. What is not found leaves the place of what was.
An attribute is looked for by a pattern of its name, and has no columns if that is too large.

* `Locator.locate`: the place of a path.
-/

namespace LsxKit

open Json

/-- A place in a text: a line, and for an attribute its first column and the one after it. -/
structure Location where
  line : Nat
  columns : Option (Nat × Nat)
  deriving Repr, DecidableEq

/-- A text prepared for locating: its lines, its outline, and the key of attributes. -/
structure Locator where
  lines : List (List Char)
  tags : List OutlineTag
  group : String

/-- Whether a tag begins an element of a name. -/
def OutlineTag.opens (t : OutlineTag) (name : List Char) : Bool :=
  t.kind ≠ .closing && t.name = name

namespace Locator

/-- A text given by its lines. -/
def ofLines (lines : List (List Char)) (group : String) : Locator :=
  ⟨lines, Outline.ofLines lines, group⟩

/-- A text. -/
def ofText (text group : String) : Locator := ofLines (Text.lines text.toList) group

/-! ## Elements -/

/-- A tag, and the tags after it. -/
abbrev Anchor := OutlineTag × List OutlineTag

/-- The first tag that begins an element of a name. -/
def findOpening (name : List Char) : List OutlineTag → Option Anchor
  | [] => none
  | t :: ts => if t.opens name then some (t, ts) else findOpening name ts

/-- The tag that begins the `index`-th element of a name at a depth, before the enclosing element
ends. -/
def findSibling (name : List Char) (depth index : Nat) : List OutlineTag → Option Anchor
  | [] => none
  | t :: ts =>
    if t.kind = .closing then
      if t.depth ≤ depth then none else findSibling name depth index ts
    else if t.depth = depth ∧ t.opens name then
      match index with
      | 0 => some (t, ts)
      | index + 1 => findSibling name depth index ts
    else findSibling name depth index ts

/-! ## Attributes -/

/-- The characters after a word at the beginning of a text. -/
def dropWord? : List Char → List Char → Option (List Char)
  | [], s => some s
  | _ :: _, [] => none
  | w :: ws, c :: s => if w = c then dropWord? ws s else none

/-- The length of an attribute at the beginning of a text: its name, an equals sign with blanks
around it, and a complete quoted value. -/
def attributeLength? (name s : List Char) : Option Nat := do
  let rest := (← dropWord? name s).dropWhile Text.isBlank
  let rest := (← dropWord? ['='] rest).dropWhile Text.isBlank
  match rest with
  | q :: rest =>
    if q = '"' ∨ q = '\'' then
      match rest.dropWhile (· ≠ q) with
      | _ :: rest => some (s.length - rest.length)
      | [] => none
    else none
  | [] => none

/-- The first column of an attribute and its length, looked for from `column` on where an
attribute can begin: at the start, after a blank or after an opening bracket. -/
def findAttribute? (name : List Char) (column : Nat) (canBegin : Bool) (s : List Char) :
    Option (Nat × Nat) :=
  match if canBegin then attributeLength? name s else none with
  | some n => some (column, n)
  | none =>
    match s with
    | [] => none
    | c :: s => findAttribute? name (column + 1) (Text.isBlank c || c = '<') s
termination_by s.length

/-- The line and the column of an anchored tag; without one, the beginning of the text. -/
def place (anchor : Option Anchor) : Nat × Nat :=
  match anchor with
  | some (t, _) => (t.line, t.column)
  | none => (0, 0)

/-- The pattern of what `findAttribute?` looks for. -/
def attributePattern (name : String) : String :=
  "(?:^|[\\s<])(" ++ Pattern.escaped name ++ "\\s*=\\s*(?:\"[^\"]*\"|'[^']*'))"

/-- Whether attributes of a name can be looked for: the pattern for them is one, and it fits. -/
def isSearchable (name : String) : Bool :=
  ((Pattern.read? (attributePattern name)).filter Pattern.fits).isSome

/-- The place of an attribute of an anchored tag, on the line on which the tag begins. -/
def locateAttribute (l : Locator) (anchor : Option Anchor) (name : String) : Location :=
  let (line, column) := place anchor
  let columns := do
    let text ← l.lines[line]?
    guard (isSearchable name)
    let (start, length) ← findAttribute? name.toList column true (text.drop column)
    return (start, start + length)
  ⟨line, columns⟩

/-! ## Paths -/

/-- Follows a path from an anchored tag on; `name` is the last key that was found. -/
def follow (l : Locator) (anchor : Option Anchor) (name : Option (List Char)) :
    List Step → Location
  | [] => ⟨(place anchor).1, none⟩
  | .key k :: path =>
    if k = l.group then
      match path with
      | .key attributeName :: _ => l.locateAttribute anchor attributeName
      | _ => ⟨(place anchor).1, none⟩
    else if k = Tree.textKey then follow l anchor name path
    else
      let later := match anchor with
        | some (_, ts) => ts
        | none => l.tags
      match findOpening k.toList later with
      | some a => follow l (some a) (some k.toList) path
      | none => ⟨(place anchor).1, none⟩
  | .index i :: path =>
    match anchor, name with
    | some (t, ts), some n =>
      match findSibling n t.depth i (t :: ts) with
      | some a => follow l (some a) (some n) path
      | none => ⟨t.line, none⟩
    | _, _ => ⟨(place anchor).1, none⟩

/-- The place to which a path leads. -/
def locate (l : Locator) (path : List Step) : Location := l.follow none none path

end Locator

end LsxKit
