import LsxKit.Text.Blank

/-!
# Outlines

The tags of a text, found without reading it as markup: everything that begins with `<` outside
another tag. The lines of the text are scanned in order, and a tag may go on for several lines.

* `Outline.ofLines`: the tags of a text in order, each with the number of elements that are open
  before it.
-/

namespace LsxKit

/-- What a tag does, by the character after its bracket. -/
inductive TagKind where
  | opening
  | closing
  /-- A declaration, a comment and the like. -/
  | other
  deriving Repr, DecidableEq

/-- A tag of an outline. -/
structure OutlineTag where
  line : Nat
  /-- The number of characters of the line before the bracket. -/
  column : Nat
  kind : TagKind
  /-- The name; the mark of a declaration belongs to it. -/
  name : List Char
  /-- The number of elements that are open before the tag. -/
  depth : Nat
  deriving Repr, DecidableEq

namespace Outline

/-- What the scan is inside of, and the number of open elements. -/
structure State where
  /-- The kind of the tag that has begun. -/
  inside : Option TagKind
  /-- The quote that has begun in it. -/
  quote : Option Char
  depth : Nat
  deriving Repr

/-- The state at the beginning of a text. -/
def State.initial : State := ⟨none, none, 0⟩

/-- The kind of the tag that begins before the characters `cs`. -/
def kindOf : List Char → TagKind
  | '/' :: _ => .closing
  | '?' :: _ => .other
  | '!' :: _ => .other
  | _ => .opening

/-- Whether a character belongs to a name. -/
def inName (c : Char) : Bool := !(Text.isBlank c || c = '>' || c = '/')

/-- The name of a tag that begins before the characters `cs`; the slash of a closing tag does not
belong to it. -/
def nameOf (kind : TagKind) (cs : List Char) : List Char :=
  match kind, cs with
  | .closing, '/' :: cs => cs.takeWhile inName
  | _, cs => cs.takeWhile inName

/-- The number of open elements after the end of a tag; `previous` is the character before its
last bracket. -/
def depthAfter (kind : TagKind) (previous : Char) (depth : Nat) : Nat :=
  match kind with
  | .opening => if previous = '/' then depth else depth + 1
  | .closing => depth - 1
  | .other => depth

/-- The state after a character, and the tag that begins with it. -/
def step (s : State) (line column : Nat) (previous c : Char) (cs : List Char) :
    Option OutlineTag × State :=
  match s.inside, s.quote with
  | none, _ =>
    if c = '<' then
      let kind := kindOf cs
      (some ⟨line, column, kind, nameOf kind cs, s.depth⟩, { s with inside := some kind })
    else (none, s)
  | some _, some q => (none, if c = q then { s with quote := none } else s)
  | some kind, none =>
    if kind = .opening ∧ (c = '"' ∨ c = '\'') then (none, { s with quote := some c })
    else if c = '>' then
      (none, { s with inside := none, depth := depthAfter kind previous s.depth })
    else (none, s)

/-- Scans the rest of a line from a column on. -/
def scanLine (line : Nat) (s : State) (column : Nat) (previous : Char) :
    List Char → List OutlineTag × State
  | [] => ([], s)
  | c :: cs =>
    let (tag, s) := step s line column previous c cs
    let (tags, s) := scanLine line s (column + 1) c cs
    (tag.toList ++ tags, s)

/-- Scans lines from the number `line` on. -/
def scanLines (line : Nat) (s : State) : List (List Char) → List OutlineTag
  | [] => []
  | cs :: lines =>
    let (tags, s) := scanLine line s 0 '\x00' cs
    tags ++ scanLines (line + 1) s lines

/-- The tags of the lines of a text. -/
def ofLines (lines : List (List Char)) : List OutlineTag := scanLines 0 .initial lines

end Outline

end LsxKit
