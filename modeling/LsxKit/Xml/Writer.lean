import LsxKit.Xml.Reference

/-!
# Writing markup

Markup is laid out with one tag to a line and a tab for each level of nesting. A tag that
follows text stays on its line, so that no space is added to text.

* `Mark.layout`: the text of a sequence of marks.
* `spaceEmptyTags`: a blank before the slash of every empty element.
-/

namespace LsxKit.Xml

/-- What is written: tags, text and declarations. -/
inductive Mark where
  | declaration (version : String) (encoding standalone : Option String)
  | start (name : String) (attributes : List (String × String))
  | empty (name : String) (attributes : List (String × String))
  | close (name : String)
  | text (chars : String)
  deriving Repr, DecidableEq

namespace Mark

/-- An attribute with its leading blank; the value is escaped. -/
def attributeChars (a : String × String) : List Char :=
  ' ' :: a.1.toList ++ '=' :: '"' :: escape a.2.toList ++ ['"']

/-- An attribute of a declaration with its leading blank; the value is written as it is. -/
def declaredChars (key : List Char) (value : String) : List Char :=
  ' ' :: key ++ '=' :: '"' :: value.toList ++ ['"']

/-- The characters of a mark. -/
def chars : Mark → List Char
  | .declaration version encoding standalone =>
    ['<', '?', 'x', 'm', 'l'] ++ declaredChars ['v', 'e', 'r', 's', 'i', 'o', 'n'] version ++
      (encoding.map (declaredChars ['e', 'n', 'c', 'o', 'd', 'i', 'n', 'g'])).getD [] ++
      (standalone.map (declaredChars ['s', 't', 'a', 'n', 'd', 'a', 'l', 'o', 'n', 'e'])).getD [] ++
      ['?', '>']
  | .start name attributes => '<' :: name.toList ++ attributes.flatMap attributeChars ++ ['>']
  | .empty name attributes => '<' :: name.toList ++ attributes.flatMap attributeChars ++ ['/', '>']
  | .close name => '<' :: '/' :: name.toList ++ ['>']
  | .text s => escape s.toList

/-- The line break and the tabs before a tag, if it begins a line. -/
def indent (breakLine : Bool) (depth : Nat) : List Char :=
  if breakLine then '\n' :: List.replicate depth '\t' else []

/-- The text of marks at a depth; `breakLine` tells whether a tag begins a new line. -/
def layout (depth : Nat) (breakLine : Bool) : List Mark → List Char
  | [] => []
  | .text s :: ms => chars (.text s) ++ layout depth false ms
  | .start name attributes :: ms =>
    indent breakLine depth ++ chars (.start name attributes) ++ layout (depth + 1) true ms
  | .close name :: ms =>
    indent breakLine (depth - 1) ++ chars (.close name) ++ layout (depth - 1) true ms
  | m :: ms => indent breakLine depth ++ chars m ++ layout depth true ms

end Mark

/-- Writes a blank before the slash of every empty element. -/
def spaceEmptyTags : List Char → List Char
  | [] => []
  | '/' :: '>' :: cs => ' ' :: '/' :: '>' :: spaceEmptyTags cs
  | c :: cs => c :: spaceEmptyTags cs

end LsxKit.Xml
