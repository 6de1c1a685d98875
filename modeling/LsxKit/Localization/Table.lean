import LsxKit.Tree.Read

/-!
# Localization tables

The texts of a mod by their handles, in the order in which the handles were first written. A
handle that is written again takes the new text.

* `LocalizationTable.extend`: adds the entries of a document.
* `LocalizationTable.insert`, `get?`, `clear`: the other operations.
-/

namespace LsxKit

open Json LsxKit.Tree

/-- Texts by handles. -/
structure LocalizationTable where
  entries : Entries String String
  deriving Repr, DecidableEq

namespace LocalizationTable

/-- No texts. -/
def empty : LocalizationTable := ⟨[]⟩

/-- The trees of localization documents: values are text, and entries are always in an array. -/
def options : Options where
  group := some attributesGroup
  convert := false
  ignoreDeclaration := true
  alwaysArray := fun tag _ => tag = "content"

/-- The handle and the text of an entry; an entry without a handle is none. -/
def entry? (content : Value) : Option (String × String) := do
  let handle ← ((← content.get? attributesGroup).get? "contentuid").bind (·.asString?)
  return (handle, ((content.get? textKey).bind (·.asString?)).getD "")

/-- The entries of the tree of a localization document; other documents have none. -/
def entriesOf (tree : Value) : List (String × String) :=
  match (tree.get? "contentList").bind (·.get? "content") with
  | some (.array contents) => contents.filterMap entry?
  | _ => []

/-- Adds entries. -/
def add (t : LocalizationTable) (es : List (String × String)) : LocalizationTable :=
  ⟨t.entries.extend es⟩

/-- Adds the entries of a document; gives the new table and how many there were. -/
def extend (t : LocalizationTable) (xml : String) : Except Error (LocalizationTable × Nat) := do
  let es := entriesOf (← Tree.parse options xml)
  return (t.add es, es.length)

/-- The table of a document. -/
def ofXml (xml : String) : Except Error LocalizationTable := (empty.extend xml).map Prod.fst

/-- The text of a handle. -/
def get? (t : LocalizationTable) (handle : String) : Option String := t.entries.get? handle

/-- Writes a text; gives the new table and the previous text. -/
def insert (t : LocalizationTable) (handle text : String) : LocalizationTable × Option String :=
  (⟨t.entries.insert handle text⟩, t.get? handle)

/-- Forgets all texts. -/
def clear (_ : LocalizationTable) : LocalizationTable := empty

/-- The number of handles. -/
def size (t : LocalizationTable) : Nat := t.entries.length

/-- The handles with their texts, in order. -/
def toList (t : LocalizationTable) : List (String × String) := t.entries

end LocalizationTable

end LsxKit
