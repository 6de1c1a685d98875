import LsxKit.Json.Shape

/-!
# Records in JSON texts

Reading a record straight from its text, field by field in the order of the text. The first fault
ends the reading, so each fault has its place. A record is written as an object, whose unknown
members are passed over, or as a list of its fields in order.

* `Record.string`, `Record.choice`: readers of values.
* `Record.read`: the record of a text.
-/

namespace LsxKit.Json.Record

open Scan

/-- Stops at a value that is not what was expected: in front of a list or an object, after any
other value. -/
def unfit {α : Type} (expected : String) (s : List Char) : Except Stop α :=
  let mistaken (found : String) (s : List Char) : Except Stop α :=
    stop (Shape.mistaken found expected) s
  match s with
  | '[' :: _ => mistaken "sequence" s
  | '{' :: _ => mistaken "map" s
  | 'n' :: s => do mistaken "null" (← word ['u', 'l', 'l'] s)
  | 't' :: s => do mistaken (Shape.describeBool true) (← word ['r', 'u', 'e'] s)
  | 'f' :: s => do mistaken (Shape.describeBool false) (← word ['a', 'l', 's', 'e'] s)
  | '"' :: s => do
    let (t, s) ← Scan.string s
    mistaken (Shape.describeString t) s
  | c :: s =>
    if startsNumber c then do
      let (n, s) ← number (c :: s)
      mistaken (Shape.describeNumber n) s
    else stopAhead .expectedValue (c :: s)
  | [] => stop .endInValue []

/-- Reads a string. -/
def string (expected : String) (s : List Char) : Except Stop (String × List Char) :=
  match skipSpace s with
  | '"' :: s => Scan.string s
  | s => unfit expected s

/-- Reads null. -/
def null (s : List Char) : Except Stop (List Char) :=
  match skipSpace s with
  | 'n' :: s => word ['u', 'l', 'l'] s
  | s => unfit "unit" s

/-- The value of a name that stands in front of a text. -/
def pick {α : Type} (names : List (String × α)) (name : String) (s : List Char) :
    Except Stop (α × List Char) :=
  match Entries.get? name names with
  | some x => .ok (x, s)
  | none => stop (Shape.unknownName name names) s

/-- Reads one of several names, as a string or as an object with the name as its only key and null
under it. -/
def choice {α : Type} (names : List (String × α)) (s : List Char) :
    Except Stop (α × List Char) :=
  match skipSpace s with
  | [] => stop .endInValue []
  | '"' :: s => do
    let (name, s) ← Scan.string s
    pick names name s
  | '{' :: s => do
    let (name, s) ← string "variant identifier" s
    let (x, s) ← pick names name s
    match skipSpace (← null (← colon s)) with
    | [] => stop .endInObject []
    | '}' :: s => return (x, s)
    | s => stop .expectedValue s
  | s => stopAhead .expectedValue s

/-- The fields of a record of type `α`: its name, the names of the fields, and how the value of a
field is read into the fields read so far. -/
structure Layout (α : Type) where
  name : String
  names : List String
  field : α → String → List Char → Except Stop (α × List Char)

namespace Layout

variable {α : Type}

/-- Stops at a field that occurs twice: after its key, and after the end of the object if that
follows. -/
def stopRepeated (name : String) (s : List Char) : Except Stop (α × List Char) :=
  match skipSpace s with
  | '}' :: s => stop (Shape.repeated name) s
  | s => stop (Shape.repeated name) s

/-- Reads the rest of an object; `first` tells that no member was read yet, `found` are the fields
read so far. -/
def members (layout : Layout α) : Nat → Bool → List String → α → List Char →
    Except Stop (α × List Char)
  | 0, _, _, _, s => stop .endInObject s
  | fuel + 1, first, found, x, s => do
    match ← nextKey first s with
    | (false, s) => return (x, s)
    | (true, s) =>
      let (name, s) ← Scan.string s
      if name ∈ found then stopRepeated name s
      else if name ∈ layout.names then
        let (x, s) ← layout.field x name (← colon s)
        members layout fuel false (name :: found) x s
      else members layout fuel false found x (← skip fuel (← colon s))

/-- Reads the end of a list all of whose fields were read. -/
def listEnd (x : α) (s : List Char) : Except Stop (α × List Char) :=
  match skipSpace s with
  | [] => stop .endInList []
  | ']' :: s => .ok (x, s)
  | ',' :: s =>
    match skipSpace s with
    | ']' :: s => stopAhead .trailingComma (']' :: s)
    | s => stopAhead .trailingCharacters s
  | s => stopAhead .trailingCharacters s

/-- Reads the rest of a list of fields with given names. -/
def elements (layout : Layout α) : List String → Bool → α → List Char →
    Except Stop (α × List Char)
  | [], _, x, s => listEnd x s
  | name :: names, first, x, s => do
    match ← nextElement first s with
    | (false, s) => return (x, s)
    | (true, s) =>
      let (x, s) ← layout.field x name s
      elements layout names false x s

/-- Reads a record; `x` holds the values of fields that are missing. The length of the text is
`fuel` enough. -/
def record (layout : Layout α) (fuel : Nat) (x : α) (s : List Char) :
    Except Stop (α × List Char) :=
  match skipSpace s with
  | '{' :: s => members layout fuel true [] x s
  | '[' :: s => elements layout layout.names true x s
  | s => unfit ("struct " ++ layout.name) s

end Layout

/-- The record of a text; `x` holds the values of fields that are missing. -/
def read {α : Type} (layout : Layout α) (x : α) (text : String) : Except Fault α :=
  let s := text.toList
  let result : Except Stop α := do
    let (x, rest) ← layout.record (s.length + 1) x s
    finish rest
    return x
  result.mapError (Fault.ofStop s)

end LsxKit.Json.Record
