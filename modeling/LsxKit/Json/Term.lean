import LsxKit.Json.Scan

/-!
# JSON texts as trees

A JSON text read as a whole, before it is asked what it stands for. All members of an object are
kept, and a part of the right form may stand for nothing: a number that is too large, a string with
half of a pair of units, brackets that nest too deep. It does no harm where nobody asks for it.

* `Term.read`: the tree of a text, or why and where it is none.
-/

namespace LsxKit.Json

/-- The number of levels that arrays and objects may nest. -/
def maxDepth : Nat := 127

/-- A JSON text as a tree. A key is missing if it stands for nothing. -/
inductive Term where
  | null
  | bool (b : Bool)
  | number (n : Number)
  | string (s : String)
  | array (items : List Term)
  | object (members : List (Option String × Term))
  /-- A part that stands for nothing. -/
  | broken (cause : Cause)
  deriving Repr, Inhabited

namespace Term

open Scan

/-- Reads a string after its opening quote, if only for its form. -/
def text (s : List Char) : Except Stop (Option String × List Char) :=
  match Scan.string s with
  | .ok (t, rest) => .ok (some t, rest)
  | .error stop =>
    match skipString s with
    | .ok rest => .ok (none, rest)
    | .error _ => .error stop

/-- Reads a value that is no array and no object. -/
def scalar (s : List Char) : Except Stop (Term × List Char) :=
  match s with
  | [] => stop .endInValue []
  | 'n' :: s => do return (.null, ← word ['u', 'l', 'l'] s)
  | 't' :: s => do return (.bool true, ← word ['r', 'u', 'e'] s)
  | 'f' :: s => do return (.bool false, ← word ['a', 'l', 's', 'e'] s)
  | '"' :: s => do
    let (t, rest) ← text s
    return (t.elim (.broken .loneSurrogate) .string, rest)
  | c :: s =>
    if startsNumber c then do
      let (n, rest) ← numeral (c :: s)
      return (n.toNumber?.elim (.broken .numberTooLarge) .number, rest)
    else stopAhead .expectedValue (c :: s)

/-- Reads the rest of an array after the elements `read` (the last one first). -/
def items (element : List Char → Except Stop (Term × List Char)) :
    Nat → List Term → List Char → Except Stop (Term × List Char)
  | 0, _, s => stop .endInList s
  | fuel + 1, read, s => do
    match ← nextElement read.isEmpty s with
    | (false, s) => return (.array read.reverse, s)
    | (true, s) =>
      let (t, s) ← element s
      items element fuel (t :: read) s

/-- Reads the rest of an object after the members `read` (the last one first). -/
def members (value : List Char → Except Stop (Term × List Char)) :
    Nat → List (Option String × Term) → List Char → Except Stop (Term × List Char)
  | 0, _, s => stop .endInObject s
  | fuel + 1, read, s => do
    match ← nextKey read.isEmpty s with
    | (false, s) => return (.object read.reverse, s)
    | (true, s) =>
      let (key, s) ← text s
      let (t, s) ← value (← colon s)
      members value fuel ((key, t) :: read) s

/-- Reads a value that may nest a number of levels. The fuel bounds the number of parts; the length
of the text is enough. -/
def value (fuel : Nat) : Nat → List Char → Except Stop (Term × List Char)
  | 0, s =>
    match skipSpace s with
    | '[' :: s => do return (.broken .tooDeep, ← skip fuel ('[' :: s))
    | '{' :: s => do return (.broken .tooDeep, ← skip fuel ('{' :: s))
    | s => scalar s
  | depth + 1, s =>
    match skipSpace s with
    | '[' :: s => items (value fuel depth) fuel [] s
    | '{' :: s => members (value fuel depth) fuel [] s
    | s => scalar s

/-- Reads a whole text as one value, with space around it. -/
def read (s : List Char) : Except Stop Term := do
  let (t, rest) ← value (s.length + 1) maxDepth s
  finish rest
  return t

end Term

end LsxKit.Json
