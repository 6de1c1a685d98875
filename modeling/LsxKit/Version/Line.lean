import LsxKit.Text.Word
import LsxKit.Version

/-!
# Versions in descriptor lines

A descriptor keeps the version of its mod in an element of the form
`<attribute id="Version64" type="int64" value="…"/>`.

* `Version.inLine?`: the version in a line of a descriptor.
-/

namespace LsxKit.Version

/-- `s` without the word at its beginning. -/
def dropExact? : List Char → List Char → Option (List Char)
  | [], s => some s
  | _ :: _, [] => none
  | w :: ws, c :: s => if w = c then dropExact? ws s else none

/-- `s` without the blanks at its beginning, of which there is at least one. -/
def dropBlanks? (s : List Char) : Option (List Char) :=
  match s with
  | c :: _ => if Text.isBlank c then some (s.dropWhile Text.isBlank) else none
  | [] => none

/-- The digits of the value, if the text begins with the element. -/
def elementDigits? (s : List Char) : Option (List Char) := do
  let s ← dropExact? "<attribute".toList s
  let s ← dropExact? "id=\"Version64\"".toList (← dropBlanks? s)
  let s ← dropExact? "type=\"int64\"".toList (← dropBlanks? s)
  let s ← dropExact? "value=\"".toList (← dropBlanks? s)
  let digits := s.takeWhile Text.isDigit
  if digits.isEmpty then none
  let s ← dropExact? ['"'] (s.dropWhile Text.isDigit)
  let _ ← dropExact? ['/', '>'] (s.dropWhile Text.isBlank)
  return digits

/-- The digits of the first element in a text. -/
def firstDigits? : List Char → Option (List Char)
  | [] => none
  | c :: s => (elementDigits? (c :: s)).or (firstDigits? s)

/-- The version in a line of a descriptor, if the line has the element and its value is a
packed version. -/
def inLine? (line : String) : Option Version := do
  let digits ← firstDigits? line.toList
  return unpack (← packed? digits)

end LsxKit.Version
