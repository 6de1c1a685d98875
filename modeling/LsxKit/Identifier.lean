import LsxKit.Error
import LsxKit.Text.Blank

/-!
# Identifiers and handles

A mod is identified by a UUID: groups of 8, 4, 4, 4 and 12 hexadecimal digits joined by hyphens.
A localization handle is the letter `h` and a UUID with `g` in place of its hyphens. The digits
keep their case both ways.

* `toHandle`, `fromHandle`: the handle of a UUID and back.
* `uuidOfBits`: the random UUID with given bits.
-/

namespace LsxKit.Identifier

/-- Whether a character is a hexadecimal digit of either case. -/
def isHexDigit (c : Char) : Bool :=
  c.isDigit || ('a' ≤ c && c ≤ 'f') || ('A' ≤ c && c ≤ 'F')

/-- The sizes of the groups of a UUID. -/
def groupSizes : List Nat := [8, 4, 4, 4, 12]

/-- Whether a text is groups of hexadecimal digits of the given sizes, one separator between
each and the next. -/
def isGrouped (separator : Char → Bool) : List Nat → List Char → Bool
  | [], s => s.isEmpty
  | [n], s => s.length == n && s.all isHexDigit
  | n :: ns, s =>
    n < s.length && (s.take n).all isHexDigit &&
      match s.drop n with
      | c :: rest => separator c && isGrouped separator ns rest
      | [] => false

/-- Whether a text is a UUID. -/
def isUuid (s : List Char) : Bool := isGrouped (· == '-') groupSizes s

/-- Whether a text is a handle without its first letter. -/
def isHandleTail (s : List Char) : Bool := isGrouped (fun c => c == 'g' || c == 'G') groupSizes s

/-- The handle of a UUID, blanks around it ignored. -/
def toHandle (uuid : String) : Except Error String :=
  let s := Text.trimBy Text.isBlank uuid.toList
  if isUuid s then
    .ok (String.ofList ('h' :: s.map fun c => if c = '-' then 'g' else c))
  else .error (.uuid (String.ofList s))

/-- The UUID of a handle, blanks around it and the case of its letters ignored. -/
def fromHandle (handle : String) : Except Error String :=
  let s := Text.trimBy Text.isBlank handle.toList
  let invalid := Except.error (Error.handle (String.ofList s))
  match s with
  | c :: tail =>
    if (c = 'h' ∨ c = 'H') ∧ isHandleTail tail then
      .ok (String.ofList (tail.map fun c => if c = 'g' ∨ c = 'G' then '-' else c))
    else invalid
  | [] => invalid

/-- The random UUID with the given 128 bits, six of which are fixed: those of its version,
four, and of its variant. -/
def uuidOfBits (bits : Nat) : String :=
  let digit (i : Nat) : Char :=
    let d := bits >>> (4 * i) % 16
    (if i = 12 then 4 else if i = 16 then 8 + d % 4 else d).digitChar
  let group (first size : Nat) : List Char := (List.range' first size).map digit
  String.ofList <|
    group 0 8 ++ '-' :: group 8 4 ++ '-' :: group 12 4 ++ '-' :: group 16 4 ++ '-' :: group 20 12

/-- The random handle with the given bits. -/
def handleOfBits (bits : Nat) : String :=
  String.ofList ('h' :: (uuidOfBits bits).toList.map fun c => if c = '-' then 'g' else c)

end LsxKit.Identifier
