import LsxKit.Json.Fault
import LsxKit.Json.Numeral

/-!
# The parts of a JSON text

Reading spaces, words, strings and numbers off the front of a text, and passing over a value that
nobody asks for. What is passed over must have the form of JSON, but need not stand for anything:
a number may be too large, a string may hold half of a pair of units, and brackets may nest at
will.

* `Scan.string`: the characters of a string.
* `Scan.numeral`, `Scan.number`: a number as written, and what it stands for.
* `Scan.nextElement`, `Scan.nextKey`: what comes next in a list and in an object.
* `Scan.skip`: passes over a value.
-/

namespace LsxKit.Json.Scan

/-- Stops in front of a text. -/
def stop {α : Type} (cause : Cause) (rest : List Char) : Except Stop α := .error ⟨cause, rest, 0⟩

/-- Stops after the first byte of a text, if it has one. -/
def stopAhead {α : Type} (cause : Cause) (rest : List Char) : Except Stop α :=
  .error ⟨cause, rest, 1⟩

/-- The four characters that may stand between values. -/
def isSpace (c : Char) : Bool := c == ' ' || c == '\n' || c == '\t' || c == '\r'

/-- The text without the space at its beginning. -/
def skipSpace (s : List Char) : List Char := s.dropWhile isSpace

/-- Reads the rest of a word. -/
def word : List Char → List Char → Except Stop (List Char)
  | [], s => .ok s
  | _ :: _, [] => stop .endInValue []
  | w :: ws, c :: s => if w = c then word ws s else stopAhead .expectedWord (c :: s)

/-! ## Strings -/

/-- The value of a hexadecimal digit. -/
def hexDigit? (c : Char) : Option Nat :=
  if '0' ≤ c ∧ c ≤ '9' then some (c.toNat - '0'.toNat)
  else if 'a' ≤ c ∧ c ≤ 'f' then some (c.toNat - 'a'.toNat + 10)
  else if 'A' ≤ c ∧ c ≤ 'F' then some (c.toNat - 'A'.toNat + 10)
  else none

/-- The unit of sixteen bits that four hexadecimal digits stand for. -/
def unit? (a b c d : Char) : Option Nat := do
  return (← hexDigit? a) * 4096 + (← hexDigit? b) * 256 + (← hexDigit? c) * 16 + (← hexDigit? d)

/-- Stops where four hexadecimal digits should stand: they take four bytes. -/
def stopAtUnit {α : Type} (s : List Char) : Except Stop α :=
  if Text.size (s.take 4) < 4 then stop .endInString [] else .error ⟨.invalidEscape, s, 4⟩

/-- Whether a unit is the first one of a pair. -/
def isLeading (n : Nat) : Bool := 0xD800 ≤ n && n ≤ 0xDBFF

/-- Whether a unit is the second one of a pair. -/
def isTrailing (n : Nat) : Bool := 0xDC00 ≤ n && n ≤ 0xDFFF

/-- The character of a pair of units. -/
def paired (n m : Nat) : Char := Char.ofNat (0x10000 + (n - 0xD800) * 0x400 + (m - 0xDC00))

/-- The character that a short escape stands for. -/
def escaped? : Char → Option Char
  | '"' => some '"'
  | '\\' => some '\\'
  | '/' => some '/'
  | 'b' => some '\x08'
  | 'f' => some '\x0c'
  | 'n' => some '\n'
  | 'r' => some '\r'
  | 't' => some '\t'
  | _ => none

/-- Reads a string up to its closing quote, after the characters `read` (the last one first). A
unit that is the first one of a pair must be followed by the second one. -/
def stringFrom (read : List Char) : List Char → Except Stop (String × List Char)
  | [] => stop .endInString []
  | '"' :: s => .ok (String.ofList read.reverse, s)
  | '\\' :: 'u' :: a :: b :: c :: d :: s =>
    match unit? a b c d with
    | none => stopAtUnit (a :: b :: c :: d :: s)
    | some n =>
      if isTrailing n then stop .loneSurrogate s
      else if !isLeading n then stringFrom (Char.ofNat n :: read) s
      else
        match s with
        | '\\' :: 'u' :: a :: b :: c :: d :: s =>
          match unit? a b c d with
          | none => stopAtUnit (a :: b :: c :: d :: s)
          | some m =>
            if isTrailing m then stringFrom (paired n m :: read) s else stop .loneSurrogate s
        | '\\' :: 'u' :: s => stopAtUnit s
        | ['\\'] => stop .endInString []
        | '\\' :: s => stopAhead .endInEscape s
        | [] => stop .endInString []
        | s => stopAhead .endInEscape s
  | '\\' :: 'u' :: s => stopAtUnit s
  | '\\' :: e :: s =>
    match escaped? e with
    | some c => stringFrom (c :: read) s
    | none => stopAhead .invalidEscape (e :: s)
  | ['\\'] => stop .endInString []
  | c :: s => if c < ' ' then stopAhead .controlCharacter (c :: s) else stringFrom (c :: read) s

/-- Reads a string after its opening quote. -/
def string (s : List Char) : Except Stop (String × List Char) := stringFrom [] s

/-- Passes over a string after its opening quote. -/
def skipString : List Char → Except Stop (List Char)
  | [] => stop .endInString []
  | '"' :: s => .ok s
  | '\\' :: 'u' :: a :: b :: c :: d :: s =>
    if (unit? a b c d).isSome then skipString s else stopAtUnit (a :: b :: c :: d :: s)
  | '\\' :: 'u' :: s => stopAtUnit s
  | '\\' :: e :: s =>
    if (escaped? e).isSome then skipString s else stopAhead .invalidEscape (e :: s)
  | ['\\'] => stop .endInString []
  | c :: s => if c < ' ' then stop .controlCharacter (c :: s) else skipString s

/-! ## Numbers -/

/-- Whether a number begins with a character. -/
def startsNumber (c : Char) : Bool := c == '-' || c.isDigit

/-- Reads the digits before the point; a zero stands alone. -/
def whole : List Char → Except Stop (List Char × List Char)
  | [] => stop .endInValue []
  | '0' :: s =>
    if s.head?.any Char.isDigit then stopAhead .invalidNumber s else .ok (['0'], s)
  | c :: s =>
    if c.isDigit then .ok (c :: s.takeWhile Char.isDigit, s.dropWhile Char.isDigit)
    else stopAhead .invalidNumber (c :: s)

/-- Reads the point and the digits after it, if there is a point. -/
def fraction : List Char → Except Stop (Option (List Char) × List Char)
  | '.' :: s =>
    match s.takeWhile Char.isDigit, s with
    | [], [] => stop .endInValue []
    | [], s => stopAhead .invalidNumber s
    | digits, s => .ok (some digits, s.dropWhile Char.isDigit)
  | s => .ok (none, s)

/-- Reads the sign and the digits of an exponent after its mark. -/
def exponentDigits (s : List Char) : Except Stop ((Bool × List Char) × List Char) :=
  let (down, digits) := match s with
    | '+' :: s => (false, s)
    | '-' :: s => (true, s)
    | s => (false, s)
  match digits with
  | [] => stop .endInValue []
  | c :: s =>
    if c.isDigit then .ok ((down, c :: s.takeWhile Char.isDigit), s.dropWhile Char.isDigit)
    else stopAhead .invalidNumber (c :: s)

/-- Reads an exponent, if there is one. -/
def exponent : List Char → Except Stop ((Option (Bool × List Char)) × List Char)
  | c :: s =>
    if c = 'e' ∨ c = 'E' then do
      let (e, rest) ← exponentDigits s
      return (some e, rest)
    else .ok (none, c :: s)
  | [] => .ok (none, [])

/-- Reads a number after its sign. -/
def unsigned (negative : Bool) (s : List Char) : Except Stop (Numeral × List Char) := do
  let (w, s) ← whole s
  let (f, s) ← fraction s
  let (e, s) ← exponent s
  return (⟨negative, w, f, e⟩, s)

/-- Reads a number. -/
def numeral : List Char → Except Stop (Numeral × List Char)
  | '-' :: s => unsigned true s
  | s => unsigned false s

/-- Reads a number and what it stands for. An exponent that is too large is refused at the digit
that makes it so. -/
def number (s : List Char) : Except Stop (Number × List Char) := do
  let (n, rest) ← numeral s
  match n.toNumber? with
  | some x => return (x, rest)
  | none => stop .numberTooLarge (n.excess.tail ++ rest)

/-- Passes over a number; a number that breaks off is no number. -/
def skipNumber (s : List Char) : Except Stop (List Char) :=
  match numeral s with
  | .ok (_, rest) => .ok rest
  | .error stop => .error { stop with cause := .invalidNumber }

/-! ## Lists and objects -/

/-- Reads up to the next element of a list, or its end: whether there is an element. `first` tells
that none was read yet. -/
def nextElement (first : Bool) (s : List Char) : Except Stop (Bool × List Char) :=
  match first, skipSpace s with
  | _, [] => stop .endInList []
  | _, ']' :: s => .ok (false, s)
  | true, s => .ok (true, s)
  | false, ',' :: s =>
    match skipSpace s with
    | [] => stop .endInValue []
    | ']' :: s => stopAhead .trailingComma (']' :: s)
    | s => .ok (true, s)
  | false, s => stopAhead .expectedListEnd s

/-- Reads up to the opening quote of the next key of an object, or its end: whether there is a
key. `first` tells that none was read yet. -/
def nextKey (first : Bool) (s : List Char) : Except Stop (Bool × List Char) :=
  match first, skipSpace s with
  | _, [] => stop .endInObject []
  | _, '}' :: s => .ok (false, s)
  | true, '"' :: s => .ok (true, s)
  | true, s => stopAhead .keyNotString s
  | false, ',' :: s =>
    match skipSpace s with
    | [] => stop .endInValue []
    | '"' :: s => .ok (true, s)
    | '}' :: s => stopAhead .trailingComma ('}' :: s)
    | s => stopAhead .keyNotString s
  | false, s => stopAhead .expectedObjectEnd s

/-- Reads the colon after a key. -/
def colon (s : List Char) : Except Stop (List Char) :=
  match skipSpace s with
  | [] => stop .endInObject []
  | ':' :: s => .ok s
  | s => stopAhead .expectedColon s

/-! ## Passing over a value -/

/-- A bracket that is open. -/
inductive Bracket where
  | list
  | object
  deriving Repr, DecidableEq

namespace Bracket

/-- The character that ends what an open bracket begins. -/
def close : Bracket → Char
  | .list => ']'
  | .object => '}'

/-- The fault of a text that ends inside. -/
def atEnd : Bracket → Cause
  | .list => .endInList
  | .object => .endInObject

/-- The fault of a text that goes on with neither a comma nor the end. -/
def expected : Bracket → Cause
  | .list => .expectedListEnd
  | .object => .expectedObjectEnd

end Bracket

/-- Passes over what follows a value: the ends of brackets and the comma before the next value.
The brackets that are still open, the innermost first. -/
def skipEnds : List Bracket → List Char → Except Stop (List Bracket × List Char)
  | [], s => .ok ([], s)
  | b :: opened, s =>
    match skipSpace s with
    | [] => stop b.atEnd []
    | c :: s =>
      if c = ',' then .ok (b :: opened, s)
      else if c = b.close then skipEnds opened s
      else stopAhead b.expected (c :: s)

/-- Passes over an opening bracket, and over its end if it follows at once. -/
def skipOpening (b : Bracket) (opened : List Bracket) (s : List Char) :
    Except Stop (List Bracket × List Char) :=
  match skipSpace s with
  | [] => stop b.atEnd []
  | c :: s => if c = b.close then skipEnds opened s else .ok (b :: opened, c :: s)

/-- Passes over a scalar or an opening bracket, and over what follows it up to the next value. -/
def skipToValue (opened : List Bracket) (s : List Char) :
    Except Stop (List Bracket × List Char) :=
  match skipSpace s with
  | [] => stop .endInValue []
  | '[' :: s => skipOpening .list opened s
  | '{' :: s => skipOpening .object opened s
  | '"' :: s => do skipEnds opened (← skipString s)
  | 'n' :: s => do skipEnds opened (← word ['u', 'l', 'l'] s)
  | 't' :: s => do skipEnds opened (← word ['r', 'u', 'e'] s)
  | 'f' :: s => do skipEnds opened (← word ['a', 'l', 's', 'e'] s)
  | c :: s =>
    if startsNumber c then do skipEnds opened (← skipNumber (c :: s))
    else stopAhead .expectedValue (c :: s)

/-- Passes over a key and its colon. -/
def skipKey (s : List Char) : Except Stop (List Char) :=
  match skipSpace s with
  | [] => stop .endInObject []
  | '"' :: s => do colon (← skipString s)
  | s => stopAhead .keyNotString s

/-- Passes over values until all brackets are closed. Each step takes a character, so the length of
the text is fuel enough. -/
def skipFrom : Nat → List Bracket → List Char → Except Stop (List Char)
  | 0, _, s => stop .endInValue s
  | fuel + 1, opened, s => do
    let (opened, s) ← skipToValue opened s
    match opened with
    | [] => return s
    | .list :: _ => skipFrom fuel opened s
    | .object :: _ => skipFrom fuel opened (← skipKey s)

/-- Passes over a value; the length of the text is `fuel` enough. -/
def skip (fuel : Nat) (s : List Char) : Except Stop (List Char) := skipFrom (fuel + 1) [] s

/-- Nothing but space may follow. -/
def finish (s : List Char) : Except Stop Unit :=
  match skipSpace s with
  | [] => .ok ()
  | s => stopAhead .trailingCharacters s

end LsxKit.Json.Scan
