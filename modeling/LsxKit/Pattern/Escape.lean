import LsxKit.CharSet.Fold
import LsxKit.CharSet.Named
import LsxKit.Pattern.Basic
import LsxKit.Text.Blank

/-!
# Escapes in patterns

What a backslash and the characters after it write: a character, a set or a place. The flags that
hold there decide which.

* `Flags.fold`: a set under the flag that case does not matter.
* `Flags.skip`: the blanks and comments that a flag permits between the parts of a pattern.
* `escape?`: what follows a backslash.
* `escaped`: a text written as the pattern of itself.
-/

namespace LsxKit.Pattern

/-- What the flags of a group change. -/
structure Flags where
  /-- Whether case does not matter. -/
  ignoreCase : Bool
  /-- Whether `^` and `$` hold at every line. -/
  everyLine : Bool
  /-- Whether `.` includes the end of a line. -/
  dotAll : Bool
  /-- Whether repetitions prefer few pieces unless they are marked. -/
  swapGreed : Bool
  /-- Whether characters outside ASCII are known to sets and places. -/
  unicode : Bool
  /-- Whether a carriage return ends lines too. -/
  anyLineEnd : Bool
  /-- Whether blanks and comments stand for nothing. -/
  spaced : Bool
  deriving Repr

namespace Flags

/-- The flags at the beginning. -/
def initial : Flags := ⟨false, false, false, false, true, false, false⟩

/-- The characters of ASCII. -/
def ascii : CharSet := .range '\x00' '\x7f'

/-- A set with the other cases of its characters, if case does not matter. -/
def fold (f : Flags) (s : CharSet) : CharSet :=
  if f.ignoreCase then
    if f.unicode then s.folded else s.folded.inter ascii
  else s

/-- The complement of a set if `negated`. Outside ASCII a set holds for characters only if they
are known. -/
def negate? (f : Flags) (negated : Bool) (s : CharSet) : Option CharSet :=
  let s := if negated then s.compl else s
  if f.unicode || s.isAscii then some s else none

/-- The text after blanks and comments, or, in a comment, after its line. -/
def dropSpace : Bool → List Char → List Char
  | _, [] => []
  | true, c :: s => dropSpace (c ≠ '\n') s
  | false, c :: s =>
    if Text.isBlank c then dropSpace false s
    else if c = '#' then dropSpace true s
    else c :: s

/-- The text after blanks and comments, if they stand for nothing. -/
def skip (f : Flags) (s : List Char) : List Char := if f.spaced then dropSpace false s else s

/-- The longest beginning of a text of characters of a class, without what may be skipped, and the
rest; at first `commented` tells whether the text begins in a comment. -/
def spanFrom (f : Flags) (p : Char → Bool) : Bool → List Char → List Char × List Char
  | _, [] => ([], [])
  | true, c :: s => spanFrom f p (c ≠ '\n') s
  | false, c :: s =>
    if f.spaced && Text.isBlank c then spanFrom f p false s
    else if f.spaced && c = '#' then spanFrom f p true s
    else if p c then
      let (cs, rest) := spanFrom f p false s
      (c :: cs, rest)
    else ([], c :: s)

/-- The longest beginning of a text of characters of a class, without what may be skipped, and the
rest. -/
def span (f : Flags) (p : Char → Bool) (s : List Char) : List Char × List Char :=
  spanFrom f p false s

end Flags

/-- What an escape or a character writes. -/
inductive Atom where
  | literal (c : Char)
  | set (s : CharSet)
  | boundary (b : Boundary)

/-! ## Characters by their codes -/

/-- The value of a hexadecimal digit. -/
def hexDigit? (c : Char) : Option Nat :=
  if c.isDigit then some (c.toNat - '0'.toNat)
  else if 'a' ≤ c ∧ c ≤ 'f' then some (c.toNat - 'a'.toNat + 10)
  else if 'A' ≤ c ∧ c ≤ 'F' then some (c.toNat - 'A'.toNat + 10)
  else none

/-- The character whose code hexadecimal digits write. -/
def hexChar? (digits : List Char) : Option Char := do
  let n ← digits.foldlM (fun n c => return 16 * n + (← hexDigit? c)) 0
  if n.isValidChar then some (Char.ofNat n) else none

/-- Reads a number of hexadecimal digits. -/
def takeHex? (f : Flags) : Nat → List Char → Option (List Char × List Char)
  | 0, s => some ([], s)
  | _, [] => none
  | count + 1, c :: s =>
    if (hexDigit? c).isSome then do
      let (digits, rest) ← takeHex? f count (f.skip s)
      return (c :: digits, rest)
    else none

/-- Reads the code of a character, in braces or of `width` digits. Two digits write a byte where
only ASCII is known. -/
def codeEscape? (f : Flags) (width : Nat) (s : List Char) : Option (Char × List Char) :=
  match f.skip s with
  | '{' :: s =>
    match f.span (fun c => (hexDigit? c).isSome) (f.skip s) with
    | ([], _) => none
    | (digits, '}' :: rest) => do return (← hexChar? digits, rest)
    | _ => none
  | s => do
    let (digits, rest) ← takeHex? f width s
    let c ← hexChar? digits
    if !f.unicode && width = 2 && 0x80 ≤ c.toNat then none else return (c, rest)

/-! ## Sets -/

/-- The characters with the property `White_Space`. -/
def blanks : CharSet := .listed "whitespace"

/-- The blanks of ASCII. -/
def asciiBlanks : CharSet := (CharSet.range '\t' '\r').union (.single ' ')

/-- The letters, the digits and the underscore of ASCII. -/
def asciiWords : CharSet :=
  .unions [.range '0' '9', .range 'A' 'Z', .single '_', .range 'a' 'z']

/-- The set that a letter after a backslash writes. -/
def letterSet (f : Flags) (c : Char) : CharSet :=
  if c = 'd' then
    if f.unicode then Text.digits else .range '0' '9'
  else if c = 's' then
    if f.unicode then blanks else asciiBlanks
  else
    if f.unicode then Text.wordCharacters else asciiWords

/-- The text before a word in another and the text after it. -/
def cutAt? (word : List Char) : List Char → Option (List Char × List Char)
  | [] => none
  | c :: s =>
    if word.isPrefixOf (c :: s) then some ([], (c :: s).drop word.length)
    else (cutAt? word s).map fun (before, after) => (c :: before, after)

/-- The set that the text in the braces of a property writes: a name, or a property and its
value. -/
def propertySet? (text : List Char) : Option CharSet :=
  match cutAt? ['!', '='] text <|> cutAt? [':'] text <|> cutAt? ['='] text with
  | some (property, value) => CharSet.withValue? property value
  | none => CharSet.named? text

/-- Reads a property, one letter or a name in braces. -/
def property? (f : Flags) (negated : Bool) (s : List Char) : Option (CharSet × List Char) := do
  guard f.unicode
  let (named, rest) ←
    match f.skip s with
    | '{' :: s =>
      match f.span (fun c => c ≠ '}') (f.skip s) with
      | (text, _ :: rest) => (propertySet? text).map (·, rest)
      | (_, []) => none
    | c :: s => (CharSet.named? [c]).map (·, f.skip s)
    | [] => none
  return (← f.negate? negated (f.fold named), rest)

/-! ## Places -/

/-- A place at a word under the flags. -/
def Flags.word (f : Flags) (place : WordPlace) : Boundary :=
  if f.unicode then .word place else .asciiWord place

/-- Reads what follows `\b`: nothing or a kind of place in braces. A brace before anything but a
letter or a hyphen is left to a repetition. -/
def wordPlace? (f : Flags) (s : List Char) : Option (WordPlace × List Char) :=
  let isNamed (c : Char) : Bool := c.isAlpha || c = '-'
  match s with
  | '{' :: rest =>
    match f.skip rest with
    | [] => none
    | c :: rest =>
      if isNamed c then
        match f.span isNamed (c :: rest) with
        | (name, '}' :: rest) =>
          match String.ofList name with
          | "start" => some (.start, rest)
          | "end" => some (.stop, rest)
          | "start-half" => some (.startHalf, rest)
          | "end-half" => some (.stopHalf, rest)
          | _ => none
        | _ => none
      else some (.edge, s)
  | _ => some (.edge, s)

/-! ## Escapes -/

/-- Whether a character may be escaped to stand for itself. -/
def isEscapable (c : Char) : Bool :=
  c.toNat < 0x80 && !c.isAlphanum && c ≠ '<' && c ≠ '>'

/-- Reads what follows a backslash. -/
def escape? (f : Flags) : List Char → Option (Atom × List Char)
  | [] => none
  | c :: s =>
    match c with
    | 'd' | 's' | 'w' => some (.set (letterSet f c), s)
    | 'D' | 'S' | 'W' => do return (.set (← f.negate? true (letterSet f c.toLower)), s)
    | 'p' => (property? f false s).map fun (named, s) => (.set named, s)
    | 'P' => (property? f true s).map fun (named, s) => (.set named, s)
    | 'b' => (wordPlace? f s).map fun (place, s) => (.boundary (f.word place), s)
    | 'B' => some (.boundary (f.word .noEdge), s)
    | '<' => some (.boundary (f.word .start), s)
    | '>' => some (.boundary (f.word .stop), s)
    | 'A' => some (.boundary .textStart, s)
    | 'z' => some (.boundary .textEnd, s)
    | 'x' => (codeEscape? f 2 s).map fun (c, s) => (.literal c, s)
    | 'u' => (codeEscape? f 4 s).map fun (c, s) => (.literal c, s)
    | 'U' => (codeEscape? f 8 s).map fun (c, s) => (.literal c, s)
    | 'n' => some (.literal '\n', s)
    | 't' => some (.literal '\t', s)
    | 'r' => some (.literal '\r', s)
    | 'a' => some (.literal '\x07', s)
    | 'f' => some (.literal '\x0c', s)
    | 'v' => some (.literal '\x0b', s)
    | c => if isEscapable c then some (.literal c, s) else none

/-! ## Texts as patterns -/

/-- Whether a character means something else than itself in a pattern, in a class of characters
or where blanks stand for nothing. -/
def isMeta (c : Char) : Bool :=
  c ∈ ['\\', '.', '+', '*', '?', '(', ')', '|', '[', ']', '{', '}', '^', '$', '#', '&', '-', '~']

/-- The pattern of a text: a backslash before every character that means something else. -/
def escaped (s : String) : String :=
  String.ofList (s.toList.flatMap fun c => if isMeta c then ['\\', c] else [c])

end LsxKit.Pattern
