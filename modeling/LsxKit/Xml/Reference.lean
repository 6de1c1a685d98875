import LsxKit.Text.Digits
import LsxKit.Xml.Token

/-!
# References

The five named entities and the character references, in attribute values and in text.

* `unescape`: a text with its references resolved, or the first that cannot be.
* `escape`: a text in which the five characters with a name are written by it.
* `unescape_escape`: what was escaped reads back.
-/

namespace LsxKit.Xml

namespace Reference

/-- The character that a named entity stands for. -/
def named? (name : List Char) : Option Char :=
  if name = ['l', 't'] then some '<'
  else if name = ['g', 't'] then some '>'
  else if name = ['a', 'm', 'p'] then some '&'
  else if name = ['a', 'p', 'o', 's'] then some '\''
  else if name = ['q', 'u', 'o', 't'] then some '"'
  else none

/-- The value of a digit below sixteen. -/
def digit? (c : Char) : Option Nat :=
  if '0' ≤ c ∧ c ≤ '9' then some (c.toNat - '0'.toNat)
  else if 'a' ≤ c ∧ c ≤ 'f' then some (c.toNat - 'a'.toNat + 10)
  else if 'A' ≤ c ∧ c ≤ 'F' then some (c.toNat - 'A'.toNat + 10)
  else none

/-- The number that digits of a base spell, after the number `n`; or the first character that is
no digit. -/
def number (base : Nat) (n : Nat) : List Char → Except Char Nat
  | [] => .ok n
  | c :: cs =>
    match digit? c with
    | some d => if d < base then number base (base * n + d) cs else .error (leadByte c)
    | none => .error (leadByte c)

/-- The code of a character reference, from what follows the number sign. -/
def code : List Char → Except ReferenceFault Nat
  | 'x' :: digits =>
    if 6 < Text.size digits then .error .hexadecimalTooLong
    else (number 16 0 digits).mapError .notHexadecimal
  | digits =>
    if 7 < Text.size digits then .error .decimalTooLong
    else (number 10 0 digits).mapError .notDecimal

/-- The character that a reference stands for; `start` and `stop` are the offsets of its
ampersand and its semicolon. -/
def resolve (start stop : Nat) (name : List Char) : Except ReferenceFault Char :=
  match name with
  | '#' :: digits => do
    let n ← code digits
    if n = 0 then .error (.zero start stop)
    else if n.isValidChar then .ok (Char.ofNat n)
    else .error (.notScalar n)
  | name =>
    match named? name with
    | some c => .ok c
    | none => .error (.unknown (start + 1) stop (String.ofList name))

/-- Resolves the references of `cs`, which begins at the byte `offset` of a text, after the
characters `done` (the last one first). `opened` is what was read of a reference after its
ampersand, the last character first. -/
def resolveFrom (done : List Char) (offset : Nat) :
    Option (List Char) → List Char → Except ReferenceFault (List Char)
  | none, [] => .ok done.reverse
  | none, c :: cs =>
    if c = '&' then resolveFrom done (offset + 1) (some []) cs
    else resolveFrom (c :: done) (offset + c.utf8Size) none cs
  | some name, [] => .error (.unterminated (offset - Text.size name - 1) offset)
  | some name, c :: cs =>
    if c = ';' then
      match resolve (offset - Text.size name - 1) offset name.reverse with
      | .ok c' => resolveFrom (c' :: done) (offset + 1) none cs
      | .error fault => .error fault
    else if c = '&' then
      .error (.unterminated (offset - Text.size name - 1) (offset + Text.size (c :: cs)))
    else resolveFrom done (offset + c.utf8Size) (some (c :: name)) cs

/-- A character as it is written in values and text. -/
def escapeChar (c : Char) : List Char :=
  match c with
  | '<' => ['&', 'l', 't', ';']
  | '>' => ['&', 'g', 't', ';']
  | '&' => ['&', 'a', 'm', 'p', ';']
  | '\'' => ['&', 'a', 'p', 'o', 's', ';']
  | '"' => ['&', 'q', 'u', 'o', 't', ';']
  | c => [c]

end Reference

/-- A text with its references resolved. -/
def unescape (cs : List Char) : Except ReferenceFault (List Char) :=
  Reference.resolveFrom [] 0 none cs

/-- A text in which the five characters with a name are written by it. -/
def escape (cs : List Char) : List Char := cs.flatMap Reference.escapeChar

namespace Reference

theorem resolveFrom_escapeChar (done : List Char) (offset : Nat) (c : Char) (cs : List Char) :
    resolveFrom done offset none (escapeChar c ++ cs) =
      resolveFrom (c :: done) (offset + Text.size (escapeChar c)) none cs := by
  unfold escapeChar
  split <;> simp_all [resolveFrom, resolve, named?, Char.utf8Size, Nat.add_assoc]

theorem resolveFrom_escape (done : List Char) (offset : Nat) (cs rest : List Char) :
    resolveFrom done offset none (escape cs ++ rest) =
      resolveFrom (cs.reverse ++ done) (offset + Text.size (escape cs)) none rest := by
  induction cs generalizing done offset with
  | nil => simp [escape]
  | cons c cs ih =>
    simp only [escape, List.flatMap_cons, List.append_assoc] at ih ⊢
    rw [resolveFrom_escapeChar, ih]
    simp [Nat.add_assoc]

end Reference

/-- What was escaped reads back. -/
theorem unescape_escape (cs : List Char) : unescape (escape cs) = .ok cs := by
  have := Reference.resolveFrom_escape [] 0 cs []
  simpa [unescape, Reference.resolveFrom] using this

end LsxKit.Xml
