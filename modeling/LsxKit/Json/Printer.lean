import LsxKit.Json.Value
import LsxKit.Decimal.Layout

/-!
# Writing JSON

* `floatLayout`: how binary64 values are written.
* `Value.compact`: a value without any space.
* `Value.pretty`: a value with two spaces for each level, one member or element to a line.
-/

namespace LsxKit.Json

open Decimal

/-- Values from `10 ^ -5` to below `10 ^ 16` are written positionally, with a digit after the
point; of two equally near decimals the one with the even last digit is written. -/
def floatLayout : Layout where
  tie := .even
  positional := fun point => -5 < point ∧ point ≤ 16
  pointZero := true

/-- The text of a number. -/
def Number.render : Number → List Char
  | .int i => (toString i).toList
  | .float x => (floatLayout.render x).toList

/-- A character inside quotes. Only the quote, the backslash and the controls are escaped. -/
def escape (c : Char) : List Char :=
  match c with
  | '"' => ['\\', '"']
  | '\\' => ['\\', '\\']
  | '\x08' => ['\\', 'b']
  | '\x0c' => ['\\', 'f']
  | '\n' => ['\\', 'n']
  | '\r' => ['\\', 'r']
  | '\t' => ['\\', 't']
  | c =>
    if c < ' ' then
      ['\\', 'u', '0', '0', (c.toNat / 16).digitChar, (c.toNat % 16).digitChar]
    else [c]

/-- A string between quotes, in front of a text. -/
def quote (s : String) (rest : List Char) : List Char :=
  '"' :: (s.toList.flatMap escape ++ '"' :: rest)

namespace Value

mutual

/-- A value without any space, in front of a text. -/
def compactOnto (rest : List Char) : Value → List Char
  | .null => 'n' :: 'u' :: 'l' :: 'l' :: rest
  | .bool true => 't' :: 'r' :: 'u' :: 'e' :: rest
  | .bool false => 'f' :: 'a' :: 'l' :: 's' :: 'e' :: rest
  | .number n => n.render ++ rest
  | .string s => quote s rest
  | .array xs => '[' :: compactItems (']' :: rest) xs
  | .object ms => '{' :: compactMembers ('}' :: rest) ms
  termination_by structural v => v

/-- Elements with commas between them, in front of a text. -/
def compactItems (rest : List Char) : List Value → List Char
  | [] => rest
  | [v] => compactOnto rest v
  | v :: vs => compactOnto (',' :: compactItems rest vs) v
  termination_by structural vs => vs

/-- Members with commas between them, in front of a text. -/
def compactMembers (rest : List Char) : List (String × Value) → List Char
  | [] => rest
  | [(k, v)] => quote k (':' :: compactOnto rest v)
  | (k, v) :: ms => quote k (':' :: compactOnto (',' :: compactMembers rest ms) v)
  termination_by structural ms => ms

end

/-- A value without any space. -/
def compact (v : Value) : String := String.ofList (v.compactOnto [])

/-- The beginning of a line at a level, in front of a text. -/
def newLine (level : Nat) (rest : List Char) : List Char :=
  '\n' :: (List.replicate (2 * level) ' ' ++ rest)

mutual

/-- A value whose inner lines are indented by `level + 1` levels, in front of a text. -/
def prettyOnto (level : Nat) (rest : List Char) : Value → List Char
  | .array [] => '[' :: ']' :: rest
  | .array (x :: xs) => '[' :: prettyItems (level + 1) (newLine level (']' :: rest)) (x :: xs)
  | .object [] => '{' :: '}' :: rest
  | .object (m :: ms) => '{' :: prettyMembers (level + 1) (newLine level ('}' :: rest)) (m :: ms)
  | .null => 'n' :: 'u' :: 'l' :: 'l' :: rest
  | .bool true => 't' :: 'r' :: 'u' :: 'e' :: rest
  | .bool false => 'f' :: 'a' :: 'l' :: 's' :: 'e' :: rest
  | .number n => n.render ++ rest
  | .string s => quote s rest
  termination_by structural v => v

/-- Elements, each on a line of its own, in front of a text. -/
def prettyItems (level : Nat) (rest : List Char) : List Value → List Char
  | [] => rest
  | [v] => newLine level (prettyOnto level rest v)
  | v :: vs => newLine level (prettyOnto level (',' :: prettyItems level rest vs) v)
  termination_by structural vs => vs

/-- Members, each on a line of its own, in front of a text. -/
def prettyMembers (level : Nat) (rest : List Char) : List (String × Value) → List Char
  | [] => rest
  | [(k, v)] => newLine level (quote k (':' :: ' ' :: prettyOnto level rest v))
  | (k, v) :: ms =>
    newLine level
      (quote k (':' :: ' ' :: prettyOnto level (',' :: prettyMembers level rest ms) v))
  termination_by structural ms => ms

end

/-- A value with line breaks and indentation. -/
def pretty (v : Value) : String := String.ofList (v.prettyOnto 0 [])

end Value

end LsxKit.Json
