/-!
# Byte offsets and positions

A position in a text is a line and a column, both counted from zero, the column in characters.
Offsets count the bytes of the UTF-8 form.

* `size`: the number of bytes of a list of characters.
* `Position.ofOffset`: the position of a byte offset. An offset inside a character stands for
  the character's start, one past the end for the end.
-/

namespace LsxKit

/-- A line and a character of it, both counted from zero. -/
structure Position where
  line : Nat
  column : Nat
  deriving Repr, DecidableEq, Inhabited

namespace Text

/-- The number of bytes of `s` in UTF-8. -/
def size (s : List Char) : Nat :=
  s.foldr (fun c n => c.utf8Size + n) 0

@[simp] theorem size_nil : size [] = 0 := rfl

@[simp] theorem size_cons (c : Char) (s : List Char) : size (c :: s) = c.utf8Size + size s :=
  rfl

@[simp] theorem size_append (s t : List Char) : size (s ++ t) = size s + size t := by
  induction s with
  | nil => simp
  | cons c s ih => simp [ih, Nat.add_assoc]

/-- The characters of `s` that end at or before the byte offset `n`. -/
def takeBytes : Nat → List Char → List Char
  | _, [] => []
  | n, c :: s => if c.utf8Size ≤ n then c :: takeBytes (n - c.utf8Size) s else []

/-- The character of `s` that starts at the byte offset `n`, if one does. -/
def startingAt? : Nat → List Char → Option Char
  | _, [] => none
  | 0, c :: _ => some c
  | n + 1, c :: s => if c.utf8Size ≤ n + 1 then startingAt? (n + 1 - c.utf8Size) s else none

end Text

/-- The position right after the characters `before` of a text. -/
def Position.after (before : List Char) : Position where
  line := before.count '\n'
  column := (before.reverse.takeWhile (· ≠ '\n')).length

/-- The position of the byte offset `offset` in `s`. -/
def Position.ofOffset (s : List Char) (offset : Nat) : Position :=
  Position.after (Text.takeBytes offset s)

end LsxKit
