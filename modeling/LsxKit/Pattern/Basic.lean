import LsxKit.CharSet
import LsxKit.Text.Word

/-!
# Patterns

A pattern describes pieces of text: characters, places between characters, and sequences, choices
and repetitions of patterns.

* `Boundary.holds`: whether a place is between two characters.
* `Pattern.minLength?`: the fewest bytes of a piece.
-/

namespace LsxKit

/-- A place at a word. -/
inductive WordPlace where
  | edge
  | noEdge
  | start
  | stop
  | startHalf
  | stopHalf
  deriving Repr, DecidableEq

/-- Whether a place at a word is between a character and another, by whether each is part of a
word. -/
def WordPlace.holds (before after : Bool) : WordPlace → Bool
  | .edge => before != after
  | .noEdge => before == after
  | .start => !before && after
  | .stop => before && !after
  | .startHalf => !before
  | .stopHalf => !after

/-- A place between characters. -/
inductive Boundary where
  | textStart
  | textEnd
  | lineStart
  | lineEnd
  /-- The start of a line where a carriage return ends lines too. -/
  | lineStartAny
  /-- The end of a line where a carriage return ends lines too. -/
  | lineEndAny
  | word (place : WordPlace)
  /-- A place at a word of ASCII characters. -/
  | asciiWord (place : WordPlace)
  deriving Repr, DecidableEq

/-- Whether a character is an ASCII letter, an ASCII digit or an underscore. -/
def isAsciiWord (c : Char) : Bool := c.isAlphanum || c = '_'

/-- Whether a place is between the character before it and the one after it. -/
def Boundary.holds (before after : Option Char) : Boundary → Bool
  | .textStart => before.isNone
  | .textEnd => after.isNone
  | .lineStart => before.isNone || before == some '\n'
  | .lineEnd => after.isNone || after == some '\n'
  | .lineStartAny =>
    before.isNone || before == some '\n' || (before == some '\r' && after != some '\n')
  | .lineEndAny =>
    after.isNone || after == some '\r' || (after == some '\n' && before != some '\r')
  | .word place => place.holds (before.any Text.isWord) (after.any Text.isWord)
  | .asciiWord place => place.holds (before.any isAsciiWord) (after.any isAsciiWord)

/-- A pattern. -/
inductive Pattern where
  | empty
  | literal (s : List Char)
  /-- A character of a set. -/
  | oneOf (s : CharSet)
  | boundary (b : Boundary)
  | seq (p q : Pattern)
  | choice (p q : Pattern)
  /-- From `least` to `most` pieces one after the other, without limit if there is no `most`;
  many of them are preferred to few if `greedy`. -/
  | many (p : Pattern) (least : Nat) (most : Option Nat) (greedy : Bool)
  /-- A numbered group. -/
  | group (index : Nat) (p : Pattern)
  deriving Repr, DecidableEq

namespace Pattern

/-- The fewest bytes of a piece; none if there is no piece. -/
def minLength? : Pattern → Option Nat
  | .empty => some 0
  | .literal s => some (s.foldl (fun n c => n + c.utf8Size) 0)
  | .oneOf s => s.ranges[0]?.map fun (low, _) => (Char.ofNat low).utf8Size
  | .boundary _ => some 0
  | .seq p q => do return (← p.minLength?) + (← q.minLength?)
  | .choice p q => do return min (← p.minLength?) (← q.minLength?)
  | .many p least _ _ => do return (← p.minLength?) * least
  | .group _ p => p.minLength?

/-- Whether only the empty text is a piece. -/
def isOnlyEmpty : Pattern → Bool
  | .empty => true
  | .literal s => s.isEmpty
  | .oneOf _ => false
  | .boundary _ => true
  | .seq p q => p.isOnlyEmpty && q.isOnlyEmpty
  | .choice p q => p.isOnlyEmpty && q.isOnlyEmpty
  | .many p _ most _ => most.isSome && p.isOnlyEmpty
  | .group _ p => p.isOnlyEmpty

end Pattern

end LsxKit
