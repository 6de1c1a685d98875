import LsxKit.CharSet.Fold
import LsxKit.CharSet.Property

/-!
# Lower case in all scripts

Every capital letter becomes the small one. The capital sigma has two small letters, one of which
stands at the end of words, and the capital i with a dot becomes an i and a combining dot.

* `lowerOf`: a character in lower case.
* `lowercase`: a text in lower case.
-/

namespace LsxKit.Text

/-- The runs of small letters that fold to other letters: the first and the last code point. -/
def foldingSmall : List (Nat × Nat) := [
  (0xB5, 0xB5), (0x17F, 0x17F), (0x345, 0x345), (0x3C2, 0x3C2), (0x3D0, 0x3D1), (0x3D5, 0x3D6),
  (0x3F0, 0x3F1), (0x3F5, 0x3F5), (0x13F8, 0x13FD), (0x1C80, 0x1C88), (0x1E9B, 0x1E9B),
  (0x1FBE, 0x1FBE), (0x1FD3, 0x1FD3), (0x1FE3, 0x1FE3), (0xAB70, 0xABBF), (0xFB05, 0xFB05)]

/-- The code point of a character in lower case. Capitals fold to their small letters, but for
those of the Cherokee script and those that a later edition of the standard added. -/
def smallCode (n : Nat) : Nat :=
  if foldingSmall.any fun (low, high) => low ≤ n && n ≤ high then n
  else if 0x13A0 ≤ n ∧ n ≤ 0x13EF then n + 0x97D0
  else if 0x13F0 ≤ n ∧ n ≤ 0x13F5 then n + 8
  else if n = 0xA7CE ∨ n = 0xA7D2 ∨ n = 0xA7D4 then n + 1
  else if 0x16EA0 ≤ n ∧ n ≤ 0x16EB8 then n + 27
  else fold n

/-- A character in lower case, whatever stands around it. -/
def lowerOf (c : Char) : List Char :=
  if c.toNat < 0x80 then [c.toLower]
  else if c = '\u0130' then ['i', '\u0307']
  else [Char.ofNat (smallCode c.toNat)]

/-- Whether the first character that counts for the ends of words is a letter with case. -/
def meetsLetter (cs : List Char) : Bool :=
  (cs.dropWhile CharSet.caseIgnorable.contains).head?.any CharSet.cased.contains

/-- Characters in lower case that stand after others, given from the last one on. A capital sigma
ends a word after a letter that no letter follows. -/
def lowerAfter (before : List Char) : List Char → List Char
  | [] => []
  | c :: cs =>
    let small :=
      if c = '\u03A3' then if meetsLetter before && !meetsLetter cs then ['\u03C2'] else ['\u03C3']
      else lowerOf c
    small ++ lowerAfter (c :: before) cs

/-- A text in lower case. -/
def lowercase (s : String) : String := String.ofList (lowerAfter [] s.toList)

end LsxKit.Text
