import LsxKit.CharSet

/-!
# Sets of characters as bytes

Each character is a sequence of one to four bytes: the first tells how many there are, each of
the others has six bits of the code point. A set of characters is a list of sequences of ranges
of bytes, which are ascending and as few as whole blocks allow.

* `CharSet.byteSequences`: the sequences of a set.
-/

namespace LsxKit

/-- A range of bytes, both ends included. -/
abbrev ByteRange := Nat × Nat

/-- The range of all bytes after the first. -/
def furtherBytes : ByteRange := (0x80, 0xBF)

/-- The sequences of ranges for the numbers from `low` to `high`, written as one byte to which
`lead` is added and `count` more bytes. A part of a block of the first byte has sequences of its
own, the whole blocks between such parts have one together. -/
def byteBlocks (lead low high : Nat) : Nat → List (List ByteRange)
  | 0 => [[(lead + low, lead + high)]]
  | count + 1 =>
    let size := 1 <<< (6 * (count + 1))
    let first := low / size
    let last := high / size
    let part (block low high : Nat) : List (List ByteRange) :=
      (byteBlocks 0x80 low high count).map ((lead + block, lead + block) :: ·)
    if first = last then part first (low % size) (high % size)
    else
      let before := if low % size = 0 then [] else part first (low % size) (size - 1)
      let after := if high % size = size - 1 then [] else part last 0 (high % size)
      let wholeFirst := if before.isEmpty then first else first + 1
      let wholeLast := if after.isEmpty then last + 1 else last
      let whole :=
        if wholeFirst < wholeLast then
          [(lead + wholeFirst, lead + wholeLast - 1) :: List.replicate (count + 1) furtherBytes]
        else []
      before ++ whole ++ after

/-- The code points written with the same number of bytes: the first and the last one, what is
added to the first byte, and the number of the others. -/
def byteLengths : List (Nat × Nat × Nat × Nat) :=
  [(0, 0x7F, 0, 0), (0x80, 0x7FF, 0xC0, 1), (0x800, 0xD7FF, 0xE0, 2), (0xE000, 0xFFFF, 0xE0, 2),
    (0x10000, 0x10FFFF, 0xF0, 3)]

/-- The sequences of ranges of bytes for a set. -/
def CharSet.byteSequences (s : CharSet) : List (List ByteRange) :=
  s.ranges.toList.flatMap fun (low, high) =>
    byteLengths.flatMap fun (least, greatest, lead, count) =>
      let low := max low least
      let high := min high greatest
      if low ≤ high then byteBlocks lead low high count else []

end LsxKit
