/-!
# Sets of characters

A set of characters is kept as ascending ranges of code points with gaps between them.

* `CharSet.contains`: membership, by bisection.
* `CharSet.ofText`: the set that a text of ranges in hexadecimal describes.
* `CharSet.union`, `inter`, `compl`, `diff`, `symmDiff`: the operations on sets.
-/

namespace LsxKit

/-- A set of characters: ascending ranges of code points, both ends included. -/
structure CharSet where
  ranges : Array (Nat × Nat)
  deriving Repr, DecidableEq

namespace CharSet

/-- The greatest code point. -/
def maxCode : Nat := 0x10FFFF

/-- The set without characters. -/
def empty : CharSet := ⟨#[]⟩

/-- The set of all characters. -/
def all : CharSet := ⟨#[(0, maxCode)]⟩

/-- The characters between two, both included. -/
def range (low high : Char) : CharSet :=
  if low ≤ high then ⟨#[(low.toNat, high.toNat)]⟩ else empty

/-- The set of one character. -/
def single (c : Char) : CharSet := ⟨#[(c.toNat, c.toNat)]⟩

/-- The only character of a set that has just one. -/
def single? (s : CharSet) : Option Char :=
  match s.ranges.toList with
  | [(low, high)] => if low = high then some (Char.ofNat low) else none
  | _ => none

/-- Whether all characters of a set are in ASCII. -/
def isAscii (s : CharSet) : Bool :=
  match s.ranges.back? with
  | some (_, high) => high < 0x80
  | none => true

/-! ## Membership -/

/-- Whether one of the ranges from `low` on and before `high` has the code point `n`; each step
halves their number. -/
def bisect (ranges : Array (Nat × Nat)) (n : Nat) : Nat → Nat → Nat → Bool
  | 0, _, _ => false
  | fuel + 1, low, high =>
    if low < high then
      let middle := (low + high) / 2
      match ranges[middle]? with
      | some (first, last) =>
        if n < first then bisect ranges n fuel low middle
        else if last < n then bisect ranges n fuel (middle + 1) high
        else true
      | none => false
    else false

/-- Whether a character is in a set. -/
def contains (s : CharSet) (c : Char) : Bool :=
  bisect s.ranges c.toNat s.ranges.size 0 s.ranges.size

/-! ## Operations -/

/-- Ascending ranges with one more range; those that it meets or touches are joined to it. -/
def insertRange (range : Nat × Nat) : List (Nat × Nat) → List (Nat × Nat)
  | [] => [range]
  | next :: ranges =>
    if range.2 + 1 < next.1 then range :: next :: ranges
    else if next.2 + 1 < range.1 then next :: insertRange range ranges
    else insertRange (min range.1 next.1, max range.2 next.2) ranges

/-- The set of ranges in any order. -/
def ofRanges (ranges : List (Nat × Nat)) : CharSet :=
  ⟨(ranges.foldl (fun before range => insertRange range before) []).toArray⟩

/-- Two lists of ascending ranges as one, in the order of their beginnings; `fuel` is at least
the number of ranges. -/
def interleave : Nat → List (Nat × Nat) → List (Nat × Nat) → List (Nat × Nat)
  | 0, _, _ => []
  | _, [], ranges => ranges
  | _, ranges, [] => ranges
  | fuel + 1, a :: as, b :: bs =>
    if a.1 ≤ b.1 then a :: interleave fuel as (b :: bs)
    else b :: interleave fuel (a :: as) bs

/-- Joins ranges, in the order of their beginnings, to `range` as long as they meet it. -/
def join (range : Nat × Nat) : List (Nat × Nat) → List (Nat × Nat)
  | [] => [range]
  | next :: ranges =>
    if range.2 + 1 < next.1 then range :: join next ranges
    else join (range.1, max range.2 next.2) ranges

/-- The characters of either set. -/
def union (a b : CharSet) : CharSet :=
  match interleave (a.ranges.size + b.ranges.size) a.ranges.toList b.ranges.toList with
  | [] => empty
  | range :: ranges => ⟨(join range ranges).toArray⟩

/-- The code point of the character after that of `n`. -/
def next (n : Nat) : Nat := if n = 0xD7FF then 0xE000 else n + 1

/-- The code point of the character before that of `n`. -/
def previous (n : Nat) : Nat := if n = 0xE000 then 0xD7FF else n - 1

/-- The gaps after the code point `last`. -/
def gapsAfter (last : Nat) : List (Nat × Nat) → List (Nat × Nat)
  | [] => if last < maxCode then [(next last, maxCode)] else []
  | range :: ranges =>
    let low := next last
    let high := previous range.1
    let gaps := gapsAfter range.2 ranges
    if low ≤ high then (low, high) :: gaps else gaps

/-- The characters that are not in a set. -/
def compl (s : CharSet) : CharSet :=
  match s.ranges.toList with
  | [] => all
  | range :: ranges =>
    let before := if 0 < range.1 then [(0, previous range.1)] else []
    ⟨(before ++ gapsAfter range.2 ranges).toArray⟩

/-- The parts that two lists of ascending ranges have in common; `fuel` is at least the number
of ranges. -/
def common : Nat → List (Nat × Nat) → List (Nat × Nat) → List (Nat × Nat)
  | 0, _, _ => []
  | _, [], _ => []
  | _, _, [] => []
  | fuel + 1, a :: as, b :: bs =>
    let low := max a.1 b.1
    let high := min a.2 b.2
    let rest := if a.2 < b.2 then common fuel as (b :: bs) else common fuel (a :: as) bs
    if low ≤ high then (low, high) :: rest else rest

/-- The characters of both sets. -/
def inter (a b : CharSet) : CharSet :=
  ⟨(common (a.ranges.size + b.ranges.size) a.ranges.toList b.ranges.toList).toArray⟩

/-- The characters of the first set that are not in the second. -/
def diff (a b : CharSet) : CharSet := a.inter b.compl

/-- The characters of exactly one of two sets. -/
def symmDiff (a b : CharSet) : CharSet := (a.union b).diff (a.inter b)

/-- The characters of any of several sets. -/
def unions (sets : List CharSet) : CharSet := sets.foldl union empty

/-! ## Sets as texts -/

/-- The value of hexadecimal digits, capital letters among them. -/
def readHex (digits : List Char) : Nat :=
  digits.foldl (fun n c =>
    16 * n + (if c.toNat < 'A'.toNat then c.toNat - '0'.toNat else c.toNat - 'A'.toNat + 10)) 0

/-- Every `step`-th code point, `count` of them, as ranges. -/
def strided (low step : Nat) : Nat → List (Nat × Nat)
  | 0 => []
  | count + 1 => (low, low) :: strided (low + step) step count

/-- The ranges that a word describes: `41` for one code point, `41-5A` for a range, `41-4D/2` for
every second code point of a range. -/
def readWord (word : List Char) : List (Nat × Nat) :=
  let low := readHex (word.takeWhile fun c => c ≠ '-')
  match word.dropWhile fun c => c ≠ '-' with
  | [] => [(low, low)]
  | _ :: rest =>
    let high := readHex (rest.takeWhile fun c => c ≠ '/')
    match rest.dropWhile fun c => c ≠ '/' with
    | [] => [(low, high)]
    | _ :: step => strided low (readHex step) ((high - low) / readHex step + 1)

/-- The words of a text with blanks or line feeds between them; `word` is the one that has
begun, from its end. -/
def words (word : List Char) : List Char → List (List Char)
  | [] => if word.isEmpty then [] else [word.reverse]
  | c :: s =>
    if c = ' ' || c = '\n' then
      if word.isEmpty then words [] s else word.reverse :: words [] s
    else words (c :: word) s

/-- The set that a text describes by ascending ranges in hexadecimal. -/
def ofText (text : String) : CharSet := ⟨((words [] text.toList).flatMap readWord).toArray⟩

end CharSet

end LsxKit
