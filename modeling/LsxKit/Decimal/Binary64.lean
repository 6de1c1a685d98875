/-!
# Finite binary64 values

A finite binary floating-point number of 64 bits is a sign and a rank: its place among the
non-negative values in ascending order, which is also the number its other 63 bits spell.
Every magnitude is a natural number of units of `2 ^ -1074`, so all arithmetic below is exact
arithmetic on naturals, followed by one rounding to the nearest value, ties to the even rank.

* `units`: the magnitude of a rank.
* `nearestRank`: the rank nearest to a quotient of naturals.
* `Binary64.ofRatio`, `mul`, `div`: rounded operations, without a result when the exact one is
  too large to be finite.
-/

namespace LsxKit.Decimal

/-- One more than the rank of the largest finite value. -/
def rankBound : Nat := 0x7FF0000000000000

/-- How many units make one. -/
def unitsPerOne : Nat := 1 <<< 1074

/-- How many ranks there are from one power of two up to the next. -/
def binade : Nat := 0x10000000000000

/-- The magnitude of the value of rank `r`, in units of `2 ^ -1074`. -/
def units (r : Nat) : Nat :=
  if r < binade then r else (binade + r % binade) <<< (r / binade - 1)

/-- `n / d` rounded to the nearest natural, a half to the even neighbour. -/
def divHalfEven (n d : Nat) : Nat :=
  let q := n / d
  let twice := 2 * (n % d)
  if twice < d then q else if d < twice then q + 1 else q + q % 2

/-- The rank nearest to `n / d` units, a tie going to the even rank. It is `rankBound` or more
when no finite value is near enough. -/
def nearestRank (n d : Nat) : Nat :=
  let shift := Nat.log2 (n / d) - 52
  shift * binade + divHalfEven n (d <<< shift)

/-- A finite binary64 value. -/
structure Binary64 where
  /-- The sign; zero has one too. -/
  negative : Bool
  /-- The place among the non-negative values, in ascending order. -/
  rank : Nat
  /-- Only finite values are represented. -/
  rank_lt : rank < rankBound
  deriving Repr, DecidableEq

namespace Binary64

instance : Inhabited Binary64 := ⟨⟨false, 0, by decide⟩⟩

/-- The value of the given sign and rank, if it is finite. -/
def ofRank? (negative : Bool) (rank : Nat) : Option Binary64 :=
  if h : rank < rankBound then some ⟨negative, rank, h⟩ else none

/-- The value nearest to `n / d` with the given sign. -/
def ofRatio (negative : Bool) (n d : Nat) : Option Binary64 :=
  ofRank? negative (nearestRank (n * unitsPerOne) d)

/-- The value nearest to an integer. -/
def ofInt (i : Int) : Option Binary64 :=
  ofRatio (i < 0) i.natAbs 1

/-- The magnitude in units of `2 ^ -1074`. -/
def magnitude (x : Binary64) : Nat := units x.rank

/-- The exact value in units of `2 ^ -1074`; both zeros have the value zero. -/
def value (x : Binary64) : Int :=
  if x.negative then -(x.magnitude : Int) else x.magnitude

/-- The product, rounded. -/
def mul (x y : Binary64) : Option Binary64 :=
  ofRatio (x.negative != y.negative) (x.magnitude * y.magnitude) (unitsPerOne * unitsPerOne)

/-- The quotient by a value other than zero, rounded. -/
def div (x y : Binary64) : Option Binary64 :=
  ofRatio (x.negative != y.negative) x.magnitude y.magnitude

/-- The value with the other sign. -/
def neg (x : Binary64) : Binary64 := { x with negative := !x.negative }

/-- Whether the value has no fractional part. -/
def isIntegral (x : Binary64) : Bool := x.magnitude % unitsPerOne == 0

/-- Comparison by value: the two zeros are equal. -/
def sameValue (x y : Binary64) : Bool := x.value == y.value

/-- Comparison by value. -/
def isLess (x y : Binary64) : Bool := x.value < y.value

theorem sameValue_iff {x y : Binary64} : x.sameValue y = true ↔ x.value = y.value := by
  simp [sameValue]

theorem isLess_iff {x y : Binary64} : x.isLess y = true ↔ x.value < y.value := by
  simp [isLess]

end Binary64

end LsxKit.Decimal
