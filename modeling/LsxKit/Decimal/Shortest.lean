import LsxKit.Decimal.Binary64

/-!
# Shortest decimals

The decimal with the fewest digits that reads back as a given binary64 value, and of those the
nearest. A decimal reads back when it lies between the middles to the neighbouring values, the
middles themselves included exactly when the rank is even.

* `shortest`: the digits as a natural number without trailing zeros, and the power of ten that
  scales it.
-/

namespace LsxKit.Decimal

/-- Which of two equally near decimals is taken. -/
inductive Tie where
  | even
  | away
  deriving Repr, DecidableEq

/-- The decimals that read back as the value of a rank, in units of `2 ^ -1075`. -/
structure Interval where
  low : Nat
  value : Nat
  high : Nat
  closed : Bool

/-- The interval of a rank that is not zero. -/
def Interval.ofRank (r : Nat) : Interval where
  low := units (r - 1) + units r
  value := 2 * units r
  high := units r + units (r + 1)
  closed := r % 2 == 0

/-- Whether `n / d` lies between the ends, both scaled by `s`. -/
def Interval.contains (i : Interval) (s n d : Nat) : Bool :=
  if i.closed then i.low * s * d ≤ n && n ≤ i.high * s * d
  else i.low * s * d < n && n < i.high * s * d

/-- The multiple of `10 ^ grid` in the interval that is nearest to the value, if one of the two
neighbours of the value on that grid lies in it; the result is the factor. -/
def Interval.onGrid? (i : Interval) (tie : Tie) (grid : Int) : Option Nat :=
  let s := Nat.pow 10 (-grid).toNat
  let unit := 2 * unitsPerOne * Nat.pow 10 grid.toNat
  let below := i.value * s / unit
  let above := below + 1
  match i.contains s (below * unit) 1, i.contains s (above * unit) 1 with
  | false, false => none
  | true, false => some below
  | false, true => some above
  | true, true =>
    let middle := (below + above) * unit
    let twice := 2 * (i.value * s)
    if twice < middle then some below
    else if middle < twice then some above
    else match tie with
      | .even => some (below + below % 2)
      | .away => some above

/-- The number of zeros after the decimal point of `n / d < 1`, at most `fuel`. -/
def leadingZeros (d : Nat) : Nat → Nat → Nat
  | 0, _ => 0
  | fuel + 1, n => if d ≤ n * 10 then 0 else leadingZeros d fuel (n * 10) + 1

/-- The least `k` with the value below `10 ^ k`. -/
def Interval.scale (i : Interval) : Int :=
  let whole := i.value / (2 * unitsPerOne)
  if whole = 0 then -(leadingZeros (2 * unitsPerOne) 400 i.value : Int)
  else (Nat.toDigits 10 whole).length

/-- Moves trailing zeros of the digits into the exponent, `fuel` at most. -/
def stripZeros : Nat → Nat → Int → Nat × Int
  | 0, digits, exponent => (digits, exponent)
  | fuel + 1, digits, exponent =>
    if digits % 10 = 0 ∧ digits ≠ 0 then stripZeros fuel (digits / 10) (exponent + 1)
    else (digits, exponent)

/-- The first count of digits, from `count` on, whose grid has a decimal that reads back. -/
def Interval.search (i : Interval) (tie : Tie) (scale : Int) : Nat → Nat → Nat × Int
  | 0, _ => (i.value, -1075)
  | fuel + 1, count =>
    let grid := scale - count
    match i.onGrid? tie grid with
    | some digits => stripZeros 20 digits grid
    | none => i.search tie scale fuel (count + 1)

/-- The fewest digits that read back as the value of rank `r`, with the power of ten that
scales them. Seventeen digits are always enough. -/
def shortest (tie : Tie) (r : Nat) : Nat × Int :=
  if r = 0 then (0, 0)
  else
    let i := Interval.ofRank r
    i.search tie i.scale 17 1

end LsxKit.Decimal
