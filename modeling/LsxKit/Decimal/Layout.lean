import LsxKit.Decimal.Shortest

/-!
# Layout of decimals

How the shortest digits of a value are written: positionally or with an exponent, with or
without a fractional part that is zero.

* `Layout`: the decisions of one format.
* `Layout.render`: a value in that format.
-/

namespace LsxKit.Decimal

/-- The decisions of a number format. -/
structure Layout where
  /-- Which of two equally near digit strings is written. -/
  tie : Tie
  /-- Whether a value is written positionally, by the place of its decimal point relative to
  its first digit. -/
  positional : Int → Bool
  /-- Whether an integral value is written with `.0`. -/
  pointZero : Bool

/-- `count` zeros. -/
def zeros (count : Nat) : List Char := List.replicate count '0'

/-- The digits with the decimal point after the first `point` of them. -/
def Layout.writePositional (l : Layout) (digits : List Char) (point : Int) : List Char :=
  if point ≤ 0 then '0' :: '.' :: zeros (-point).toNat ++ digits
  else
    let n := point.toNat
    if n < digits.length then digits.take n ++ '.' :: digits.drop n
    else digits ++ zeros (n - digits.length) ++ if l.pointZero then ['.', '0'] else []

/-- The digits with the decimal point after the first, and a signed exponent. -/
def writeExponent (digits : List Char) (point : Int) : List Char :=
  let mantissa := match digits with
    | d :: rest@(_ :: _) => d :: '.' :: rest
    | _ => digits
  let e := point - 1
  mantissa ++ 'e' :: (if e < 0 then '-' else '+') :: Nat.toDigits 10 e.natAbs

/-- The text of a value. -/
def Layout.render (l : Layout) (x : Binary64) : String :=
  let (digits, exponent) := shortest l.tie x.rank
  let written := Nat.toDigits 10 digits
  let point := written.length + exponent
  let text := if l.positional point then l.writePositional written point
    else writeExponent written point
  String.ofList (if x.negative then '-' :: text else text)

end LsxKit.Decimal
