import LsxKit.Json.Value
import LsxKit.Text.Digits

/-!
# Numerals

The digits of a JSON number and the number they stand for. An integer of 64 bits is exact. Any
other numeral is a binary64 value: its leading digits, as many as fit into 64 bits, are rounded,
and then scaled by powers of ten of at most `10 ^ 308`, with a rounding after each step.

* `Numeral.toNumber?`: the number, unless it is too large.
-/

namespace LsxKit.Json

open Decimal

/-- A number as written. -/
structure Numeral where
  negative : Bool
  /-- The digits before the point. -/
  whole : List Char
  /-- The digits after the point, if there is one. -/
  fraction : Option (List Char)
  /-- The sign and the digits of the exponent, if there is one. -/
  exponent : Option (Bool × List Char)
  deriving Repr, DecidableEq

namespace Numeral

/-- Appends digits to a number as long as it stays below `bound`; the digits that are left. -/
def accumulate (bound : Nat) : Nat → List Char → Nat × List Char
  | n, [] => (n, [])
  | n, c :: cs =>
    let n' := 10 * n + (c.toNat - '0'.toNat)
    if n' < bound then accumulate bound n' cs else (n, c :: cs)

/-- The power of ten as a binary64 value; every `10 ^ n` up to `10 ^ 308` is finite. -/
def tenPower (n : Nat) : Binary64 := (Binary64.ofRatio false (Nat.pow 10 n) 1).getD default

/-- `x / 10 ^ n`, in steps of at most `10 ^ 308`. -/
def scaleDown (x : Binary64) (n : Nat) : Binary64 :=
  if n ≤ 308 then (x.div (tenPower n)).getD x
  else if x.rank = 0 then x
  else scaleDown ((x.div (tenPower 308)).getD x) (n - 308)
termination_by n

/-- `x * 10 ^ e`, if it is finite. -/
def scale? (x : Binary64) (e : Int) : Option Binary64 :=
  if e < 0 then some (scaleDown x e.natAbs)
  else if e ≤ 308 then x.mul (tenPower e.toNat)
  else if x.rank = 0 then some x
  else none

/-- The value of a significand and an exponent of ten, if it is finite. -/
def ofParts? (negative : Bool) (significand : Nat) (e : Int) : Option Number := do
  let x ← scale? (← Binary64.ofInt significand) e
  return .float (if negative then x.neg else x)

/-- The largest exponent that is told from larger ones. -/
def exponentBound : Nat := 0x80000000

/-- The digits of the exponent from the first on that makes it too large to be told from larger
ones. -/
def excess (n : Numeral) : List Char :=
  match n.exponent with
  | some (_, digits) => (accumulate exponentBound 0 digits).2
  | none => []

/-- The number that a numeral stands for; none if it is too large. -/
def toNumber? (n : Numeral) : Option Number :=
  let (significand, dropped) := accumulate UInt64.size 0 n.whole
  match n.fraction, n.exponent with
  | none, none =>
    if dropped ≠ [] then ofParts? n.negative significand dropped.length
    else if !n.negative then some (.int significand)
    else if 0 < significand ∧ significand ≤ 0x8000000000000000 then some (.int (-significand))
    else ofParts? true significand 0
  | fraction, exponent =>
    let decimals := fraction.getD []
    let (significand, ignored) := accumulate UInt64.size significand decimals
    let start : Int := dropped.length - (decimals.length - ignored.length : Nat)
    match exponent with
    | none => ofParts? n.negative significand start
    | some (down, digits) =>
      let (e, excess) := accumulate exponentBound 0 digits
      if excess ≠ [] then
        if significand ≠ 0 ∧ !down then none else ofParts? n.negative 0 0
      else ofParts? n.negative significand (if down then start - e else start + e)

end Numeral

end LsxKit.Json
