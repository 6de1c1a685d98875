import LsxKit.Json.Printer
import LsxKit.Json.Scan

/-!
# Scalars

Texts that are the written form of a boolean or a number, and only those, become one; so every
scalar is written back as the text it was read from.

* `Scalar.ofText`: the value of a text.
* `Scalar.render`: the text of a value; `render_ofText`: it gives back the text.
-/

namespace LsxKit.Tree.Scalar

open Json Decimal

/-- The largest integer below which all integers are binary64 values. -/
def maxSafeInteger : Nat := 0x1FFFFFFFFFFFFF

/-- The binary64 value nearest to a numeral. Exponents of more than three digits are not read;
no value is written with one. -/
def nearest? (n : Numeral) : Option Binary64 :=
  let fraction := n.fraction.getD []
  let digits := Nat.ofDigitChars 10 (n.whole ++ fraction) 0
  let (down, written) := n.exponent.getD (false, [])
  if 3 < written.length then none
  else
    let e : Int := Nat.ofDigitChars 10 written 0
    let exponent := (if down then -e else e) - fraction.length
    if exponent < 0 then Binary64.ofRatio n.negative digits (Nat.pow 10 exponent.natAbs)
    else Binary64.ofRatio n.negative (digits * Nat.pow 10 exponent.toNat) 1

/-- A numeral, if the text is nothing else. -/
def numeral? (cs : List Char) : Option Numeral :=
  match Scan.numeral cs with
  | .ok (n, []) => some n
  | _ => none

/-- An integer in decimal digits with an optional sign, if it fits into 64 bits. -/
def int64? (cs : List Char) : Option Int := do
  let i ← match cs with
    | '-' :: cs => (Text.readNat? cs).map fun n => -(n : Int)
    | cs => (Text.readSigned? cs).map fun n => (n : Int)
  if -0x8000000000000000 ≤ i ∧ i < 0x8000000000000000 then some i else none

/-- The number that a text is the written form of. -/
def number? (s : String) : Option Number :=
  match int64? s.toList with
  | some i =>
    if i.natAbs ≤ maxSafeInteger ∧ String.ofList (Number.int i).render = s then some (.int i)
    else none
  | none => do
    let x ← nearest? (← numeral? s.toList)
    if String.ofList (Number.float x).render = s then some (.float x) else none

/-- The boolean or number that a text is the written form of. -/
def converted? (s : String) : Option Value :=
  if s = "true" then some (.bool true)
  else if s = "false" then some (.bool false)
  else (number? s).map .number

/-- The value of a text; with `convert` set, a written boolean or number becomes one. -/
def ofText (convert : Bool) (s : String) : Value :=
  if convert then (converted? s).getD (.string s) else .string s

/-- The text of a value that is no array and no object. -/
def render : Value → String
  | .string s => s
  | .null => ""
  | v => v.compact

theorem render_number {s : String} {n : Number} (h : number? s = some n) :
    String.ofList n.render = s := by
  unfold number? at h
  split at h
  · split at h
    · next hi => injection h with h; subst h; exact hi.2
    · contradiction
  · simp only [bind, Option.bind_eq_some_iff] at h
    obtain ⟨n', -, x, -, h⟩ := h
    split at h
    · next hx => injection h with h; subst h; exact hx
    · contradiction

/-- A scalar is written back as the text it was read from. -/
theorem render_ofText (convert : Bool) (s : String) : render (ofText convert s) = s := by
  unfold ofText
  split
  · cases h : converted? s with
    | none => rfl
    | some v =>
      unfold converted? at h
      split at h
      · next ht => injection h with h; subst h ht; decide
      · split at h
        · next hf => injection h with h; subst h hf; decide
        · obtain ⟨n, hn, rfl⟩ := Option.map_eq_some_iff.1 h
          simpa [render, Value.compact, Value.compactOnto] using render_number hn
  · rfl

end LsxKit.Tree.Scalar
