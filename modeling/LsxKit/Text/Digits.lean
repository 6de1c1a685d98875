/-!
# Decimal digits

Natural numbers written in ASCII decimal digits, without a sign.

* `readNat?_toDigits`: a number is read back from its digits.
-/

namespace LsxKit.Text

/-- The value of a non-empty text of ASCII digits; leading zeros are allowed. -/
def readNat? (s : List Char) : Option Nat :=
  if s ≠ [] ∧ s.all Char.isDigit then some (Nat.ofDigitChars 10 s 0) else none

/-- `readNat?` for a text that may begin with one plus sign. -/
def readSigned? : List Char → Option Nat
  | '+' :: s => readNat? s
  | s => readNat? s

theorem readNat?_toDigits (n : Nat) : readNat? (Nat.toDigits 10 n) = some n := by
  have h : (Nat.toDigits 10 n).all Char.isDigit = true :=
    List.all_eq_true.2 fun c hc => Nat.isDigit_of_mem_toDigits (by decide) (by decide) hc
  simp [readNat?, h, Nat.toDigits_ne_nil, Nat.ofDigitChars_ten_toDigits]

end LsxKit.Text
