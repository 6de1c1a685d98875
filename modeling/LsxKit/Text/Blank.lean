/-!
# Blank characters

The characters with the Unicode property `White_Space`, and texts without them at their ends.

* `isBlank`: the property, as its twenty-five code points.
* `trimBy`, `trim`: a text without the characters of a class, or without blanks, at both ends.
-/

namespace LsxKit.Text

/-- The Unicode property `White_Space`. -/
def isBlank (c : Char) : Bool :=
  let n := c.toNat
  (0x09 ≤ n && n ≤ 0x0D) || n == 0x20 || n == 0x85 || n == 0xA0 || n == 0x1680 ||
    (0x2000 ≤ n && n ≤ 0x200A) || n == 0x2028 || n == 0x2029 || n == 0x202F || n == 0x205F ||
    n == 0x3000

/-- `s` without the characters of the class `p` at its end. -/
def trimEndBy (p : Char → Bool) (s : List Char) : List Char :=
  (s.reverse.dropWhile p).reverse

/-- `s` without the characters of the class `p` at its two ends. -/
def trimBy (p : Char → Bool) (s : List Char) : List Char :=
  trimEndBy p (s.dropWhile p)

/-- `s` without blanks at its two ends. -/
def trim (s : String) : String :=
  String.ofList (trimBy isBlank s.toList)

theorem isBlank_of_isDigit {c : Char} (h : c.isDigit = true) : isBlank c = false := by
  simp only [Char.isDigit, Bool.and_eq_true, decide_eq_true_eq] at h
  have hleast : 0x30 ≤ c.toNat := h.1
  have hgreatest : c.toNat ≤ 0x39 := h.2
  simp [isBlank]
  omega

end LsxKit.Text
