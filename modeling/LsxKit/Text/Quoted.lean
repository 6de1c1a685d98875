import LsxKit.Text.Printable

/-!
# Quoted text

A text between double quotes, with escapes for the quote, the backslash and every character
that is not printable.

* `quoted`: the quoted form.
-/

namespace LsxKit.Text

/-- A character inside double quotes. -/
def escapeChar (c : Char) : List Char :=
  match c with
  | '\t' => ['\\', 't']
  | '\r' => ['\\', 'r']
  | '\n' => ['\\', 'n']
  | '"' => ['\\', '"']
  | '\\' => ['\\', '\\']
  | c =>
    if c.toNat = 0 then ['\\', '0']
    else if isPrintable c then [c]
    else ['\\', 'u', '\x7b'] ++ Nat.toDigits 16 c.toNat ++ ['\x7d']

/-- `s` between double quotes. -/
def quoted (s : String) : String :=
  String.ofList ('"' :: s.toList.flatMap escapeChar ++ ['"'])

end LsxKit.Text
