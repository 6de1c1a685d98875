import LsxKit.CharSet.Property

/-!
# Word characters, letters and decimal digits

* `isWord`: letters, marks, decimal digits, connectors and joiners.
* `isDigit`: the general category `Nd`.
* `isLetter`, `isLetterOrNumber`: alphabetic characters, and those with numbers.
-/

namespace LsxKit.Text

/-- The decimal digits. -/
def digits : CharSet := .category "nd"

/-- The alphabetic characters, the marks, the decimal digits, the connector punctuation and the
two joiners. -/
def wordCharacters : CharSet :=
  .unions [.alphabetic, .categories ["mn", "mc", "me", "nd", "pc"], .listed "joincontrol"]

/-- Whether a character is a decimal digit. -/
def isDigit (c : Char) : Bool := if c.toNat < 0x80 then c.isDigit else digits.contains c

/-- Whether a character is part of a word. -/
def isWord (c : Char) : Bool :=
  if c.toNat < 0x80 then c.isAlphanum || c = '_' else wordCharacters.contains c

/-- Letters that a later edition of the standard added to the alphabetic characters. -/
def newerLetters : CharSet :=
  .ofText
    "88F C5C CDC A7CE-A7CF A7D2 A7D4 A7F1 10940-10959 10EC5-10EC7 10EFA-10EFB 11B60-11B67
    11DB0-11DDB 16EA0-16EB8 16EBB-16ED3 16FF2-16FF6 187F8-187FF 18D09-18D1E 18D80-18DF2
    1E6C0-1E6DE 1E6E0-1E6F5 1E6FE-1E6FF 2B73A-2B73F 2CEA2-2CEAD 323B0-33479"

/-- Whether a character is alphabetic. -/
def isLetter (c : Char) : Bool :=
  if c.toNat < 0x80 then c.isAlpha else CharSet.alphabetic.contains c || newerLetters.contains c

/-- The numbers, digits of the same later edition among them. -/
def numbers : CharSet := (CharSet.categories ["nd", "nl", "no"]).union (.ofText "11DE0-11DE9")

/-- Whether a character is alphabetic or a number. -/
def isLetterOrNumber (c : Char) : Bool := isLetter c || numbers.contains c

end LsxKit.Text
