/-!
# Lower case

* `lower`: a text with its ASCII capitals as small letters.
-/

namespace LsxKit.Text

/-- A text in lower case, as far as it is ASCII. -/
def lower (s : String) : String := String.ofList (s.toList.map Char.toLower)

end LsxKit.Text
