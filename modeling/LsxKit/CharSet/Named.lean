import LsxKit.CharSet.Age
import LsxKit.CharSet.Break
import LsxKit.CharSet.Script

/-!
# Sets of characters by name

Categories, scripts and properties are known by names in which case, blanks, hyphens, underscores
and a leading `is` do not matter.

* `plainName`: a name without what does not matter.
* `named?`: the set that a name stands for.
* `withValue?`: the set that a property and its value stand for.
-/

namespace LsxKit.CharSet

/-- The letters of a name that matter, in lower case. -/
def plainLetters (name : List Char) : List Char :=
  (name.filter fun c => c.toNat < 0x80 && c ≠ ' ' && c ≠ '_' && c ≠ '-').map Char.toLower

/-- A name without what does not matter in it. The name `isc` is not the name `c`. -/
def plainName (name : List Char) : String :=
  match name with
  | i :: s :: rest =>
    if i.toLower = 'i' && s.toLower = 's' then
      let plain := plainLetters rest
      String.ofList (if plain = ['c'] then ['i', 's', 'c'] else plain)
    else String.ofList (plainLetters name)
  | _ => String.ofList (plainLetters name)

/-- The characters with a property, of a category or of a script with a name. -/
def named? (name : List Char) : Option CharSet :=
  let name := plainName name
  property? name <|> category? name <|> script? name

/-- The characters for which a property has a value. -/
def withValue? (property value : List Char) : Option CharSet :=
  let value := plainName value
  match plainName property with
  | "gc" | "generalcategory" => category? value
  | "sc" | "script" => script? value
  | "scx" | "scriptextensions" => scriptExtensions? value
  | "age" => age? value
  | "gcb" | "graphemeclusterbreak" => graphemeBreak? value
  | "wb" | "wordbreak" => wordBreak? value
  | "sb" | "sentencebreak" => sentenceBreak? value
  | _ => none

end LsxKit.CharSet
