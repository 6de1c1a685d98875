import LsxKit.CharSet.Property

/-!
# Breaks between characters, words and sentences

The classes of characters by which a text is cut into visible characters, words and sentences.

* `graphemeBreak?`, `wordBreak?`, `sentenceBreak?`: the characters of a class.
-/

namespace LsxKit.CharSet

/-- The set of a table's entry with a name. -/
def ofTable? (table : List (List String × String)) (name : String) : Option CharSet :=
  (table.find? fun entry => entry.1.contains name).map fun entry => ofText entry.2

/-! ## Visible characters -/

/-- The classes of visible characters that are listed. -/
def graphemeBreakTable : List (List String × String) := [
  (["control", "cn"],
    "0-9 B-C E-1F 7F-9F AD 61C 180E 200B 200E-200F 2028-202E 2060-206F FEFF FFF0-FFFB 13430-1343F
    1BCA0-1BCA3 1D173-1D17A E0000-E001F E0080-E00FF E01F0-E0FFF"),
  (["cr"],
    "D"),
  (["l"],
    "1100-115F A960-A97C"),
  (["lf"],
    "A"),
  (["lv"],
    "AC00-D788/1C"),
  (["prepend", "pp"],
    "600-605 6DD 70F 890-891 8E2 D4E 110BD 110CD 111C2-111C3 113D1 1193F 11941 11A3A 11A84-11A89
    11D46 11F02"),
  (["regionalindicator", "ri"],
    "1F1E6-1F1FF"),
  (["t"],
    "11A8-11FF D7CB-D7FB"),
  (["v"],
    "1160-11A7 D7B0-D7C6 16D63 16D67-16D6A"),
  (["zwj"],
    "200D")]

/-- The spacing marks that do not join the character before them. -/
def looseMarks : CharSet :=
  ofText
    "102B-102C 1038 1062-1064 1067-106D 1083 1087-108C 108F 109A-109C 1A61 1A63-1A64 AA7B AA7D
    11720-11721"

/-- The characters of a class of the breaks between visible characters. -/
def graphemeBreak? (name : String) : Option CharSet :=
  match ofTable? graphemeBreakTable name with
  | some set => some set
  | none =>
    match name with
    | "extend" | "ex" => some (graphemeExtend.union (listed "emojimodifier"))
    | "lvt" => some ((range '\uac00' '\ud7a3').diff (ofText "AC00-D788/1C"))
    | "spacingmark" | "sm" =>
      some (((category "mc").diff (graphemeExtend.union looseMarks)).union (ofText "E33 EB3"))
    | _ => none

/-! ## Words -/

/-- The classes of the breaks between words that are listed. -/
def wordBreakTable : List (List String × String) := [
  (["cr"],
    "D"),
  (["doublequote", "dq"],
    "22"),
  (["extendnumlet", "ex"],
    "5F 202F 203F-2040 2054 FE33-FE34 FE4D-FE4F FF3F"),
  (["hebrewletter", "hl"],
    "5D0-5EA 5EF-5F2 FB1D FB1F-FB28 FB2A-FB36 FB38-FB3C FB3E FB40-FB41 FB43-FB44 FB46-FB4F"),
  (["katakana", "ka"],
    "3031-3035 309B-309C 30A0-30FA 30FC-30FF 31F0-31FF 32D0-32FE 3300-3357 FF66-FF9D 1AFF0-1AFF3
    1AFF5-1AFFB 1AFFD-1AFFE 1B000 1B120-1B122 1B155 1B164-1B167"),
  (["lf"],
    "A"),
  (["midletter", "ml"],
    "3A B7 387 55F 5F4 2027 FE13 FE55 FF1A"),
  (["midnum", "mn"],
    "2C 3B 37E 589 60C-60D 66C 7F8 2044 FE10 FE14 FE50 FE54 FF0C FF1B"),
  (["midnumlet", "mb"],
    "2E 2018-2019 2024 FE52 FF07 FF0E"),
  (["newline", "nl"],
    "B-C 85 2028-2029"),
  (["regionalindicator", "ri"],
    "1F1E6-1F1FF"),
  (["singlequote", "sq"],
    "27"),
  (["wsegspace"],
    "20 1680 2000-2006 2008-200A 205F 3000"),
  (["zwj"],
    "200D")]

/-- The letters of scripts that are written without blanks between words. -/
def unspaced : CharSet :=
  ofText
    "E01-E3A E40-E4E E81-E82 E84 E86-E8A E8C-EA3 EA5 EA7-EBD EC0-EC4 EC6 EC8-ECE EDC-EDF
    1000-103F 1050-108F 109A-109F 1780-17D3 17D7 17DC-17DD 1950-196D 1970-1974 1980-19AB
    19B0-19C9 19DA 19DE-19DF 1A20-1A5E 1A60-1A7C 1AA0-1AAD 3041-3096 309D-309F A9E0-A9EF
    A9FA-A9FE AA60-AAC2 AADB-AADF 11700-1171A 1171D-1172B 1173A-1173B 1173F-11746 1B001-1B11F
    1B132 1B150-1B152 1F200"

/-- The characters besides alphabetic ones that are in words like letters. -/
def letterLike : CharSet :=
  ofText
    "2C2-2C5 2D2-2D7 2DE-2DF 2E5-2EB 2ED 2EF-2FF 55A-55C 55E 58A 5F3 A708-A716 A720-A721
    A789-A78A AB5B"

/-- What extends the character before it, in words. -/
def wordExtend : CharSet := unions [graphemeExtend, category "mc", listed "emojimodifier"]

/-- The letters of words in which every letter counts. -/
def wordLetter : CharSet :=
  (alphabetic.diff (unions [listed "ideographic", unspaced, wordExtend,
    (ofTable? wordBreakTable "katakana").getD empty,
    (ofTable? wordBreakTable "hebrewletter").getD empty])).union letterLike

/-- The characters of a class of the breaks between words. -/
def wordBreak? (name : String) : Option CharSet :=
  match ofTable? wordBreakTable name with
  | some set => some set
  | none =>
    match name with
    | "aletter" | "le" => some wordLetter
    | "extend" => some wordExtend
    | "format" | "fo" => some ((category "cf").diff (ofText "200B-200D E0020-E007F"))
    | "numeric" | "nu" => some ((category "nd").union (ofText "66B"))
    | _ => none

/-! ## Sentences -/

/-- The classes of the breaks between sentences that are listed. -/
def sentenceBreakTable : List (List String × String) := [
  (["aterm", "at"],
    "2E 2024 FE52 FF0E"),
  (["close", "cl"],
    "22 27-29 5B 5D 7B 7D AB BB F3A-F3D 169B-169C 2018-201F 2039-203A 2045-2046 207D-207E
    208D-208E 2308-230B 2329-232A 275B-2760 2768-2775 27C5-27C6 27E6-27EF 2983-2998 29D8-29DB
    29FC-29FD 2E00-2E0D 2E1C-2E1D 2E20-2E29 2E42 2E55-2E5C 3008-3011 3014-301B 301D-301F
    FD3E-FD3F FE17-FE18 FE35-FE44 FE47-FE48 FE59-FE5E FF08-FF09 FF3B FF3D FF5B FF5D FF5F-FF60
    FF62-FF63 1F676-1F678"),
  (["cr"],
    "D"),
  (["lf"],
    "A"),
  (["scontinue", "sc"],
    "2C-2D 3A 55D 60C-60D 7F8 1802 1808 2013-2014 3001 FE10-FE11 FE13 FE31-FE32 FE50-FE51 FE55
    FE58 FE63 FF0C-FF0D FF1A FF64"),
  (["sep", "se"],
    "85 2028-2029"),
  (["sp"],
    "9 B-C 20 A0 1680 2000-200A 202F 205F 3000")]

/-- The small letters of sentences. -/
def sentenceLower : CharSet := lowercase.diff (graphemeExtend.union (ofText "10D0-10FF"))

/-- The capital letters of sentences. -/
def sentenceUpper : CharSet := (uppercase.union (category "lt")).diff (ofText "1C90-1CBF")

/-- What extends the character before it, in sentences. -/
def sentenceExtend : CharSet := unions [graphemeExtend, category "mc", listed "joincontrol"]

/-- The characters of a class of the breaks between sentences. -/
def sentenceBreak? (name : String) : Option CharSet :=
  match ofTable? sentenceBreakTable name with
  | some set => some set
  | none =>
    match name with
    | "extend" | "ex" => some sentenceExtend
    | "format" | "fo" => some ((category "cf").diff (ofText "200C-200D E0020-E007F"))
    | "lower" | "lo" => some sentenceLower
    | "upper" | "up" => some sentenceUpper
    | "oletter" | "le" =>
      some ((alphabetic.union (ofText "5F3")).diff
        (unions [sentenceLower, sentenceUpper, sentenceExtend]))
    | "numeric" | "nu" => some ((category "nd").union (ofText "66B-66C"))
    | "sterm" | "st" => some ((listed "sentenceterminal").diff (ofText "2E FE52 FF0E"))
    | _ => none

end LsxKit.CharSet
