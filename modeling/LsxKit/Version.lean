import LsxKit.Error
import LsxKit.Text.Blank
import LsxKit.Text.Digits

/-!
# Packed versions

A version has four numbers: major, minor, revision and build. Packed into 64 bits they take the
bits from 55, 47, 31 and 0 on, so they have 9, 8, 16 and 31 bits.

* `Version.pack`, `Version.unpack`: the packed number and back.
* `Version.fits`: whether every number has room in its bits.
* `Version.bump`: the next version of a kind.
* `Version.parseDotted?`, `parsePacked?`, `parseAny`: reading either form.
-/

namespace LsxKit

/-- Which number of a version is bumped. -/
inductive VersionKind where
  | major
  | minor
  | revision
  | build
  deriving Repr, DecidableEq

namespace VersionKind

/-- All kinds, the most significant first. -/
def all : List VersionKind := [.major, .minor, .revision, .build]

/-- The name of a kind. -/
def name : VersionKind → String
  | .major => "major"
  | .minor => "minor"
  | .revision => "revision"
  | .build => "build"

/-- The lowest bit of the number in a packed version. -/
def shift : VersionKind → Nat
  | .major => 55
  | .minor => 47
  | .revision => 31
  | .build => 0

/-- The kind with a name, whatever the case of its letters and the blanks around it. -/
def parse (s : String) : Except Error VersionKind :=
  let word := (Text.trimBy Text.isBlank s.toList).map Char.toLower
  match all.find? (·.name.toList = word) with
  | some kind => .ok kind
  | none => .error (.versionKind s)

end VersionKind

/-- A version. -/
structure Version where
  major : UInt32
  minor : UInt32
  revision : UInt32
  build : UInt32
  deriving Repr, DecidableEq

namespace Version

/-- The version of a new mod. -/
def initial : Version := ⟨1, 0, 0, 0⟩

instance : Inhabited Version := ⟨initial⟩

/-- The version that a packed number holds. -/
def unpack (n : UInt64) : Version where
  major := .ofNat (n.toNat >>> 55)
  minor := .ofNat (n.toNat >>> 47 % 0x100)
  revision := .ofNat (n.toNat >>> 31 % 0x10000)
  build := .ofNat (n.toNat % 0x80000000)

/-- The packed number. A number without room in its bits spills into its neighbour. -/
def pack (v : Version) : UInt64 :=
  .ofNat (v.major.toNat <<< 55 + v.minor.toNat <<< 47 + v.revision.toNat <<< 31 + v.build.toNat)

/-- Whether every number has room in its bits. -/
def fits (v : Version) : Bool :=
  v.major.toNat < 0x200 && v.minor.toNat < 0x100 && v.revision.toNat < 0x10000 &&
    v.build.toNat < 0x80000000

/-- The next version of a kind: its number grows by one and the less significant ones are zero. -/
def bump (v : Version) : VersionKind → Version
  | .major => ⟨v.major + 1, 0, 0, 0⟩
  | .minor => ⟨v.major, v.minor + 1, 0, 0⟩
  | .revision => ⟨v.major, v.minor, v.revision + 1, 0⟩
  | .build => ⟨v.major, v.minor, v.revision, v.build + 1⟩

/-- The numbers, the most significant first. -/
def numbers (v : Version) : List Nat :=
  [v.major.toNat, v.minor.toNat, v.revision.toNat, v.build.toNat]

/-- The order of versions: the first number that differs decides. -/
def compare (v w : Version) : Ordering :=
  (Ord.compare v.major.toNat w.major.toNat).then <|
    (Ord.compare v.minor.toNat w.minor.toNat).then <|
      (Ord.compare v.revision.toNat w.revision.toNat).then <|
        Ord.compare v.build.toNat w.build.toNat

/-- The numbers with dots between them. -/
def render (v : Version) : String :=
  s!"{v.major.toNat}.{v.minor.toNat}.{v.revision.toNat}.{v.build.toNat}"

/-- A number of 32 bits in ASCII digits. -/
def number? (s : List Char) : Option UInt32 := do
  let n ← Text.readNat? s
  if n < UInt32.size then some (.ofNat n) else none

/-- The version that a text without blanks around it spells with dots. -/
def ofDotted? (s : List Char) : Option Version :=
  match s.splitOn '.' with
  | [a, b, c, d] => do
    return ⟨← number? a, ← number? b, ← number? c, ← number? d⟩
  | _ => none

/-- Reads four numbers with dots between them. -/
def parseDotted (s : String) : Except Error Version :=
  match ofDotted? (Text.trimBy Text.isBlank s.toList) with
  | some v => .ok v
  | none => .error (.dottedVersion s)

/-- A number of 64 bits in ASCII digits, with or without a plus sign. -/
def packed? (s : List Char) : Option UInt64 := do
  let n ← Text.readSigned? s
  if n < UInt64.size then some (.ofNat n) else none

/-- Reads a packed version. -/
def parsePacked (s : String) : Except Error Version :=
  match packed? (Text.trimBy Text.isBlank s.toList) with
  | some n => .ok (unpack n)
  | none => .error (.packedVersion s)

/-- Reads either form: the dotted one if there is a dot. -/
def parseAny (s : String) : Except Error Version :=
  if '.' ∈ s.toList then parseDotted s else parsePacked s

end Version

end LsxKit
