import LsxKit.Xml.Event

/-!
# Attributes of a tag

Attributes are pairs of a key and a quoted value. Keys end at space or an equals sign; values
are kept as they are written. Space between attributes is not needed.

* `Tag.attributes`: the attributes of a tag up to the first fault, and that fault.
-/

namespace LsxKit.Xml

/-- An attribute as written: its key, and its value without the quotes. -/
structure RawAttribute where
  key : List Char
  value : List Char
  deriving Repr, DecidableEq

namespace Attribute

/-- What begins with an equals sign or a quote after optional space. -/
def skipSpace (cs : List Char) : List Char := cs.dropWhile isSpace

/-- Whether a character belongs to a key. -/
def inKey (c : Char) : Bool := c ≠ '=' && !isSpace c

theorem length_dropWhile_le (p : Char → Bool) (cs : List Char) :
    (cs.dropWhile p).length ≤ cs.length := by
  have := congrArg List.length (List.takeWhile_append_dropWhile (p := p) (l := cs))
  simp only [List.length_append] at this
  omega

/-- The value after an equals sign, or its fault; `total` is the size of the tag. -/
def value? (total : Nat) (cs : List Char) : Except AttributeFault (List Char × List Char) :=
  match skipSpace cs with
  | [] => .error (.missingValue total)
  | q :: cs =>
    if q = '"' ∨ q = '\'' then
      match cs.dropWhile (· ≠ q) with
      | [] => .error (.missingQuote total q)
      | _ :: rest => .ok (cs.takeWhile (· ≠ q), rest)
    else .error (.unquotedValue (total - Text.size (q :: cs)))

/-- What follows the equals sign after a key, or the fault if there is none. -/
def afterEquals? (total : Nat) (cs : List Char) : Except AttributeFault (List Char) :=
  match skipSpace cs with
  | [] => .error (.missingEquals total)
  | c :: rest =>
    if c = '=' then .ok rest else .error (.missingEquals (total - Text.size (c :: rest)))

theorem afterEquals?_length {total : Nat} {cs rest : List Char}
    (h : afterEquals? total cs = .ok rest) : rest.length < cs.length := by
  unfold afterEquals? at h
  split at h
  · contradiction
  · next c r hs =>
    split at h
    · injection h with h
      subst h
      have := length_dropWhile_le isSpace cs
      unfold skipSpace at hs
      rw [hs] at this
      simp only [List.length_cons] at this
      omega
    · contradiction

theorem value?_length {total : Nat} {cs v rest : List Char}
    (h : value? total cs = .ok (v, rest)) : rest.length < cs.length := by
  unfold value? at h
  split at h
  · contradiction
  · next q r hs =>
    split at h
    · split at h
      · contradiction
      · next c r' hr =>
        injection h with h
        injection h with h1 h2
        subst h2
        have h1 := length_dropWhile_le isSpace cs
        have h2 := length_dropWhile_le (· ≠ q) r
        unfold skipSpace at hs
        rw [hs] at h1
        rw [hr] at h2
        simp only [List.length_cons] at h1 h2
        omega
    · contradiction

/-- The attributes at the beginning of `cs`, a tail of a tag of `total` bytes. With `distinct`
set, a key that was read before is a fault; `seen` are those keys with the text that begins with
them. -/
def scan (distinct : Bool) (total : Nat) (seen : List (List Char × List Char)) (cs : List Char) :
    List RawAttribute × Option AttributeFault :=
  match _h : skipSpace cs with
  | [] => ([], none)
  | k :: r =>
    let key := k :: r.takeWhile inKey
    match _he : afterEquals? total (r.dropWhile inKey) with
    | .error fault => ([], some fault)
    | .ok r' =>
      match if distinct then seen.find? (·.1 = key) else none with
      | some (_, text) =>
        ([], some (.duplicate (total - Text.size (k :: r)) (total - Text.size text)))
      | none =>
        match _hv : value? total r' with
        | .error fault => ([], some fault)
        | .ok (value, rest) =>
          let (attributes, fault) := scan distinct total ((key, k :: r) :: seen) rest
          (⟨key, value⟩ :: attributes, fault)
termination_by cs.length
decreasing_by
  have h1 := length_dropWhile_le isSpace cs
  have h2 := length_dropWhile_le inKey r
  have h3 := afterEquals?_length _he
  have h4 := value?_length _hv
  unfold skipSpace at _h
  rw [_h] at h1
  simp only [List.length_cons] at h1
  omega

end Attribute

/-- The attributes of a tag up to the first fault, and that fault. -/
def Tag.attributes (t : Tag) : List RawAttribute × Option AttributeFault :=
  Attribute.scan true (Text.size t.content) [] t.rest

end LsxKit.Xml
