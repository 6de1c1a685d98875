import LsxKit.Proofs.Text.Trim
import LsxKit.Proofs.Version.Packing
import Mathlib.Data.List.Forall2

/-!
# Spelled versions

A version is spelled by its four numbers in decimal digits with dots between them, or by the digits
of its packed number. Either text is read back as the version, and what is read with dots are
exactly four groups of digits, leading zeros and blanks around the whole allowed.

* `SpellsNumber`, `Spells`: a group of digits, and groups of digits with dots between them.
* `ofDotted?_eq_some_iff`: a text spells the version that is read from it.
* `spells_render`: the dotted text of a version spells its numbers.
* `packed?_digits`: a packed number is read from its digits.
* `parse_spelling`: what is read of either text of a version, and which texts are read with dots.
-/

namespace LsxKit.Version

/-- Whether a text is a group of ASCII digits that is not empty, of which the value is `n`. -/
def SpellsNumber (s : List Char) (n : Nat) : Prop :=
  s ≠ [] ∧ (∀ c ∈ s, c.isDigit = true) ∧ Nat.ofDigitChars 10 s 0 = n

/-- Whether a text is groups of digits with single dots between them, of which the values are
`ns`. -/
def Spells (s : List Char) (ns : List Nat) : Prop :=
  ∃ groups : List (List Char), s = ['.'].intercalate groups ∧ List.Forall₂ SpellsNumber groups ns

variable {s : List Char} {v : Version}

/-! ## One number -/

theorem readNat?_eq_some_iff {n : Nat} : Text.readNat? s = some n ↔ SpellsNumber s n := by
  unfold Text.readNat? SpellsNumber
  simp only [List.all_eq_true, Option.ite_none_right_eq_some, Option.some.injEq, and_assoc]

/-- A number is read if it has room in 32 bits. -/
theorem number?_eq_some_iff {x : UInt32} : number? s = some x ↔ SpellsNumber s x.toNat := by
  unfold number?
  simp only [bind, Option.bind_eq_some_iff, Option.ite_none_right_eq_some, Option.some.injEq,
    readNat?_eq_some_iff]
  constructor
  · rintro ⟨n, hn, hlt, rfl⟩
    rwa [UInt32.toNat_ofNat_of_lt' hlt]
  · intro h
    exact ⟨x.toNat, h, x.toNat_lt, UInt32.ofNat_toNat⟩

/-- The digits of a number spell it. -/
theorem spellsNumber_toDigits (n : Nat) : SpellsNumber (Nat.toDigits 10 n) n :=
  readNat?_eq_some_iff.1 (Text.readNat?_toDigits n)

theorem not_mem_of_spellsNumber {n : Nat} (h : SpellsNumber s n) : '.' ∉ s := by
  intro hdot
  exact absurd (h.2.1 '.' hdot) (by decide)

/-! ## Numbers with dots between them -/

/-- The text without blanks around it from which a version is read spells its numbers. -/
theorem ofDotted?_eq_some_iff : ofDotted? s = some v ↔ Spells s v.numbers := by
  constructor
  · intro h
    unfold ofDotted? at h
    split at h
    · next a b c d hsplit =>
      simp only [bind, Option.bind_eq_some_iff, pure, Option.some.injEq, number?_eq_some_iff] at h
      obtain ⟨major, hmajor, minor, hminor, revision, hrevision, build, hbuild, rfl⟩ := h
      refine ⟨[a, b, c, d], ?_, .cons hmajor (.cons hminor (.cons hrevision (.cons hbuild .nil)))⟩
      rw [← hsplit, List.intercalate_splitOn]
    · contradiction
  · rintro ⟨groups, rfl, hgroups⟩
    obtain ⟨major, minor, revision, build⟩ := v
    rcases hgroups with - | ⟨hmajor, - | ⟨hminor, - | ⟨hrevision, - | ⟨hbuild, ⟨⟩⟩⟩⟩⟩
    -- no group has a dot, so the text is taken apart where it was put together
    rw [ofDotted?, List.splitOn_intercalate '.' (by simp [not_mem_of_spellsNumber hmajor,
      not_mem_of_spellsNumber hminor, not_mem_of_spellsNumber hrevision,
      not_mem_of_spellsNumber hbuild]) (by simp)]
    simp [number?_eq_some_iff.2 hmajor, number?_eq_some_iff.2 hminor,
      number?_eq_some_iff.2 hrevision, number?_eq_some_iff.2 hbuild]

theorem parseDotted_eq_ok_iff {text : String} :
    parseDotted text = .ok v ↔ Spells (Text.trimBy Text.isBlank text.toList) v.numbers := by
  rw [← ofDotted?_eq_some_iff, parseDotted]
  cases ofDotted? (Text.trimBy Text.isBlank text.toList) <;> simp

/-- A text spells the numbers of a version exactly if it spells four numbers of 32 bits. -/
theorem exists_spells_iff :
    (∃ v : Version, Spells s v.numbers) ↔
      ∃ ns, ns.length = 4 ∧ (∀ n ∈ ns, n < UInt32.size) ∧ Spells s ns := by
  constructor
  · rintro ⟨v, hv⟩
    refine ⟨v.numbers, rfl, ?_, hv⟩
    simp only [numbers, List.forall_mem_cons, List.not_mem_nil, false_implies, implies_true,
      and_true]
    exact ⟨v.major.toNat_lt, v.minor.toNat_lt, v.revision.toNat_lt, v.build.toNat_lt⟩
  · rintro ⟨ns, hlength, hlt, hs⟩
    obtain ⟨a, b, c, d, rfl⟩ := List.length_eq_four.1 hlength
    refine ⟨⟨.ofNat a, .ofNat b, .ofNat c, .ofNat d⟩, ?_⟩
    have hvalue : ∀ n ∈ [a, b, c, d], (UInt32.ofNat n).toNat = n :=
      fun n hn => UInt32.toNat_ofNat_of_lt' (hlt n hn)
    simp only [List.forall_mem_cons, List.not_mem_nil, false_implies, implies_true,
      and_true] at hvalue
    simpa only [numbers, hvalue] using hs

/-! ## The texts of a version -/

theorem toList_toString (n : Nat) : (toString n).toList = Nat.toDigits 10 n := by
  rw [Nat.toString_eq_repr, Nat.repr_eq_ofList_toDigits, String.toList_ofList]

theorem toList_render (v : Version) :
    v.render.toList = ['.'].intercalate (v.numbers.map (Nat.toDigits 10)) := by
  have hdot : (toString ".").toList = ['.'] := rfl
  simp [render, numbers, hdot]

/-- The dotted text of a version spells its numbers. -/
theorem spells_render (v : Version) : Spells v.render.toList v.numbers := by
  refine ⟨v.numbers.map (Nat.toDigits 10), toList_render v, List.forall₂_map_left_iff.2 ?_⟩
  exact List.forall₂_same.2 fun n _ => spellsNumber_toDigits n

theorem trimBy_digits (n : Nat) :
    Text.trimBy Text.isBlank (Nat.toDigits 10 n) = Nat.toDigits 10 n :=
  Text.trimBy_of_forall fun c hc => Text.isBlank_of_isDigit ((spellsNumber_toDigits n).2.1 c hc)

/-- No blank stands at an end of the dotted text of a version. -/
theorem trimBy_render (v : Version) :
    Text.trimBy Text.isBlank v.render.toList = v.render.toList := by
  rw [toList_render]
  apply Text.trimBy_of_forall
  refine Text.forall_mem_intercalate (P := fun c => Text.isBlank c = false) (by decide) ?_
  intro group hgroup c hc
  obtain ⟨n, -, rfl⟩ := List.mem_map.1 hgroup
  exact Text.isBlank_of_isDigit ((spellsNumber_toDigits n).2.1 c hc)

theorem parseDotted_render (v : Version) : parseDotted v.render = .ok v := by
  rw [parseDotted_eq_ok_iff, trimBy_render]
  exact spells_render v

/-- A packed number is read from its digits: no sign stands before them. -/
theorem packed?_digits (n : UInt64) : packed? (Nat.toDigits 10 n.toNat) = some n := by
  have hsigned : Text.readSigned? (Nat.toDigits 10 n.toNat) = some n.toNat := by
    rw [Text.readSigned?.eq_2, Text.readNat?_toDigits]
    intro s hs
    exact absurd ((spellsNumber_toDigits n.toNat).2.1 '+' (hs ▸ List.mem_cons_self)) (by decide)
  rw [packed?, hsigned]
  simp [n.toNat_lt]

theorem parsePacked_eq_ok_iff {text : String} :
    parsePacked text = .ok v ↔
      ∃ n, packed? (Text.trimBy Text.isBlank text.toList) = some n ∧ unpack n = v := by
  unfold parsePacked
  cases packed? (Text.trimBy Text.isBlank text.toList) <;> simp

/-- The digits of a packed number are read as the version that it holds. -/
theorem parseAny_digits (n : UInt64) : parseAny (toString n.toNat) = .ok (unpack n) := by
  have hdot : '.' ∉ (toString n.toNat).toList := by
    rw [toList_toString]
    exact not_mem_of_spellsNumber (spellsNumber_toDigits n.toNat)
  rw [parseAny, if_neg hdot, parsePacked_eq_ok_iff, toList_toString, trimBy_digits]
  exact ⟨n, packed?_digits n, rfl⟩

/-- A version is read back from its dotted text, and, if it fits, from the digits of its packed
number. A text is read as a dotted version exactly if, without the blanks around it, it is four
groups of digits with values of 32 bits, and then these values are the numbers of the version. -/
theorem parse_spelling :
    (∀ v : Version, parseDotted v.render = .ok v ∧ parseAny v.render = .ok v) ∧
      (∀ v : Version, v.fits = true → parseAny (toString v.pack.toNat) = .ok v) ∧
      ∀ text : String,
        ((∃ v, parseDotted text = .ok v) ↔
          ∃ ns, ns.length = 4 ∧ (∀ n ∈ ns, n < UInt32.size) ∧
            Spells (Text.trimBy Text.isBlank text.toList) ns) ∧
        ∀ v, parseDotted text = .ok v ↔
          Spells (Text.trimBy Text.isBlank text.toList) v.numbers := by
  refine ⟨fun v => ⟨parseDotted_render v, ?_⟩, fun v hv => ?_, fun text => ⟨?_, fun v =>
    parseDotted_eq_ok_iff⟩⟩
  · have hdot : '.' ∈ v.render.toList := by
      simp [toList_render, numbers, List.intercalate_cons_cons]
    rw [parseAny, if_pos hdot, parseDotted_render]
  · rw [parseAny_digits, unpack_pack hv]
  · rw [← exists_spells_iff]
    exact exists_congr fun v => parseDotted_eq_ok_iff

/-- Leading zeros and blanks of any kind do not matter; the packed text has no dot. -/
theorem parse_spelling_zeros :
    parseDotted "\u2003001.4294967295.0.0007\n" = .ok ⟨1, 4294967295, 0, 7⟩ ∧
      (⟨511, 255, 65535, 2147483647⟩ : Version).fits = true ∧
      parseAny (toString (⟨511, 255, 65535, 2147483647⟩ : Version).pack.toNat) =
        .ok ⟨511, 255, 65535, 2147483647⟩ := by
  have htext : Spells (Text.trimBy Text.isBlank "\u2003001.4294967295.0.0007\n".toList)
      (⟨1, 4294967295, 0, 7⟩ : Version).numbers := by
    refine ⟨["001".toList, "4294967295".toList, "0".toList, "0007".toList], by decide +kernel, ?_⟩
    refine .cons ?_ (.cons ?_ (.cons ?_ (.cons ?_ .nil)))
    all_goals
      exact ⟨by decide +kernel, List.all_eq_true.1 (by decide +kernel), by decide +kernel⟩
  exact ⟨((parse_spelling.2.2 _).2 _).2 htext, by decide, parse_spelling.2.1 _ (by decide)⟩

end LsxKit.Version
