import LsxKit.Proofs.Version.Spelling

/-!
# Packed versions with a sign

A text without a dot is read as a packed number. Not only digits are read: one plus sign may stand
before them, which the numbers of a dotted version may not have.

* `SpellsPacked`: digits with a value of 64 bits.
* `packed?_eq_some_iff`: digits, or a plus sign and digits, are read.
* `parseAny_packed_iff`: what is read of a text without a dot, and that nothing but the plus sign
  keeps this from being the texts that are digits only.
* `not_parseAny_packed`: a plus sign is accepted.
-/

namespace LsxKit.Version

/-- Whether a text is a group of digits of which the value is the packed number `n`. -/
def SpellsPacked (s : List Char) (n : UInt64) : Prop := SpellsNumber s n.toNat

/-- Whether a text is a plus sign and a packed number after it. -/
def SpellsPlus (s : List Char) (n : UInt64) : Prop :=
  ∃ digits, s = '+' :: digits ∧ SpellsPacked digits n

variable {s : List Char} {n : UInt64}

/-- Digits do not begin with a sign. -/
theorem not_spellsNumber_plus {value : Nat} : ¬ SpellsNumber ('+' :: s) value := by
  intro h
  exact absurd (h.2.1 '+' List.mem_cons_self) (by decide)

theorem readSigned?_eq_some_iff {value : Nat} :
    Text.readSigned? s = some value ↔
      SpellsNumber s value ∨ ∃ digits, s = '+' :: digits ∧ SpellsNumber digits value := by
  by_cases hplus : ∃ digits, s = '+' :: digits
  · obtain ⟨digits, rfl⟩ := hplus
    simp [Text.readSigned?, readNat?_eq_some_iff, not_spellsNumber_plus]
  · have hread : Text.readSigned? s = Text.readNat? s :=
      Text.readSigned?.eq_2 s fun digits hs => hplus ⟨digits, hs⟩
    rw [hread, readNat?_eq_some_iff]
    refine ⟨.inl, fun h => h.resolve_right ?_⟩
    rintro ⟨digits, hs, -⟩
    exact hplus ⟨digits, hs⟩

/-- A packed number is read from its digits, with or without a plus sign before them. -/
theorem packed?_eq_some_iff : packed? s = some n ↔ SpellsPacked s n ∨ SpellsPlus s n := by
  have hvalue : packed? s = some n ↔ Text.readSigned? s = some n.toNat := by
    unfold packed?
    simp only [bind, Option.bind_eq_some_iff, Option.ite_none_right_eq_some, Option.some.injEq]
    constructor
    · rintro ⟨value, hvalue, hlt, rfl⟩
      rwa [UInt64.toNat_ofNat_of_lt' hlt]
    · intro h
      exact ⟨n.toNat, h, n.toNat_lt, UInt64.ofNat_toNat⟩
  exact hvalue.trans readSigned?_eq_some_iff

/-- A text without a dot is read as the version in a packed number, of which the digits stand in
it between blanks and after at most one plus sign; any other is refused with its own text. That the
texts that are read are digits between blanks, and nothing else, holds of exactly those that do not
have this plus sign. -/
theorem parseAny_packed_iff {text : String} (h : '.' ∉ text.toList) :
    let word := Text.trimBy Text.isBlank text.toList
    (∀ v, parseAny text = .ok v ↔
      ∃ n, (SpellsPacked word n ∨ SpellsPlus word n) ∧ unpack n = v) ∧
    (∀ e, parseAny text = .error e → e = .packedVersion text) ∧
    ((∀ v, parseAny text = .ok v ↔ ∃ n, SpellsPacked word n ∧ unpack n = v) ↔
      ¬ ∃ n, SpellsPlus word n) := by
  intro word
  have hpacked : parseAny text = parsePacked text := if_neg h
  have hread : ∀ v, parseAny text = .ok v ↔
      ∃ n, (SpellsPacked word n ∨ SpellsPlus word n) ∧ unpack n = v := by
    intro v
    rw [hpacked, parsePacked_eq_ok_iff]
    exact exists_congr fun n => and_congr_left' packed?_eq_some_iff
  refine ⟨hread, fun e he => ?_, fun hdigits => ?_, fun hplus v => ?_⟩
  · rw [hpacked, parsePacked] at he
    cases hword : packed? word with
    | none => simpa [word, hword, eq_comm] using he
    | some n => simp [word, hword] at he
  · rintro ⟨n, hn⟩
    -- a text with the sign is read, and it is not digits only
    obtain ⟨m, hm, -⟩ := (hdigits _).1 ((hread _).2 ⟨n, .inr hn, rfl⟩)
    obtain ⟨digits, hword, -⟩ := hn
    rw [hword] at hm
    exact not_spellsNumber_plus hm
  · rw [hread]
    exact exists_congr fun n => and_congr_left' (or_iff_left fun hn => hplus ⟨n, hn⟩)

/-- Zeros before the digits and blanks around them do not matter, and neither does a plus sign. -/
theorem parseAny_packed_plus :
    '.' ∉ "\u2003+0036028797018963968\n".toList ∧
      parseAny "\u2003+0036028797018963968\n" = .ok ⟨1, 0, 0, 0⟩ := by
  have hdot : '.' ∉ "\u2003+0036028797018963968\n".toList := by decide
  refine ⟨hdot, ((parseAny_packed_iff hdot).1 _).2 ⟨36028797018963968, .inr ?_, by decide⟩⟩
  exact ⟨"0036028797018963968".toList, by decide +kernel, by decide,
    List.all_eq_true.1 (by decide), by decide +kernel⟩

/-- A packed number with a plus sign is read, although it is not digits only. -/
theorem not_parseAny_packed :
    ¬ ∀ text : String, '.' ∉ text.toList → ∀ v, parseAny text = .ok v ↔
      ∃ n, SpellsPacked (Text.trimBy Text.isBlank text.toList) n ∧ unpack n = v := by
  intro hall
  have hread : parseAny "+5" = .ok (unpack 5) := by decide +kernel
  obtain ⟨n, hn, -⟩ := (hall "+5" (by decide) _).1 hread
  exact not_spellsNumber_plus hn

end LsxKit.Version
