import LsxKit.Diagnosis.Locate
import LsxKit.Proofs.Text.Trim
import Mathlib.Data.List.Basic
import Mathlib.Data.Option.Basic
import Mathlib.Tactic.SplitIfs

/-!
# Columns of attributes

An attribute is looked for in the characters of a line, from a column on: the first place counts at
which one can begin and one with its name is written.

* `Written`: an attribute as it is written.
* `attributeLength?_eq_some_iff`: how long the attribute is with which some characters begin.
* `findAttribute?_eq_some_iff`: the attribute that is found is the first one.
* `columns_locateAttribute_eq_some_iff`: its columns on the line of its tag.
* `written_of_locateAttribute`: an attribute of the name is written there.
-/

namespace LsxKit.Locator

/-- Whether some characters are an attribute as it is written: its name, an equals sign with blanks
around it, and a complete quoted value. -/
def Written (name source : List Char) : Prop :=
  ∃ blanks blanks' quote value,
    source = name ++ (blanks ++ '=' :: (blanks' ++ quote :: (value ++ [quote]))) ∧
      (∀ c ∈ blanks, Text.isBlank c = true) ∧ (∀ c ∈ blanks', Text.isBlank c = true) ∧
      (quote = '"' ∨ quote = '\'') ∧ quote ∉ value

/-- Whether an attribute can begin after the characters `before`: at the start of the search, after
a blank and after an opening bracket. -/
def canBegin (before : List Char) : Bool :=
  before.getLast?.all fun c => Text.isBlank c || c = '<'

variable {name s rest source : List Char} {n column start : Nat}

/-! ## An attribute at the beginning -/

theorem dropWord?_eq_some_iff {w : List Char} : dropWord? w s = some rest ↔ s = w ++ rest := by
  induction w generalizing s with
  | nil => simp [dropWord?]
  | cons c w ih =>
    cases s with
    | nil => simp [dropWord?]
    | cons c' s =>
      rw [dropWord?]
      split_ifs with hc
      · rw [ih, hc]
        simp
      · refine iff_of_false not_false fun h => hc ?_
        exact (List.cons.inj h).1.symm

/-- What is left after the characters of a class begins with the first that is not in it. -/
theorem dropWhile_eq_cons_iff {p : Char → Bool} {c : Char} :
    s.dropWhile p = c :: rest ↔
      ∃ a, s = a ++ c :: rest ∧ (∀ d ∈ a, p d = true) ∧ p c = false := by
  constructor
  · intro h
    have hsplit := List.takeWhile_append_dropWhile (p := p) (l := s)
    rw [h] at hsplit
    exact ⟨s.takeWhile p, hsplit.symm, List.all_eq_true.1 List.all_takeWhile,
      Text.head?_dropWhile s c (by rw [h]; rfl)⟩
  · rintro ⟨a, rfl, ha, hc⟩
    exact Text.dropWhile_all_append ha (by simpa using hc)

theorem length_pos_of_written (h : Written name source) : 0 < source.length := by
  obtain ⟨blanks, blanks', quote, value, rfl, -⟩ := h
  simp only [List.length_append, List.length_cons]
  omega

/-- An attribute is read in three steps: up to its name, its equals sign and its quote. -/
theorem attributeLength?_eq_some_iff_parts :
    attributeLength? name s = some n ↔
      ∃ t u quote v rest, s = name ++ t ∧ t.dropWhile Text.isBlank = '=' :: u ∧
        u.dropWhile Text.isBlank = quote :: v ∧ (quote = '"' ∨ quote = '\'') ∧
        v.dropWhile (· ≠ quote) = quote :: rest ∧ s.length - rest.length = n := by
  simp only [attributeLength?, Option.bind_eq_bind, Option.bind_eq_some_iff,
    dropWord?_eq_some_iff]
  constructor
  · rintro ⟨t, ht, u, hu, h⟩
    split at h
    · next quote v hv =>
      split_ifs at h with hquote
      split at h
      · next c rest hrest =>
        obtain ⟨-, -, -, hc⟩ := dropWhile_eq_cons_iff.1 hrest
        obtain rfl : c = quote := by simpa using hc
        exact ⟨t, u, c, v, rest, ht, hu, hv, hquote, hrest, Option.some.inj h⟩
      · contradiction
    · contradiction
  · rintro ⟨t, u, quote, v, rest, ht, hu, hv, hquote, hrest, hn⟩
    refine ⟨t, ht, u, hu, ?_⟩
    rw [hv]
    simp only [hquote, if_true, hrest, hn]

/-- Some characters begin with an attribute of a length exactly if one is written there. -/
theorem attributeLength?_eq_some_iff :
    attributeLength? name s = some n ↔
      ∃ source rest, s = source ++ rest ∧ source.length = n ∧ Written name source := by
  rw [attributeLength?_eq_some_iff_parts]
  constructor
  · rintro ⟨t, u, quote, v, rest, rfl, ht, hu, hquote, hv, rfl⟩
    obtain ⟨blanks, rfl, hblanks, -⟩ := dropWhile_eq_cons_iff.1 ht
    obtain ⟨blanks', rfl, hblanks', -⟩ := dropWhile_eq_cons_iff.1 hu
    obtain ⟨value, rfl, hvalue, -⟩ := dropWhile_eq_cons_iff.1 hv
    refine ⟨_, rest, ?_, ?_, blanks, blanks', quote, value, rfl, hblanks, hblanks', hquote, ?_⟩
    · simp
    · simp only [List.length_append, List.length_cons, List.length_nil]
      omega
    · intro hmem
      simpa using hvalue quote hmem
  · rintro ⟨_, rest, rfl, rfl, blanks, blanks', quote, value, rfl, hblanks, hblanks', hquote,
      hvalue⟩
    have hne : Text.isBlank quote = false := by
      rcases hquote with rfl | rfl <;> decide
    refine ⟨_, _, quote, _, rest, ?_, dropWhile_eq_cons_iff.2 ⟨blanks, rfl, hblanks, by decide⟩,
      dropWhile_eq_cons_iff.2 ⟨blanks', rfl, hblanks', hne⟩, hquote,
      dropWhile_eq_cons_iff.2 ⟨value, rfl, ?_, by simp⟩, ?_⟩
    · simp
    · intro c hc
      exact decide_eq_true fun heq => hvalue (heq ▸ hc)
    · simp only [List.length_append, List.length_cons, List.length_nil]
      omega

/-! ## The first attribute -/

theorem canBegin_concat (before : List Char) (c : Char) :
    canBegin (before ++ [c]) = (Text.isBlank c || c = '<') := by
  simp [canBegin]

/-- Whether the first attribute of a name in the text `s`, which stands after the characters
`before`, is one of length `n` after `skipped`: it can begin there, and where one can begin in
`skipped`, there is none of the name. -/
structure FirstAfter (name before s skipped : List Char) (n : Nat) : Prop where
  begins : canBegin (before ++ skipped) = true
  found : ∃ rest, s = skipped ++ rest ∧ attributeLength? name rest = some n
  first : ∀ p t, p ++ t = s → p.length < skipped.length → canBegin (before ++ p) = true →
    attributeLength? name t = none

/-- Where an attribute can begin and one is written, it is the first one. -/
theorem firstAfter_here {before : List Char} {m : Nat} (hbegin : canBegin before = true)
    (hlength : attributeLength? name s = some m) {skipped : List Char} :
    FirstAfter name before s skipped n ↔ skipped = [] ∧ n = m := by
  constructor
  · intro h
    obtain ⟨rest, hs, hfound⟩ := h.found
    cases skipped with
    | nil =>
      obtain rfl : s = rest := hs
      exact ⟨rfl, Option.some.inj (hfound.symm.trans hlength)⟩
    | cons c skipped =>
      have hnone := h.first [] s rfl (Nat.succ_pos _) (by rwa [List.append_nil])
      rw [hlength] at hnone
      contradiction
  · rintro ⟨rfl, rfl⟩
    refine ⟨by rwa [List.append_nil], ⟨s, rfl, hlength⟩, fun p t _ hp _ => ?_⟩
    exact absurd hp (Nat.not_lt_zero _)

/-- Where there is none, the first one is that after the next character. -/
theorem firstAfter_cons {before : List Char} {c : Char}
    (hnone : canBegin before = true → attributeLength? name (c :: s) = none)
    {skipped : List Char} :
    FirstAfter name before (c :: s) skipped n ↔
      ∃ skipped', skipped = c :: skipped' ∧ FirstAfter name (before ++ [c]) s skipped' n := by
  constructor
  · intro h
    obtain ⟨rest, hs, hfound⟩ := h.found
    cases skipped with
    | nil =>
      obtain rfl : c :: s = rest := hs
      have hbegin := h.begins
      rw [List.append_nil] at hbegin
      rw [hnone hbegin] at hfound
      contradiction
    | cons c' skipped =>
      obtain ⟨rfl, rfl⟩ := List.cons.inj hs
      refine ⟨skipped, rfl, ?_, ⟨rest, rfl, hfound⟩, fun p t ht hp hbegin => ?_⟩
      · simpa using h.begins
      · exact h.first (c :: p) t (by rw [List.cons_append, ht]) (Nat.succ_lt_succ hp)
          (by simpa using hbegin)
  · rintro ⟨skipped, rfl, h⟩
    obtain ⟨rest, rfl, hfound⟩ := h.found
    refine ⟨by simpa using h.begins, ⟨rest, rfl, hfound⟩, fun p t ht hp hbegin => ?_⟩
    cases p with
    | nil =>
      obtain rfl : t = c :: (skipped ++ rest) := ht
      exact hnone (by rwa [List.append_nil] at hbegin)
    | cons c' p =>
      obtain ⟨rfl, hrest⟩ := List.cons.inj ht
      exact h.first p t hrest (Nat.lt_of_succ_lt_succ hp) (by simpa using hbegin)

theorem attributeLength?_nil : attributeLength? name [] = none := by
  cases h : attributeLength? name [] with
  | none => rfl
  | some n =>
    obtain ⟨source, rest, hs, -, hwritten⟩ := attributeLength?_eq_some_iff.1 h
    obtain ⟨rfl, -⟩ := List.append_eq_nil_iff.1 hs.symm
    exact absurd (length_pos_of_written hwritten) (Nat.lt_irrefl 0)

/-- The search ends where an attribute can begin and one is written. -/
theorem findAttribute?_here (hlength : attributeLength? name s = some n) :
    findAttribute? name column true s = some (column, n) := by
  rw [findAttribute?.eq_def]
  simp only [if_true, hlength]

/-- It goes on where there is none. -/
theorem findAttribute?_cons {begins : Bool} {c : Char}
    (hnone : begins = true → attributeLength? name (c :: s) = none) :
    findAttribute? name column begins (c :: s) =
      findAttribute? name (column + 1) (Text.isBlank c || c = '<') s := by
  have hfirst : (if begins = true then attributeLength? name (c :: s) else none) = none := by
    split_ifs with hbegin
    · exact hnone hbegin
    · rfl
  rw [findAttribute?.eq_def]
  simp only [hfirst]

/-- The attribute that is found is the first one. -/
theorem findAttribute?_eq_some_iff (before : List Char) :
    findAttribute? name column (canBegin before) s = some (start, n) ↔
      ∃ skipped, column + skipped.length = start ∧ FirstAfter name before s skipped n := by
  induction s generalizing before column with
  | nil =>
    have hnot : findAttribute? name column (canBegin before) [] = none := by
      rw [findAttribute?]
      simp [attributeLength?_nil]
    rw [hnot]
    refine iff_of_false (Option.some_ne_none _).symm ?_
    rintro ⟨skipped, -, h⟩
    obtain ⟨rest, hs, hfound⟩ := h.found
    obtain ⟨-, rfl⟩ := List.append_eq_nil_iff.1 hs.symm
    rw [attributeLength?_nil] at hfound
    contradiction
  | cons c s ih =>
    by_cases h : canBegin before = true ∧ (attributeLength? name (c :: s)).isSome
    · obtain ⟨hbegin, hsome⟩ := h
      obtain ⟨m, hlength⟩ := Option.isSome_iff_exists.1 hsome
      rw [hbegin, findAttribute?_here hlength]
      simp only [firstAfter_here hbegin hlength, Option.some.injEq, Prod.mk.injEq]
      constructor
      · rintro ⟨rfl, rfl⟩
        exact ⟨[], rfl, rfl, rfl⟩
      · rintro ⟨_, hstart, rfl, rfl⟩
        exact ⟨hstart, rfl⟩
    · have hnone : canBegin before = true → attributeLength? name (c :: s) = none := by
        intro hbegin
        exact Option.not_isSome_iff_eq_none.1 fun hsome => h ⟨hbegin, hsome⟩
      rw [findAttribute?_cons hnone, ← canBegin_concat before c, ih]
      simp only [firstAfter_cons hnone]
      constructor
      · rintro ⟨skipped, hstart, hfirst⟩
        exact ⟨c :: skipped, by rw [List.length_cons]; omega, skipped, rfl, hfirst⟩
      · rintro ⟨_, hstart, skipped, rfl, hfirst⟩
        exact ⟨skipped, by rw [List.length_cons] at hstart; omega, hfirst⟩

/-! ## The columns -/

variable {l : Locator} {anchor : Option Anchor} {k : String} {stop : Nat}

/-- An attribute has the columns of the one that is found on the line of its tag, if its name can
be looked for. -/
theorem columns_locateAttribute_eq_some_iff :
    (l.locateAttribute anchor k).columns = some (start, stop) ↔
      ∃ text, l.lines[(place anchor).1]? = some text ∧ isSearchable k = true ∧
        ∃ n, findAttribute? k.toList (place anchor).2 true (text.drop (place anchor).2) =
          some (start, n) ∧ start + n = stop := by
  simp only [locateAttribute, Option.bind_eq_bind, Option.bind_eq_some_iff, Option.guard_eq_some',
    Prod.exists, pure, Option.some.injEq, Prod.mk.injEq]
  constructor
  · rintro ⟨text, htext, -, hsearchable, _, n, hfound, rfl, rfl⟩
    exact ⟨text, htext, hsearchable, n, hfound, rfl⟩
  · rintro ⟨text, htext, hsearchable, n, hfound, rfl⟩
    exact ⟨text, htext, (), hsearchable, start, n, hfound, rfl, rfl⟩

/-- The columns of an attribute are those of one that is written on the line. -/
theorem written_of_locateAttribute
    (h : (l.locateAttribute anchor k).columns = some (start, stop)) :
    ∃ text, l.lines[(place anchor).1]? = some text ∧ start < stop ∧ stop ≤ text.length ∧
      Written k.toList ((text.drop start).take (stop - start)) := by
  obtain ⟨text, htext, -, n, hfound, rfl⟩ := columns_locateAttribute_eq_some_iff.1 h
  obtain ⟨skipped, rfl, hfirst⟩ := (findAttribute?_eq_some_iff []).1 hfound
  obtain ⟨rest, hrest, hlength⟩ := hfirst.found
  obtain ⟨source, after, rfl, rfl, hwritten⟩ := attributeLength?_eq_some_iff.1 hlength
  have hpos := length_pos_of_written hwritten
  have hle := congrArg List.length hrest
  simp only [List.length_drop, List.length_append] at hle
  refine ⟨text, htext, by omega, by omega, ?_⟩
  have hsource : (text.drop ((place anchor).2 + skipped.length)).take source.length = source := by
    rw [← List.drop_drop, hrest, List.drop_left, List.take_left]
  rwa [Nat.add_sub_cancel_left, hsource]

end LsxKit.Locator
