import LsxKit.Proofs.Version.Spelling
import LsxKit.Version.Line

/-!
# Reading the version from a line

The version is read from the first element of the right form in a line. No such element begins in a
text in which every opening bracket has another letter after it, so what follows that text is read
as if it stood alone.

* `Calm`: the texts in which no element of the form begins.
* `firstDigits?_append`: such a text is skipped.
* `elementChars`: the element with the digits of a version, as it is written.
* `inLine?_written`: a version that is written in a line after such a text is read from the line.
-/

namespace LsxKit.Version

variable {s t digits : List Char} {c : Char}

/-! ## Texts without the element -/

/-- Whether every opening bracket in a text has a letter after it with which the name of the element
does not begin. -/
def Calm : List Char → Prop
  | [] => True
  | c :: s => (c = '<' → ∃ d ∈ s.head?, d ≠ 'a') ∧ Calm s

theorem calm_of_not_mem (h : '<' ∉ s) : Calm s := by
  induction s with
  | nil => trivial
  | cons c s ih =>
    rw [List.mem_cons, not_or] at h
    exact ⟨fun hc => absurd hc.symm h.1, ih h.2⟩

theorem calm_append (hs : Calm s) (ht : Calm t) : Calm (s ++ t) := by
  induction s with
  | nil => exact ht
  | cons c s ih =>
    refine ⟨fun hc => ?_, ih hs.2⟩
    obtain ⟨d, hd, hne⟩ := hs.1 hc
    exact ⟨d, List.mem_head?_append_of_mem_head? hd, hne⟩

theorem calm_of_append (h : Calm (s ++ t)) : Calm t := by
  induction s with
  | nil => exact h
  | cons c s ih => exact ih h.2

/-! ## The first element -/

theorem elementDigits?_eq_none (h : c = '<' → ∃ d ∈ s.head?, d ≠ 'a') :
    elementDigits? (c :: s) = none := by
  have hword : "<attribute".toList = '<' :: 'a' :: "ttribute".toList := rfl
  have hdrop : dropExact? "<attribute".toList (c :: s) = none := by
    rw [hword, dropExact?]
    split_ifs with hc
    · obtain ⟨d, hd, hne⟩ := h hc.symm
      obtain ⟨rest, rfl⟩ := List.head?_eq_some_iff.1 hd
      rw [dropExact?, if_neg hne.symm]
    · rfl
  rw [elementDigits?, hdrop]
  rfl

/-- No element begins in a calm text, whatever follows. -/
theorem firstDigits?_append (h : Calm s) (t : List Char) :
    firstDigits? (s ++ t) = firstDigits? t := by
  induction s with
  | nil => rfl
  | cons c s ih =>
    have hnone : elementDigits? (c :: (s ++ t)) = none := by
      refine elementDigits?_eq_none fun hc => ?_
      obtain ⟨d, hd, hne⟩ := h.1 hc
      exact ⟨d, List.mem_head?_append_of_mem_head? hd, hne⟩
    rw [List.cons_append, firstDigits?, hnone, Option.none_or, ih h.2]

/-- The element with the digits of a version, without its end. -/
def elementFront (digits : List Char) : List Char :=
  "<attribute".toList ++ ' ' :: ("id=\"Version64\"".toList ++ ' ' :: ("type=\"int64\"".toList ++
    ' ' :: ("value=\"".toList ++ (digits ++ ['"']))))

/-- The element as it is written. -/
def elementChars (digits : List Char) : List Char := elementFront digits ++ [' ', '/', '>']

theorem getLast?_elementFront (digits : List Char) :
    (elementFront digits).getLast? = some '"' := by
  have hquote : (digits ++ ['"']).getLast? = some '"' := by simp
  unfold elementFront
  simp only [String.reduceToList, List.cons_append, List.nil_append, List.getLast?_cons, hquote,
    Option.getD_some]

/-- No line feed and no closing bracket is in the element before its end. -/
theorem not_mem_elementFront (hc : c = '\n' ∨ c = '>') (h : c ∉ digits) :
    c ∉ elementFront digits := by
  unfold elementFront
  simp only [String.reduceToList, List.mem_append, List.mem_cons, h, List.not_mem_nil]
  rcases hc with rfl | rfl <;> decide

theorem not_mem_digits (hc : c.isDigit = false) (n : Nat) : c ∉ Nat.toDigits 10 n := by
  intro hmem
  rw [(spellsNumber_toDigits n).2.1 c hmem] at hc
  contradiction

theorem dropBlanks?_cons (hc : Text.isBlank c = false) (s : List Char) :
    dropBlanks? (' ' :: c :: s) = some (c :: s) := by
  have hspace : Text.isBlank ' ' = true := by decide
  simp [dropBlanks?, hspace, hc]

theorem isDigit_of_isDigit (h : c.isDigit = true) : Text.isDigit c = true := by
  have hrange := h
  simp only [Char.isDigit, Bool.and_eq_true, decide_eq_true_eq] at hrange
  have hgreatest : c.toNat ≤ 0x39 := hrange.2
  rw [Text.isDigit, if_pos (by omega), h]

/-- The digits are read from the element. -/
theorem elementDigits?_elementChars (hne : digits ≠ []) (hdigits : ∀ c ∈ digits, c.isDigit = true)
    (rest : List Char) : elementDigits? (elementChars digits ++ rest) = some digits := by
  have hall : ∀ c ∈ digits, Text.isDigit c = true := fun c hc => isDigit_of_isDigit (hdigits c hc)
  have htake : (digits ++ '"' :: ' ' :: '/' :: '>' :: rest).takeWhile Text.isDigit = digits := by
    rw [List.takeWhile_append_of_pos hall]
    simp [Text.isDigit]
  have hdrop : (digits ++ '"' :: ' ' :: '/' :: '>' :: rest).dropWhile Text.isDigit =
      ['"'] ++ ' ' :: '/' :: '>' :: rest := by
    rw [List.dropWhile_append_of_pos hall]
    simp [Text.isDigit]
  have hblanks : (' ' :: '/' :: '>' :: rest).dropWhile Text.isBlank = ['/', '>'] ++ rest := by
    have hspace : Text.isBlank ' ' = true := by decide
    have hslash : Text.isBlank '/' = false := by decide
    simp [hspace, hslash]
  have hid := dropBlanks?_cons (c := 'i') (by decide)
  have htype := dropBlanks?_cons (c := 't') (by decide)
  have hvalue := dropBlanks?_cons (c := 'v') (by decide)
  unfold elementDigits? elementChars elementFront
  simp only [String.reduceToList, List.append_assoc, List.cons_append, List.nil_append,
    dropExact?, if_true, hid, htype, hvalue, htake, hdrop, hblanks, Option.bind_eq_bind,
    Option.bind_some]
  simp [hne]

/-- A version that is written in a line after a calm text is read from the line. -/
theorem inLine?_written {before : List Char} (h : Calm before) (n : UInt64) (rest : List Char) :
    inLine? (String.ofList (before ++ (elementChars (Nat.toDigits 10 n.toNat) ++ rest))) =
      some (unpack n) := by
  obtain ⟨hne, hdigits, -⟩ := spellsNumber_toDigits n.toNat
  have hfirst : firstDigits? (elementChars (Nat.toDigits 10 n.toNat) ++ rest) =
      some (Nat.toDigits 10 n.toNat) := by
    have helement := elementDigits?_elementChars hne hdigits rest
    have hcons : elementChars (Nat.toDigits 10 n.toNat) ++ rest =
      '<' :: (elementChars (Nat.toDigits 10 n.toNat) ++ rest).tail := rfl
    rw [hcons] at helement ⊢
    rw [firstDigits?, helement, Option.some_or]
  rw [inLine?, String.toList_ofList, firstDigits?_append h, hfirst]
  simp [packed?_digits]

end LsxKit.Version
