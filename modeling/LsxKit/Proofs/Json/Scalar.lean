import LsxKit.Json.Printer
import LsxKit.Json.Term
import LsxKit.Proofs.Outcome
import LsxKit.Proofs.Text.Trim

/-!
# Strings and numbers in JSON texts

* `text_quote`: a string is read back from its quotes, whatever follows.
* `numeral_append`: a number is read in the same way in front of a text that does not go on with it.
* `Number.ReadsBack`: whether a number is read back from its digits.
-/

namespace LsxKit.Json

open Scan

variable {s rest : List Char}

/-! ## Strings -/

theorem hexDigit?_digitChar {n : Nat} (h : n < 16) : hexDigit? n.digitChar = some n := by
  have hall : ∀ n : Fin 16, hexDigit? n.val.digitChar = some n.val := by decide
  exact hall ⟨n, h⟩

/-- The unit of a control character. -/
theorem unit?_control {n : Nat} (h : n < 32) :
    unit? '0' '0' (n / 16).digitChar (n % 16).digitChar = some n := by
  have hzero : hexDigit? '0' = some 0 := rfl
  have hhigh : n / 16 < 16 := by omega
  have hlow : n % 16 < 16 := by omega
  simp only [unit?, hzero, hexDigit?_digitChar hhigh, hexDigit?_digitChar hlow,
    Option.bind_eq_bind, Option.bind_some, Option.pure_def, Option.some.injEq]
  omega

/-- A character is read back from its escape. -/
theorem stringFrom_escape (read : List Char) (c : Char) (rest : List Char) :
    stringFrom read (escape c ++ rest) = stringFrom (c :: read) rest := by
  unfold escape
  split
  case h_8 hquote hslash _ _ _ _ _ =>
    split_ifs with hcontrol
    · have hlt : c.toNat < 32 := hcontrol
      have htrailing : isTrailing c.toNat = false := by simp [isTrailing]; omega
      have hleading : isLeading c.toNat = false := by simp [isLeading]; omega
      simp [stringFrom, unit?_control hlt, htrailing, hleading]
    · have hplain := stringFrom.eq_7 read c rest hquote (fun _ _ _ _ _ h => (hslash h).elim)
        (fun _ h => (hslash h).elim) (fun _ _ h => (hslash h).elim) (fun h => (hslash h).elim)
      rw [List.singleton_append, hplain, if_neg hcontrol]
  all_goals simp [stringFrom, escaped?]

theorem stringFrom_flatMap (read s rest : List Char) :
    stringFrom read (s.flatMap escape ++ '"' :: rest) =
      .ok (String.ofList (read.reverse ++ s), rest) := by
  induction s generalizing read with
  | nil => simp [stringFrom]
  | cons c s ih =>
    rw [List.flatMap_cons, List.append_assoc, stringFrom_escape, ih, List.reverse_cons,
      List.append_assoc, List.singleton_append]

/-- A string is read back from its quotes, whatever follows. -/
theorem text_quote (s : String) (rest : List Char) :
    Term.text (s.toList.flatMap escape ++ '"' :: rest) = .ok (some s, rest) := by
  rw [Term.text, Scan.string, stringFrom_flatMap]
  simp

/-! ## Numbers in front of texts -/

/-- Whether a number that comes before a text ends there. -/
def EndsNumber (rest : List Char) : Prop :=
  ∀ c ∈ rest.head?, c.isDigit = false ∧ c ≠ '.' ∧ c ≠ 'e' ∧ c ≠ 'E'

theorem endsNumber_nil : EndsNumber [] :=
  fun c hc => absurd hc (Option.not_mem_none c)

theorem not_isDigit_of_endsNumber (h : EndsNumber rest) :
    ∀ c ∈ rest.head?, c.isDigit = false :=
  fun c hc => (h c hc).1

theorem stopAhead_ne_ok {α : Type} {cause : Cause} {a : α} : stopAhead cause s ≠ .ok a := nofun

theorem whole_append {w left : List Char} (h : whole s = .ok (w, left)) (hrest : EndsNumber rest) :
    whole (s ++ rest) = .ok (w, left ++ rest) := by
  unfold whole at h
  split at h
  · contradiction
  · next s =>
    split_ifs at h with hhead
    · exact absurd h stopAhead_ne_ok
    obtain ⟨rfl, rfl⟩ := Prod.mk.inj (Except.ok.inj h)
    have hnext : ¬((s ++ rest).head?.any Char.isDigit = true) := by
      cases s with
      | nil =>
        cases rest with
        | nil => simp
        | cons c rest => simp [(hrest c rfl).1]
      | cons c s => exact hhead
    rw [List.cons_append, whole, if_neg hnext]
  · next c s hzero =>
    split_ifs at h with hdigit
    · obtain ⟨rfl, rfl⟩ := Prod.mk.inj (Except.ok.inj h)
      have hend := not_isDigit_of_endsNumber hrest
      rw [List.cons_append, whole.eq_3 c _ hzero, if_pos hdigit,
        Text.takeWhile_append_of_head s hend, Text.dropWhile_append_of_head s hend]
    · exact absurd h stopAhead_ne_ok

theorem fraction_point_iff {f : Option (List Char)} {left : List Char} :
    fraction ('.' :: s) = .ok (f, left) ↔ s.takeWhile Char.isDigit ≠ [] ∧
      f = some (s.takeWhile Char.isDigit) ∧ left = s.dropWhile Char.isDigit := by
  by_cases hdigits : s.takeWhile Char.isDigit = []
  · refine iff_of_false (fun h => ?_) fun h => h.1 hdigits
    by_cases hs : s = []
    · rw [hs, fraction.eq_1] at h
      contradiction
    · rw [fraction.eq_2 s hs hdigits] at h
      exact stopAhead_ne_ok h
  · rw [fraction.eq_3 s hdigits fun he _ => hdigits he, Except.ok.injEq, Prod.mk.injEq]
    exact ⟨fun h => ⟨hdigits, h.1.symm, h.2.symm⟩, fun h => ⟨h.2.1.symm, h.2.2.symm⟩⟩

theorem fraction_append {f : Option (List Char)} {left : List Char}
    (h : fraction s = .ok (f, left)) (hrest : EndsNumber rest) :
    fraction (s ++ rest) = .ok (f, left ++ rest) := by
  by_cases hpoint : ∃ s', s = '.' :: s'
  · obtain ⟨s, rfl⟩ := hpoint
    obtain ⟨hdigits, rfl, rfl⟩ := fraction_point_iff.1 h
    have hend := not_isDigit_of_endsNumber hrest
    rw [List.cons_append, fraction_point_iff, Text.takeWhile_append_of_head s hend,
      Text.dropWhile_append_of_head s hend]
    exact ⟨hdigits, rfl, rfl⟩
  · rw [fraction.eq_4 s fun s' hs' => hpoint ⟨s', hs'⟩] at h
    obtain ⟨rfl, rfl⟩ := Prod.mk.inj (Except.ok.inj h)
    refine fraction.eq_4 _ fun s' hs' => ?_
    cases s with
    | nil => exact (hrest '.' (by rw [← List.nil_append rest, hs']; rfl)).2.1 rfl
    | cons c s => exact hpoint ⟨s, by rw [(List.cons.inj hs').1]⟩

theorem exponentDigits_append {e : Bool × List Char} {left : List Char}
    (h : exponentDigits s = .ok (e, left)) (hrest : EndsNumber rest) :
    exponentDigits (s ++ rest) = .ok (e, left ++ rest) := by
  -- the digits are read in the same way after each sign and without one
  have hdigits : ∀ {down : Bool} {c : Char} {digits : List Char},
      (if c.isDigit then
        .ok ((down, c :: digits.takeWhile Char.isDigit), digits.dropWhile Char.isDigit)
        else stopAhead .invalidNumber (c :: digits)) = .ok (e, left) →
      (if c.isDigit then
        .ok ((down, c :: (digits ++ rest).takeWhile Char.isDigit),
          (digits ++ rest).dropWhile Char.isDigit)
        else stopAhead .invalidNumber (c :: (digits ++ rest))) = .ok (e, left ++ rest) := by
    intro down c digits h
    split_ifs at h ⊢ with hc
    · obtain ⟨rfl, rfl⟩ := Prod.mk.inj (Except.ok.inj h)
      have hend := not_isDigit_of_endsNumber hrest
      rw [Text.takeWhile_append_of_head digits hend, Text.dropWhile_append_of_head digits hend]
    · exact absurd h stopAhead_ne_ok
  cases s with
  | nil => contradiction
  | cons c s =>
    unfold exponentDigits at h ⊢
    by_cases hplus : c = '+'
    · subst hplus
      cases s with
      | nil => contradiction
      | cons c s => exact hdigits h
    · by_cases hminus : c = '-'
      · subst hminus
        cases s with
        | nil => contradiction
        | cons c s => exact hdigits h
      · simp only [List.cons_append, List.cons.injEq, hplus, hminus, false_and, imp_self,
          implies_true] at h ⊢
        exact hdigits h

theorem exponent_append {e : Option (Bool × List Char)} {left : List Char}
    (h : exponent s = .ok (e, left)) (hrest : EndsNumber rest) :
    exponent (s ++ rest) = .ok (e, left ++ rest) := by
  cases s with
  | nil =>
    obtain ⟨rfl, rfl⟩ := Prod.mk.inj (Except.ok.inj h)
    cases rest with
    | nil => rfl
    | cons c rest =>
      obtain ⟨-, -, hlower, hupper⟩ := hrest c rfl
      exact if_neg (not_or.2 ⟨hlower, hupper⟩)
  | cons c s =>
    rw [List.cons_append]
    rw [exponent] at h ⊢
    split_ifs at h ⊢ with hc
    · obtain ⟨⟨e', left'⟩, hdigits, h⟩ := bind_eq_ok_iff.1 h
      obtain ⟨rfl, rfl⟩ := Prod.mk.inj (Except.ok.inj h)
      exact bind_eq_ok_iff.2 ⟨_, exponentDigits_append hdigits hrest, rfl⟩
    · obtain ⟨rfl, rfl⟩ := Prod.mk.inj (Except.ok.inj h)
      rfl

theorem unsigned_append {negative : Bool} {n : Numeral} {left : List Char}
    (h : unsigned negative s = .ok (n, left)) (hrest : EndsNumber rest) :
    unsigned negative (s ++ rest) = .ok (n, left ++ rest) := by
  obtain ⟨⟨w, s₁⟩, hwhole, h⟩ := bind_eq_ok_iff.1 h
  obtain ⟨⟨f, s₂⟩, hfraction, h⟩ := bind_eq_ok_iff.1 h
  obtain ⟨⟨e, s₃⟩, hexponent, h⟩ := bind_eq_ok_iff.1 h
  obtain ⟨rfl, rfl⟩ := Prod.mk.inj (Except.ok.inj h)
  exact bind_eq_ok_iff.2 ⟨_, whole_append hwhole hrest, bind_eq_ok_iff.2 ⟨_,
    fraction_append hfraction hrest, bind_eq_ok_iff.2 ⟨_, exponent_append hexponent hrest, rfl⟩⟩⟩

/-- A number is read in the same way in front of a text that does not go on with it. -/
theorem numeral_append {n : Numeral} {left : List Char} (h : numeral s = .ok (n, left))
    (hrest : EndsNumber rest) : numeral (s ++ rest) = .ok (n, left ++ rest) := by
  by_cases hsign : ∃ s', s = '-' :: s'
  · obtain ⟨s, rfl⟩ := hsign
    exact unsigned_append h hrest
  · rw [numeral.eq_2 s fun s' hs' => hsign ⟨s', hs'⟩] at h
    have hwhole : s ≠ [] := by
      rintro rfl
      contradiction
    refine (numeral.eq_2 _ fun s' hs' => ?_).trans (unsigned_append h hrest)
    cases s with
    | nil => exact hwhole rfl
    | cons c s => exact hsign ⟨s, by rw [(List.cons.inj hs').1]⟩

/-! ## Numbers that are read back -/

/-- Whether a number is read back from its text. -/
def Number.ReadsBack (n : Number) : Prop := Scan.number n.render = .ok (n, [])

instance : DecidablePred Number.ReadsBack := fun n =>
  inferInstanceAs (Decidable (Scan.number n.render = .ok (n, [])))

theorem number_eq_ok_iff {n : Number} {left : List Char} :
    Scan.number s = .ok (n, left) ↔ ∃ k, numeral s = .ok (k, left) ∧ k.toNumber? = some n := by
  unfold Scan.number
  rw [bind_eq_ok_iff]
  constructor
  · rintro ⟨⟨k, left'⟩, hnumeral, h⟩
    cases hnumber : k.toNumber? with
    | none =>
      simp only [hnumber] at h
      contradiction
    | some n' =>
      simp only [hnumber] at h
      obtain ⟨rfl, rfl⟩ := Prod.mk.inj (Except.ok.inj h)
      exact ⟨k, hnumeral, hnumber⟩
  · rintro ⟨k, hnumeral, hnumber⟩
    exact ⟨_, hnumeral, by simp only [hnumber]; rfl⟩

theorem exists_cons_of_whole {w left : List Char} (h : whole s = .ok (w, left)) :
    ∃ c s', s = c :: s' ∧ c.isDigit = true := by
  unfold whole at h
  split at h
  · contradiction
  · next s => exact ⟨_, s, rfl, rfl⟩
  · next c s _ =>
    split_ifs at h with hdigit
    · exact ⟨c, s, rfl, hdigit⟩
    · exact absurd h stopAhead_ne_ok

/-- A number begins with a sign or a digit. -/
theorem exists_cons_of_numeral {n : Numeral} {left : List Char} (h : numeral s = .ok (n, left)) :
    ∃ c s', s = c :: s' ∧ startsNumber c = true := by
  by_cases hsign : ∃ s', s = '-' :: s'
  · obtain ⟨s', rfl⟩ := hsign
    exact ⟨_, s', rfl, rfl⟩
  · rw [numeral.eq_2 s fun s' hs' => hsign ⟨s', hs'⟩] at h
    obtain ⟨⟨w, s₁⟩, hwhole, -⟩ := bind_eq_ok_iff.1 h
    obtain ⟨c, s', rfl, hdigit⟩ := exists_cons_of_whole hwhole
    exact ⟨c, s', rfl, by rw [startsNumber, hdigit, Bool.or_true]⟩

theorem ne_of_startsNumber {c d : Char} (h : startsNumber c = true) (hd : startsNumber d = false) :
    c ≠ d := by
  rintro rfl
  exact absurd h (Bool.eq_false_iff.1 hd)

theorem not_isSpace_of_startsNumber {c : Char} (h : startsNumber c = true) : isSpace c = false := by
  have hblank : c ≠ ' ' := ne_of_startsNumber h rfl
  have hfeed : c ≠ '\n' := ne_of_startsNumber h rfl
  have htab : c ≠ '\t' := ne_of_startsNumber h rfl
  have hreturn : c ≠ '\r' := ne_of_startsNumber h rfl
  simp [isSpace, hblank, hfeed, htab, hreturn]

theorem scalar_number {n : Number} (h : n.ReadsBack) (hrest : EndsNumber rest) :
    Term.scalar (n.render ++ rest) = .ok (.number n, rest) := by
  obtain ⟨k, hnumeral, hnumber⟩ := number_eq_ok_iff.1 h
  have hread := numeral_append hnumeral hrest
  obtain ⟨c, s', hcons, hstarts⟩ := exists_cons_of_numeral hread
  rw [hcons] at hread ⊢
  rw [Term.scalar.eq_6 c s' (ne_of_startsNumber hstarts rfl) (ne_of_startsNumber hstarts rfl)
    (ne_of_startsNumber hstarts rfl) (ne_of_startsNumber hstarts rfl), if_pos hstarts]
  exact bind_eq_ok_iff.2 ⟨_, hread, by simp only [hnumber]; rfl⟩

end LsxKit.Json
