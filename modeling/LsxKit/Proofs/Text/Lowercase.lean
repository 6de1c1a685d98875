import LsxKit.Text.Lower
import LsxKit.Text.Lowercase
import Mathlib.Data.List.Basic

/-!
# Words in lower case

Whether a text in lower case is a given word does not depend on the letters outside ASCII, as long
as the word has neither of the two letters that some of them become. So both ways of putting a text
in lower case find the word at the end of the same texts.

* `IsPlain`: the characters that only ASCII characters become.
* `fold_outside`, `not_isPlain_of_mem_lowerOf`: no other character becomes one of them.
* `lowercase_eq_iff`, `suffix_lowercase_iff`: plain words as texts in lower case, and at their ends.
-/

namespace LsxKit.Text

/-- Whether a character is in ASCII and not one of the two that others outside it become. -/
def IsPlain (c : Char) : Prop := c.toNat < 0x80 ∧ c ≠ 'i' ∧ c ≠ 'k'

instance (c : Char) : Decidable (IsPlain c) := inferInstanceAs (Decidable (_ ∧ _))

/-- How the characters of a given word are found to be plain by evaluation. -/
theorem plain_of_all {w : List Char} (h : w.all (fun c => decide (IsPlain c)) = true) :
    ∀ c ∈ w, IsPlain c := by
  simpa using h

/-- Whether a number is the code point of a character outside ASCII. -/
def IsOutside (n : Nat) : Prop := 0x80 ≤ n ∧ n.isValidChar

variable {c d : Char} {before cs w : List Char} {n : Nat}

/-! ## Characters -/

theorem not_isPlain_ofNat (h : IsOutside n) : ¬ IsPlain (Char.ofNat n) := by
  have hcode : (Char.ofNat n).toNat = n := by
    rw [Char.ofNat, dif_pos h.2]
    rfl
  intro hplain
  have hlt := hplain.1
  rw [hcode] at hlt
  exact absurd h.1 (Nat.not_le.2 hlt)

theorem isOutside_toNat (h : ¬ c.toNat < 0x80) : IsOutside c.toNat := ⟨Nat.not_lt.1 h, c.valid⟩

theorem isOutside_of_bounds (hle : 0x80 ≤ n) (hlt : n < 0xD800 ∨ 0xDFFF < n ∧ n < 0x110000) :
    IsOutside n := ⟨hle, hlt⟩

theorem toLower_of_not_ascii (h : ¬ c.toNat < 0x80) : c.toLower = c := by
  have hcapital : ¬ (c.val ≥ 'A'.val ∧ c.val ≤ 'Z'.val) := by
    rintro ⟨-, hle⟩
    have hle' : c.toNat ≤ 0x5A := hle
    omega
  exact dif_neg hcapital

/-- No run of characters that fold to others leads into ASCII but the one of its capitals, the long
`s` and the sign of the kelvin, and none leads to a number that is no character. -/
theorem foldRuns_outside : ∀ run ∈ foldRuns.toList, run.2.1 < 0x80 ∨
    (run.1 = run.2.1 ∧ (run.1 = 0x17F ∨ run.1 = 0x212A)) ∨
    (0x80 ≤ (run.1 : Int) + run.2.2.2 ∧ ((run.2.1 : Int) + run.2.2.2 < 0xD800 ∨
      (0xDFFF < (run.1 : Int) + run.2.2.2 ∧ (run.2.1 : Int) + run.2.2.2 < 0x110000))) := by
  decide +kernel

/-- Characters outside ASCII fold to others outside it, but for the long `s` and the sign of the
kelvin. -/
theorem fold_outside (hn : IsOutside n) (hlong : n ≠ 0x17F) (hkelvin : n ≠ 0x212A) :
    IsOutside (fold n) := by
  have hle := hn.1
  unfold fold
  split
  · next low high step shift hfind =>
    have hin := Array.find?_some hfind
    have hrun := foldRuns_outside _ (Array.mem_toList_iff.2 (Array.mem_of_find?_eq_some hfind))
    simp only [Bool.and_eq_true, decide_eq_true_eq] at hin hrun
    rw [IsOutside, Nat.isValidChar]
    omega
  · exact hn

/-- What a character outside ASCII becomes is outside it, but for the sign of the kelvin. The long
`s` is a small letter. -/
theorem smallCode_outside (hn : IsOutside n) (hkelvin : n ≠ 0x212A) : IsOutside (smallCode n) := by
  have hle := hn.1
  unfold smallCode
  split_ifs with hsmall
  · exact hn
  · exact isOutside_of_bounds (by omega) (by omega)
  · exact isOutside_of_bounds (by omega) (by omega)
  · exact isOutside_of_bounds (by omega) (by omega)
  · exact isOutside_of_bounds (by omega) (by omega)
  · refine fold_outside hn (fun hlong => hsmall ?_) hkelvin
    rw [hlong]
    decide

/-- A character outside ASCII does not become a plain one. -/
theorem not_isPlain_of_mem_lowerOf (hc : ¬ c.toNat < 0x80) (hd : d ∈ lowerOf c) : ¬ IsPlain d := by
  unfold lowerOf at hd
  rw [if_neg hc] at hd
  split at hd
  · have hdot : ∀ d ∈ ['i', '\u0307'], ¬ IsPlain d :=
      List.forall_mem_cons.2 ⟨by decide, List.forall_mem_singleton.2 (by decide)⟩
    exact hdot d hd
  · obtain rfl := List.mem_singleton.1 hd
    by_cases hkelvin : c.toNat = 0x212A
    · rw [hkelvin]
      decide +kernel
    · exact not_isPlain_ofNat (smallCode_outside (isOutside_toNat hc) hkelvin)

theorem lowerOf_of_ascii (h : c.toNat < 0x80) : lowerOf c = [c.toLower] := if_pos h

theorem isPlain_toLower (h : IsPlain c.toLower) : c.toNat < 0x80 := by
  by_contra hc
  rw [toLower_of_not_ascii hc] at h
  exact hc h.1

/-! ## Texts -/

/-- A character among others becomes what it becomes alone, or a small sigma. -/
theorem lowerAfter_cons (c : Char) (before cs : List Char) :
    ∃ small, lowerAfter before (c :: cs) = small ++ lowerAfter (c :: before) cs ∧
      (c.toNat < 0x80 → small = [c.toLower]) ∧
      (¬ c.toNat < 0x80 → small ≠ [] ∧ ∀ d ∈ small, ¬ IsPlain d) := by
  by_cases hsigma : c = '\u03A3'
  · have hascii : ¬ c.toNat < 0x80 := by rw [hsigma]; decide
    refine ⟨_, rfl, fun h => absurd h hascii, fun _ => ?_⟩
    rw [if_pos hsigma]
    split <;> exact ⟨List.cons_ne_nil _ _, List.forall_mem_singleton.2 (by decide)⟩
  · refine ⟨lowerOf c, by rw [lowerAfter, if_neg hsigma], lowerOf_of_ascii, fun h => ⟨?_, ?_⟩⟩
    · unfold lowerOf
      rw [if_neg h]
      split <;> exact List.cons_ne_nil _ _
    · exact fun d hd => not_isPlain_of_mem_lowerOf h hd

/-- A text that is plain in lower case is an ASCII text. -/
theorem lowerAfter_of_isPlain (h : ∀ d ∈ lowerAfter before cs, IsPlain d) :
    lowerAfter before cs = cs.map Char.toLower := by
  induction cs generalizing before with
  | nil => rfl
  | cons c cs ih =>
    obtain ⟨small, heq, hascii, houtside⟩ := lowerAfter_cons c before cs
    rw [heq] at h ⊢
    by_cases hc : c.toNat < 0x80
    · rw [hascii hc, ih fun d hd => h d (List.mem_append_right _ hd)]
      rfl
    · obtain ⟨d, hd⟩ := List.exists_mem_of_ne_nil small (houtside hc).1
      exact absurd (h d (List.mem_append_left _ hd)) ((houtside hc).2 d hd)

theorem lowerAfter_of_ascii (h : ∀ c ∈ cs, c.toNat < 0x80) :
    lowerAfter before cs = cs.map Char.toLower := by
  induction cs generalizing before with
  | nil => rfl
  | cons c cs ih =>
    obtain ⟨small, heq, hascii, -⟩ := lowerAfter_cons c before cs
    rw [heq, hascii (h c List.mem_cons_self), ih fun d hd => h d (List.mem_cons_of_mem _ hd)]
    rfl

/-- A plain word is a text in lower case in both ways or in none. -/
theorem lowerAfter_eq_iff (hw : ∀ d ∈ w, IsPlain d) :
    lowerAfter before cs = w ↔ cs.map Char.toLower = w := by
  constructor
  · rintro rfl
    exact (lowerAfter_of_isPlain hw).symm
  · rintro rfl
    exact lowerAfter_of_ascii fun c hc => isPlain_toLower (hw _ (List.mem_map_of_mem hc))

theorem lowercase_eq_iff {s word : String} (hw : ∀ d ∈ word.toList, IsPlain d) :
    lowercase s = word ↔ lower s = word := by
  rw [lowercase, lower, ← String.toList_inj, ← String.toList_inj, String.toList_ofList,
    String.toList_ofList, lowerAfter_eq_iff hw]

theorem lowerAfter_append (before cs ds : List Char) :
    ∃ small, lowerAfter before (cs ++ ds) = small ++ lowerAfter (cs.reverse ++ before) ds := by
  induction cs generalizing before with
  | nil => exact ⟨[], rfl⟩
  | cons c cs ih =>
    obtain ⟨small, heq, -⟩ := lowerAfter_cons c before (cs ++ ds)
    obtain ⟨rest, hrest⟩ := ih (c :: before)
    refine ⟨small ++ rest, ?_⟩
    rw [List.cons_append, heq, hrest, List.append_assoc, List.reverse_cons, List.append_assoc]
    rfl

/-- A plain word at the end of a text in lower case comes from the same characters in both
ways. -/
theorem suffix_lowerAfter_iff (hw : ∀ d ∈ w, IsPlain d) :
    w <:+ lowerAfter before cs ↔ w <:+ cs.map Char.toLower := by
  constructor
  · intro h
    induction cs generalizing before with
    | nil => exact h
    | cons c cs ih =>
      obtain ⟨small, heq, hascii, houtside⟩ := lowerAfter_cons c before cs
      rw [heq] at h
      by_cases hc : c.toNat < 0x80
      · rw [hascii hc, List.singleton_append, List.suffix_cons_iff] at h
        rw [List.map_cons, List.suffix_cons_iff]
        refine h.imp (fun hwhole => ?_) ih
        have hrest : ∀ d ∈ lowerAfter (c :: before) cs, IsPlain d :=
          fun d hd => hw d (hwhole ▸ List.mem_cons_of_mem _ hd)
        rw [hwhole, lowerAfter_of_isPlain hrest]
      · -- what the first character becomes ends before the word begins
        have hrest : w <:+ lowerAfter (c :: before) cs := by
          rcases List.suffix_or_suffix_of_suffix h (List.suffix_append _ _) with hrest | ⟨last, rfl⟩
          · exact hrest
          · obtain ⟨first, hfirst⟩ := h
            rw [← List.append_assoc] at hfirst
            obtain rfl := List.append_cancel_right hfirst
            obtain rfl : last = [] := by
              refine List.eq_nil_iff_forall_not_mem.2 fun d hd => ?_
              exact (houtside hc).2 d (List.mem_append_right _ hd)
                (hw d (List.mem_append_left _ hd))
            exact List.suffix_rfl
        rw [List.map_cons, List.suffix_cons_iff]
        exact .inr (ih hrest)
  · rintro ⟨rest, hrest⟩
    obtain ⟨first, last, rfl, -, rfl⟩ := List.map_eq_append_iff.1 hrest.symm
    obtain ⟨small, heq⟩ := lowerAfter_append before first last
    rw [heq, lowerAfter_of_ascii fun c hc => isPlain_toLower (hw _ (List.mem_map_of_mem hc))]
    exact List.suffix_append _ _

theorem suffix_lowercase_iff {s : String} (hw : ∀ d ∈ w, IsPlain d) :
    w <:+ (lowercase s).toList ↔ w <:+ (lower s).toList := by
  rw [lowercase, lower, String.toList_ofList (l := lowerAfter _ _),
    String.toList_ofList (l := List.map _ _), suffix_lowerAfter_iff hw]

end LsxKit.Text
