import LsxKit.Proofs.Text.Trim
import Mathlib.Data.List.Induction
import Mathlib.Tactic.SplitIfs

/-!
# Texts in pieces

A text is put together from pieces, some of which are dropped, and trimmed afterwards. If what is
dropped belongs to the class that is trimmed, this may still remove more than trimming alone.

* `whole`, `remaining`: a text in pieces, and what remains of it.
* `DropsAtEnds`: whether nothing is dropped between characters outside the class.
* `trimBy_remaining_iff`: if so, and only then, nothing is missing after trimming.
-/

namespace LsxKit.Text

variable {p : Char → Bool}

/-! ## Trimming texts that are put together -/

theorem trimBy_append_left {a : List Char} (ha : ∀ c ∈ a, p c = true) (s : List Char) :
    trimBy p (a ++ s) = trimBy p s := by
  rw [trimBy, List.dropWhile_append_of_pos ha, trimBy]

theorem trimBy_append_right {b : List Char} (hb : ∀ c ∈ b, p c = true) (s : List Char) :
    trimBy p (s ++ b) = trimBy p s := by
  have hgap : ∀ c ∈ gapAfter p s ++ b, p c = true := by
    intro c hc
    rcases List.mem_append.1 hc with hc | hc
    · exact of_mem_gapAfter c hc
    · exact hb c hc
  have hsplit : gapBefore p s ++ (trimBy p s ++ (gapAfter p s ++ b)) = s ++ b := by
    rw [← List.append_assoc (trimBy p s), ← List.append_assoc, gaps_trimBy]
  rw [← hsplit]
  exact trimBy_gaps of_mem_gapBefore hgap (trimmed_trimBy s)

/-- Between characters outside the class nothing is trimmed. -/
theorem trimBy_between {x y : List Char} (hx : ∃ c ∈ x, p c = false) (hy : ∃ c ∈ y, p c = false)
    (s : List Char) : trimBy p (x ++ (s ++ y)) = x.dropWhile p ++ (s ++ trimEndBy p y) := by
  have hx' : x.dropWhile p ≠ [] := by
    intro hnil
    obtain ⟨c, hc, hpc⟩ := hx
    rw [List.dropWhile_eq_nil_iff.1 hnil c hc] at hpc
    contradiction
  have hy' : y.reverse.dropWhile p ≠ [] := by
    intro hnil
    obtain ⟨c, hc, hpc⟩ := hy
    rw [List.dropWhile_eq_nil_iff.1 hnil c (List.mem_reverse.2 hc)] at hpc
    contradiction
  have hback : trimEndBy p y ≠ [] := by
    rwa [trimEndBy, ne_eq, List.reverse_eq_nil_iff]
  have hfront : (x ++ (s ++ y)).dropWhile p = x.dropWhile p ++ (s ++ y) := by
    rw [List.dropWhile_append, if_neg (by simpa using hx')]
  have hend : (x.dropWhile p ++ (s ++ y)).reverse.dropWhile p =
      y.reverse.dropWhile p ++ (x.dropWhile p ++ s).reverse := by
    rw [← List.append_assoc, List.reverse_append, List.dropWhile_append,
      if_neg (by simpa using hy')]
  rw [trimBy, hfront, trimEndBy, hend, List.reverse_append, List.reverse_reverse, trimEndBy,
    List.append_assoc]

theorem trimBy_eq_nil_iff {s : List Char} : trimBy p s = [] ↔ ∀ c ∈ s, p c = true := by
  constructor
  · intro h c hc
    rw [← gaps_trimBy p s, h, List.nil_append] at hc
    rcases List.mem_append.1 hc with hc | hc
    · exact of_mem_gapBefore c hc
    · exact of_mem_gapAfter c hc
  · intro h
    have hnil := trimBy_append_left h []
    rwa [List.append_nil] at hnil

/-! ## Pieces -/

/-- A piece of a text, which is kept or dropped. -/
structure Piece where
  chars : List Char
  kept : Bool

/-- The text that pieces make up. -/
def whole (ps : List Piece) : List Char := ps.flatMap Piece.chars

/-- What remains of the text that pieces make up. -/
def remaining (ps : List Piece) : List Char := whole (ps.filter Piece.kept)

@[simp] theorem whole_nil : whole [] = [] := rfl

@[simp] theorem whole_cons (x : Piece) (ps : List Piece) : whole (x :: ps) = x.chars ++ whole ps :=
  rfl

@[simp] theorem whole_append (ps ps' : List Piece) : whole (ps ++ ps') = whole ps ++ whole ps' :=
  List.flatMap_append

@[simp] theorem remaining_nil : remaining [] = [] := rfl

@[simp] theorem remaining_append (ps ps' : List Piece) :
    remaining (ps ++ ps') = remaining ps ++ remaining ps' := by
  rw [remaining, List.filter_append, whole_append]
  rfl

theorem remaining_cons (x : Piece) (ps : List Piece) :
    remaining (x :: ps) = (if x.kept then x.chars else []) ++ remaining ps := by
  rw [remaining, List.filter_cons]
  split_ifs <;> rfl

theorem length_remaining_le (ps : List Piece) : (remaining ps).length ≤ (whole ps).length := by
  induction ps with
  | nil => exact Nat.le_refl 0
  | cons x ps ih =>
    rw [remaining_cons, whole_cons, List.length_append, List.length_append]
    split_ifs
    · exact Nat.add_le_add_left ih _
    · rw [List.length_nil]
      omega

/-- A text remains as it is if all that is dropped is empty. -/
theorem remaining_eq_whole_iff {ps : List Piece} :
    remaining ps = whole ps ↔ ∀ x ∈ ps, x.kept = false → x.chars = [] := by
  induction ps with
  | nil => simp
  | cons x ps ih =>
    rw [remaining_cons, whole_cons, List.forall_mem_cons, ← ih]
    cases hkept : x.kept with
    | true => simp
    | false =>
      constructor
      · intro h
        have hlength := congrArg List.length h
        have hle := length_remaining_le ps
        simp only [Bool.false_eq_true, if_false, List.nil_append, List.length_append] at hlength
        have hnil : x.chars = [] := List.length_eq_zero_iff.1 (by omega)
        refine ⟨fun _ => hnil, ?_⟩
        simpa [hnil] using h
      · rintro ⟨hnil, hrest⟩
        rw [hnil rfl, hrest]
        rfl

/-- If all that is dropped belongs to the class, so does the whole text if what remains does. -/
theorem forall_whole_iff {ps : List Piece}
    (hdropped : ∀ x ∈ ps, x.kept = false → ∀ c ∈ x.chars, p c = true) :
    (∀ c ∈ whole ps, p c = true) ↔ ∀ c ∈ remaining ps, p c = true := by
  induction ps with
  | nil => exact Iff.rfl
  | cons x ps ih =>
    rw [List.forall_mem_cons] at hdropped
    rw [whole_cons, remaining_cons, List.forall_mem_append, List.forall_mem_append,
      ih hdropped.2]
    cases hkept : x.kept with
    | true => exact Iff.rfl
    | false =>
      rw [if_neg Bool.false_ne_true]
      exact and_congr_left fun _ => iff_of_true (hdropped.1 hkept) nofun

/-- Whether pieces that are dropped are empty, or nothing but characters of the class `p` stands
before them, or after them. -/
def DropsAtEnds (p : Char → Bool) (ps : List Piece) : Prop :=
  ∀ before gap after, ps = before ++ ⟨gap, false⟩ :: after →
    gap = [] ∨ (∀ c ∈ whole before, p c = true) ∨ ∀ c ∈ whole after, p c = true

theorem dropsAtEnds_cons {x : Piece} (hx : ∀ c ∈ x.chars, p c = true) (ps : List Piece) :
    DropsAtEnds p (x :: ps) ↔ DropsAtEnds p ps := by
  constructor
  · rintro h before gap after rfl
    refine (h (x :: before) gap after rfl).imp_right (Or.imp_left fun hbefore => ?_)
    rw [whole_cons, List.forall_mem_append] at hbefore
    exact hbefore.2
  · intro h before gap after hps
    cases before with
    | nil => exact .inr (.inl nofun)
    | cons x' before =>
      obtain ⟨rfl, hrest⟩ := List.cons.inj hps
      refine (h before gap after hrest).imp_right (Or.imp_left fun hbefore => ?_)
      rw [whole_cons, List.forall_mem_append]
      exact ⟨hx, hbefore⟩

theorem dropsAtEnds_concat {y : Piece} (hy : ∀ c ∈ y.chars, p c = true) (ps : List Piece) :
    DropsAtEnds p (ps ++ [y]) ↔ DropsAtEnds p ps := by
  constructor
  · rintro h before gap after rfl
    have hafter := h before gap (after ++ [y]) (by simp)
    refine hafter.imp_right (Or.imp_right fun hafter => ?_)
    rw [whole_append, List.forall_mem_append] at hafter
    exact hafter.1
  · intro h before gap after hps
    rcases List.eq_nil_or_concat after with rfl | ⟨after, y', rfl⟩
    · exact .inr (.inr nofun)
    · rw [List.concat_eq_append, ← List.cons_append, ← List.append_assoc] at hps
      obtain ⟨hfirst, hlast⟩ := List.append_inj' hps rfl
      obtain rfl := List.singleton_inj.1 hlast
      refine (h before gap after hfirst).imp_right (Or.imp_right fun hafter => ?_)
      rw [List.concat_eq_append, whole_append, List.forall_mem_append]
      exact ⟨hafter, by simpa using hy⟩

/-- Between pieces with characters outside the class nothing may be dropped. -/
theorem dropsAtEnds_between {x y : Piece} (hx : ∃ c ∈ x.chars, p c = false)
    (hy : ∃ c ∈ y.chars, p c = false) (hkept : x.kept = true) (hkept' : y.kept = true)
    (ps : List Piece) : DropsAtEnds p (x :: (ps ++ [y])) ↔ remaining ps = whole ps := by
  rw [remaining_eq_whole_iff]
  constructor
  · rintro h ⟨gap, kept⟩ hg hdropped
    obtain rfl : kept = false := hdropped
    obtain ⟨before, after, rfl⟩ := List.append_of_mem hg
    rcases h (x :: before) gap (after ++ [y]) (by simp) with hnil | hbefore | hafter
    · exact hnil
    · obtain ⟨c, hc, hpc⟩ := hx
      rw [hbefore c (List.mem_append_left _ hc)] at hpc
      contradiction
    · obtain ⟨c, hc, hpc⟩ := hy
      rw [hafter c (by simp [hc])] at hpc
      contradiction
  · intro h before gap after hps
    have hmem : (⟨gap, false⟩ : Piece) ∈ x :: (ps ++ [y]) := by simp [hps]
    rw [List.mem_cons, List.mem_append, List.mem_singleton] at hmem
    rcases hmem with rfl | hmem | rfl
    · contradiction
    · exact .inl (h _ hmem rfl)
    · contradiction

theorem exists_of_not_forall {s : List Char} (h : ¬ ∀ c ∈ s, p c = true) :
    ∃ c ∈ s, p c = false := by
  simpa using h

theorem trimBy_remaining_cons_iff {x : Piece} (hx : ∃ c ∈ x.chars, p c = false)
    (hkept : x.kept = true) {ps : List Piece}
    (hdropped : ∀ y ∈ ps, y.kept = false → ∀ c ∈ y.chars, p c = true) :
    trimBy p (x.chars ++ remaining ps) = trimBy p (x.chars ++ whole ps) ↔
      DropsAtEnds p (x :: ps) := by
  -- pieces are taken away from the end up to one with a character outside the class
  induction ps using List.reverseRecOn with
  | nil =>
    refine iff_of_true rfl fun before gap after hps => ?_
    cases before with
    | nil =>
      rw [(List.cons.inj hps).1] at hkept
      contradiction
    | cons x' before => simp at hps
  | append_singleton ps y ih =>
    rw [List.forall_mem_append, List.forall_mem_singleton] at hdropped
    by_cases hy : ∀ c ∈ y.chars, p c = true
    · have hwhole : ∀ c ∈ whole [y], p c = true := by simpa using hy
      have hremaining : ∀ c ∈ remaining [y], p c = true := by
        rw [remaining_cons, remaining_nil, List.append_nil]
        split_ifs
        · exact hy
        · exact nofun
      rw [remaining_append, whole_append, ← List.append_assoc, ← List.append_assoc,
        trimBy_append_right hwhole, trimBy_append_right hremaining, ih hdropped.1,
        ← List.cons_append, dropsAtEnds_concat hy]
    · have hkept' : y.kept = true := by
        by_contra hnot
        exact hy (hdropped.2 (Bool.eq_false_iff.2 hnot))
      have hy := exists_of_not_forall hy
      have hlast : remaining [y] = y.chars := by
        rw [remaining_cons, if_pos hkept', remaining_nil, List.append_nil]
      rw [remaining_append, whole_append, hlast, whole_cons, whole_nil, List.append_nil,
        trimBy_between hx hy, trimBy_between hx hy, List.append_right_inj, List.append_left_inj,
        dropsAtEnds_between hx hy hkept hkept']

/-- If all that is dropped belongs to the class, nothing else is missing after trimming exactly if
it is dropped at the ends. -/
theorem trimBy_remaining_iff {ps : List Piece}
    (hdropped : ∀ x ∈ ps, x.kept = false → ∀ c ∈ x.chars, p c = true) :
    trimBy p (remaining ps) = trimBy p (whole ps) ↔ DropsAtEnds p ps := by
  -- pieces are taken away from the beginning up to one with a character outside the class
  induction ps with
  | nil => simp [DropsAtEnds]
  | cons x ps ih =>
    rw [List.forall_mem_cons] at hdropped
    rw [remaining_cons, whole_cons]
    by_cases hx : ∀ c ∈ x.chars, p c = true
    · have hremaining : ∀ c ∈ (if x.kept then x.chars else []), p c = true := by
        split_ifs
        · exact hx
        · exact nofun
      rw [trimBy_append_left hremaining, trimBy_append_left hx, ih hdropped.2, dropsAtEnds_cons hx]
    · have hkept : x.kept = true := by
        by_contra hnot
        exact hx (hdropped.1 (Bool.eq_false_iff.2 hnot))
      rw [if_pos hkept]
      exact trimBy_remaining_cons_iff (exists_of_not_forall hx) hkept hdropped.2

end LsxKit.Text
