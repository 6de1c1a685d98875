import LsxKit.Text.Lines
import LsxKit.Text.Position
import Mathlib.Data.List.Basic
import Mathlib.Data.List.Induction
import Mathlib.Data.List.TakeWhile
import Mathlib.Tactic.SplitIfs

/-!
# Pieces of lines

What stands in a text without a line feed inside it stands on one of its lines, after what follows
the last line feed before it.

* `exists_line`, `lines_append`: a text by its first line.
* `lastLine`: what follows the last line feed of a text.
* `exists_line_at`: a piece of a line stands on the line of its position.
-/

namespace LsxKit

namespace Text

/-! ## The first line -/

/-- A text is one line, or begins with a line and its end. -/
theorem exists_line (s : List Char) :
    '\n' ∉ s ∨ ∃ line rest, '\n' ∉ line ∧ s = line ++ '\n' :: rest := by
  by_cases h : '\n' ∈ s
  · obtain ⟨line, rest, hs, hline⟩ := List.eq_append_cons_of_mem h
    exact .inr ⟨line, rest, hline, hs⟩
  · exact .inl h

theorem lines_append {line : List Char} (h : '\n' ∉ line) (s : List Char) :
    lines (line ++ '\n' :: s) = dropCarriageReturn line :: lines s := by
  obtain ⟨part, parts, hparts⟩ := List.exists_cons_of_ne_nil (List.splitOn_ne_nil '\n' s)
  have hsplit : (line ++ '\n' :: s).splitOn '\n' = line :: part :: parts := by
    rw [List.splitOn_append_cons_self_of_not_mem h, hparts]
  simp only [lines, hsplit, hparts]
  rfl

theorem lines_of_not_mem {s : List Char} (h : '\n' ∉ s) :
    lines s = if s.isEmpty then [] else [s] := by
  have hsplit : s.splitOn '\n' = [s] := by
    rw [List.splitOn_eq_singleton]
    simpa using h
  simp [lines, hsplit]

theorem dropCarriageReturn_append {s : List Char} (h : s.getLast? ≠ some '\r') (t : List Char) :
    dropCarriageReturn (s ++ t) = s ++ dropCarriageReturn t := by
  rcases List.eq_nil_or_concat' t with rfl | ⟨init, c, rfl⟩
  · unfold dropCarriageReturn
    rw [List.append_nil]
    split
    · next hlast => exact absurd hlast h
    · exact (List.append_nil s).symm
  · by_cases hc : c = '\r'
    · subst hc
      simp [dropCarriageReturn, ← List.append_assoc]
    · simp [dropCarriageReturn, ← List.append_assoc, hc]

/-! ## The last line -/

/-- What follows the last line feed of a text. -/
def lastLine (s : List Char) : List Char := (s.reverse.takeWhile (· ≠ '\n')).reverse

theorem lastLine_append_of_not_mem (s : List Char) {t : List Char} (h : '\n' ∉ t) :
    lastLine (s ++ t) = lastLine s ++ t := by
  have hall : ∀ c ∈ t.reverse, decide (c ≠ '\n') = true := by
    intro c hc
    exact decide_eq_true fun he => h (he ▸ List.mem_reverse.1 hc)
  rw [lastLine, lastLine, List.reverse_append, List.takeWhile_append_of_pos hall,
    List.reverse_append, List.reverse_reverse]

theorem lastLine_append_cons (s : List Char) {t : List Char} (h : '\n' ∉ t) :
    lastLine (s ++ '\n' :: t) = t := by
  rw [List.append_cons, lastLine_append_of_not_mem _ h]
  simp [lastLine]

theorem lastLine_of_not_mem {s : List Char} (h : '\n' ∉ s) : lastLine s = s :=
  lastLine_append_of_not_mem [] h

/-- A text is its last line, or ends with a line feed and its last line. -/
theorem exists_lastLine (s : List Char) :
    '\n' ∉ lastLine s ∧ (s = lastLine s ∨ ∃ earlier, s = earlier ++ '\n' :: lastLine s) := by
  induction s using List.reverseRecOn with
  | nil => exact ⟨by simp [lastLine], .inl rfl⟩
  | append_singleton s c ih =>
    by_cases hc : c = '\n'
    · subst hc
      rw [lastLine_append_cons s (t := []) (by simp)]
      exact ⟨by simp, .inr ⟨s, rfl⟩⟩
    · have hnot : '\n' ∉ [c] := by simpa using Ne.symm hc
      rw [lastLine_append_of_not_mem s hnot]
      refine ⟨by simpa using ⟨ih.1, Ne.symm hc⟩, ?_⟩
      rcases ih.2 with hs | ⟨earlier, hs⟩
      · exact .inl (congrArg (· ++ [c]) hs)
      · exact .inr ⟨earlier, by rw [← List.cons_append, ← List.append_assoc, ← hs]⟩

theorem lastLine_append_of_mem (s : List Char) {t : List Char} (h : '\n' ∈ t) :
    lastLine (s ++ t) = lastLine t := by
  obtain ⟨hnot, ht | ⟨earlier, ht⟩⟩ := exists_lastLine t
  · exact absurd (ht ▸ h) hnot
  · conv_lhs => rw [ht, ← List.append_assoc]
    exact lastLine_append_cons _ hnot

/-- A line before a text does not change its last line. -/
theorem lastLine_line_append (line s : List Char) : lastLine (line ++ '\n' :: s) = lastLine s := by
  by_cases h : '\n' ∈ s
  · rw [List.append_cons, lastLine_append_of_mem _ h]
  · rw [lastLine_append_cons _ h, lastLine_of_not_mem h]

end Text

/-! ## Positions -/

theorem Position.after_eq (s : List Char) :
    Position.after s = ⟨s.count '\n', (Text.lastLine s).length⟩ := by
  rw [Position.after, Text.lastLine, List.length_reverse]

namespace Text

/-- A piece of a line stands on the line of its position, after what stands on that line before. -/
theorem exists_line_at {piece : List Char} (hne : piece ≠ []) (hline : '\n' ∉ piece)
    (hend : piece.getLast? ≠ some '\r') (before rest : List Char) :
    ∃ rest', (lines (before ++ (piece ++ rest)))[(Position.after before).line]? =
      some (lastLine before ++ (piece ++ rest')) := by
  induction hlength : before.length using Nat.strongRecOn generalizing before with
  | ind length ih =>
    rcases exists_line before with hbefore | ⟨first, before, hfirst, rfl⟩
    · have hlast : (before ++ piece).getLast? ≠ some '\r' := by
        rwa [List.getLast?_append_of_ne_nil _ hne]
      have hnot : '\n' ∉ before ++ piece := by
        rw [List.mem_append, not_or]
        exact ⟨hbefore, hline⟩
      rw [Position.after_eq, List.count_eq_zero.2 hbefore, lastLine_of_not_mem hbefore,
        ← List.append_assoc]
      rcases exists_line rest with hrest | ⟨line, rest, hrest, rfl⟩
      · have hall : '\n' ∉ before ++ piece ++ rest := by
          rw [List.mem_append, not_or]
          exact ⟨hnot, hrest⟩
        refine ⟨rest, ?_⟩
        rw [lines_of_not_mem hall, if_neg (by simp [hne])]
        simp
      · have hall : '\n' ∉ before ++ piece ++ line := by
          rw [List.mem_append, not_or]
          exact ⟨hnot, hrest⟩
        refine ⟨dropCarriageReturn line, ?_⟩
        rw [← List.append_assoc, lines_append hall, dropCarriageReturn_append hlast]
        simp
    · have hshorter : before.length < length := by
        rw [← hlength, List.length_append, List.length_cons]
        omega
      obtain ⟨rest', hget⟩ := ih before.length hshorter before rfl
      refine ⟨rest', ?_⟩
      rw [Position.after_eq] at hget ⊢
      rw [lastLine_line_append, List.count_append, List.count_cons_self,
        List.count_eq_zero.2 hfirst, Nat.zero_add, List.append_assoc, List.cons_append,
        lines_append hfirst]
      exact hget

end Text

end LsxKit
