import LsxKit.Proofs.Text.Lines

/-!
# Byte offsets

Offsets count bytes, and positions count characters line by line. The boundaries of the characters
of a text have positions in the same order, so no two of them share one; any other offset has the
position of the last boundary before it.

* `size_toList`: sizes count the bytes of the UTF-8 form.
* `takeBytes_append`: the characters before an offset, for a text in two parts.
* `takeBytes_size`, `takeBytes_inside`, `takeBytes_of_le`: those before a boundary, before an offset
  inside a character, and before one past the end.
* `Position.Counts`, `Position.Precedes`: what a position says about the characters before it, and
  the order of positions.
* `Position.precedes_after_append`: more characters end further on.
* `Position.ofOffset_boundaries`: the positions of boundaries, and of all other offsets.
-/

namespace LsxKit

/-! ## Characters before an offset -/

namespace Text

variable {n : Nat} {s before : List Char} {c : Char}

theorem size_pos (h : s ≠ []) : 0 < size s := by
  cases s with
  | nil => contradiction
  | cons c s => exact Nat.add_pos_left c.utf8Size_pos _

/-- Sizes count the bytes of the UTF-8 form. -/
theorem size_toList (text : String) : size text.toList = text.utf8ByteSize := by
  obtain ⟨cs, rfl⟩ := text.exists_eq_ofList
  rw [String.toList_ofList]
  induction cs with
  | nil => rfl
  | cons c cs ih => rw [size_cons, ih, String.ofList_cons, String.utf8ByteSize_append,
      String.utf8ByteSize_singleton]

theorem takeBytes_zero (s : List Char) : takeBytes 0 s = [] := by
  cases s with
  | nil => rfl
  | cons c s => rw [takeBytes, if_neg (by have := c.utf8Size_pos; omega)]

/-- An offset behind the first part of a text is an offset in the second one. -/
theorem takeBytes_append (h : size s ≤ n) (rest : List Char) :
    takeBytes n (s ++ rest) = s ++ takeBytes (n - size s) rest := by
  induction s generalizing n with
  | nil => rfl
  | cons c s ih =>
    rw [size_cons] at h
    have hrest : size s ≤ n - c.utf8Size := by omega
    rw [List.cons_append, takeBytes, if_pos (by omega), ih hrest, size_cons, Nat.sub_sub]
    rfl

/-- The characters before an offset are those whose sizes add up to it. -/
theorem takeBytes_size (s rest : List Char) : takeBytes (size s) (s ++ rest) = s := by
  rw [takeBytes_append (Nat.le_refl _), Nat.sub_self, takeBytes_zero, List.append_nil]

/-- All characters are before an offset at the end or past it. -/
theorem takeBytes_of_le (h : size s ≤ n) : takeBytes n s = s := by
  have happend := takeBytes_append h []
  rwa [List.append_nil, takeBytes, List.append_nil] at happend

/-- A character is not before an offset inside it. -/
theorem takeBytes_inside (h : size before ≤ n) (hlt : n < size before + c.utf8Size)
    (rest : List Char) : takeBytes n (before ++ c :: rest) = before := by
  rw [takeBytes_append h, takeBytes, if_neg (by omega), List.append_nil]

theorem takeBytes_prefix (n : Nat) (s : List Char) : takeBytes n s <+: s := by
  induction s generalizing n with
  | nil => exact List.prefix_rfl
  | cons c s ih =>
    rw [takeBytes]
    split_ifs
    · exact List.cons_prefix_cons.2 ⟨rfl, ih _⟩
    · exact List.nil_prefix

theorem size_takeBytes_le (n : Nat) (s : List Char) : size (takeBytes n s) ≤ n := by
  fun_induction takeBytes n s with
  | case1 => exact Nat.zero_le _
  | case2 n c s hc ih =>
    rw [size_cons]
    omega
  | case3 => exact Nat.zero_le _

/-- An offset inside some characters of a text is at the end of fewer of them. -/
theorem takeBytes_of_lt (rest : List Char) (h : n < size s) :
    ∃ cs, s = takeBytes n (s ++ rest) ++ cs ∧ cs ≠ [] := by
  have hsize := size_takeBytes_le n (s ++ rest)
  have htaken : takeBytes n (s ++ rest) <+: s ++ rest := takeBytes_prefix n _
  rcases List.prefix_or_prefix_of_prefix htaken (List.prefix_append s rest) with
    ⟨cs, hcs⟩ | ⟨cs, hcs⟩
  · refine ⟨cs, hcs.symm, ?_⟩
    rintro rfl
    rw [List.append_nil] at hcs
    rw [hcs] at hsize
    omega
  · rw [← hcs, size_append] at hsize
    omega

end Text

/-! ## Positions -/

namespace Position

variable {before cs : List Char} {text : String}

/-- Whether a position counts the characters before it: its line the line feeds, its column the
characters after the last of them. -/
structure Counts (p : Position) (before : List Char) : Prop where
  line_eq : p.line = before.count '\n'
  column_eq : ∃ earlier line, before = earlier ++ line ∧ (∀ c ∈ earlier.getLast?, c = '\n') ∧
    '\n' ∉ line ∧ p.column = line.length

/-- Whether a position comes before another one: on an earlier line, or further left on the same
line. -/
def Precedes (p q : Position) : Prop :=
  p.line < q.line ∨ p.line = q.line ∧ p.column < q.column

theorem Precedes.asymm {p q : Position} (h : p.Precedes q) : ¬ q.Precedes p := by
  unfold Precedes at *
  omega

theorem not_precedes_self (p : Position) : ¬ p.Precedes p :=
  fun h => h.asymm h

theorem after_line_feed (before : List Char) :
    after (before ++ ['\n']) = ⟨(after before).line + 1, 0⟩ := by
  simp [after]

theorem after_append_singleton (before : List Char) {c : Char} (hc : c ≠ '\n') :
    after (before ++ [c]) = ⟨(after before).line, (after before).column + 1⟩ := by
  simp [after, hc]

theorem counts_after (before : List Char) : (after before).Counts before := by
  obtain ⟨hline, hbefore⟩ := Text.exists_lastLine before
  rw [after_eq]
  refine ⟨rfl, ?_⟩
  rcases hbefore with hall | ⟨earlier, hearlier⟩
  · exact ⟨[], Text.lastLine before, hall, by simp, hline, rfl⟩
  · refine ⟨earlier ++ ['\n'], Text.lastLine before, ?_, by simp, hline, rfl⟩
    rwa [List.append_assoc]

/-- More characters end further on. -/
theorem precedes_after_append (before : List Char) (h : cs ≠ []) :
    (after before).Precedes (after (before ++ cs)) := by
  rw [after_eq, after_eq]
  -- a line feed among them leads to a later line, otherwise all of them lengthen the last line
  by_cases hfeed : '\n' ∈ cs
  · left
    have hpos := List.count_pos_iff.2 hfeed
    show before.count '\n' < (before ++ cs).count '\n'
    rw [List.count_append]
    omega
  · right
    have hpos := List.length_pos_of_ne_nil h
    rw [Text.lastLine_append_of_not_mem before hfeed, List.count_append,
      List.count_eq_zero.2 hfeed, List.length_append]
    exact ⟨rfl, Nat.lt_add_of_pos_right hpos⟩

/-- Different beginnings of a text end at different positions. -/
theorem eq_nil_of_after_append (h : after (before ++ cs) = after before) : cs = [] := by
  by_contra hne
  have hprecedes := precedes_after_append before hne
  rw [h] at hprecedes
  exact not_precedes_self _ hprecedes

/-! ## Boundaries of characters -/

/-- The position of a boundary is that after the characters before it. -/
theorem ofOffset_of_splits {p : text.Pos} {start rest : String} (h : p.Splits start rest) :
    ofOffset text.toList p.offset.byteIdx = after start.toList := by
  rw [ofOffset, h.offset_eq_rawEndPos, h.eq_append, String.toList_append,
    String.byteIdx_rawEndPos, ← Text.size_toList, Text.takeBytes_size]

/-- A boundary further on has a position further on. -/
theorem ofOffset_precedes {p q : text.Pos} (h : p < q) :
    (ofOffset text.toList p.offset.byteIdx).Precedes (ofOffset text.toList q.offset.byteIdx) := by
  obtain ⟨between, hne, hq, -⟩ := (p.splits.lt_iff_exists_eq_append q.splits).1 h
  rw [ofOffset_of_splits p.splits, ofOffset_of_splits q.splits, hq, String.toList_append]
  exact precedes_after_append _ (mt String.toList_eq_nil_iff.1 hne)

theorem precedes_ofOffset_iff {p q : text.Pos} :
    (ofOffset text.toList p.offset.byteIdx).Precedes (ofOffset text.toList q.offset.byteIdx) ↔
      p < q := by
  refine ⟨fun h => ?_, ofOffset_precedes⟩
  rcases Std.lt_trichotomy p q with hlt | rfl | hgt
  · exact hlt
  · exact absurd h (not_precedes_self _)
  · exact absurd h (ofOffset_precedes hgt).asymm

/-- No two boundaries have the same position. -/
theorem eq_of_ofOffset_eq {p q : text.Pos}
    (h : ofOffset text.toList p.offset.byteIdx = ofOffset text.toList q.offset.byteIdx) :
    p = q := by
  have hle : ¬ q < p := by
    rw [← precedes_ofOffset_iff, h]
    exact not_precedes_self _
  have hge : ¬ p < q := by
    rw [← precedes_ofOffset_iff, h]
    exact not_precedes_self _
  exact Std.le_antisymm (Std.not_lt.1 hle) (Std.not_lt.1 hge)

/-- An offset inside a character has the position of the boundary before the character. -/
theorem ofOffset_inside {p : text.Pos} (h : p ≠ text.endPos) {n : Nat}
    (hle : p.offset.byteIdx ≤ n) (hlt : n < (p.next h).offset.byteIdx) :
    ofOffset text.toList n = ofOffset text.toList p.offset.byteIdx := by
  have hsplits := p.splits_next_right h
  have hsize : p.offset.byteIdx = Text.size (text.sliceTo p).copy.toList := by
    rw [hsplits.offset_eq_rawEndPos, String.byteIdx_rawEndPos, Text.size_toList]
  have htext : text.toList = (text.sliceTo p).copy.toList ++
      p.get h :: (text.sliceFrom (p.next h)).copy.toList := by
    conv_lhs => rw [hsplits.eq_append]
    simp
  rw [String.Pos.byteIdx_offset_next, hsize] at hlt
  rw [hsize] at hle
  rw [ofOffset_of_splits hsplits, ofOffset, htext, Text.takeBytes_inside hle hlt]

/-- An offset past the end has the position of the end. -/
theorem ofOffset_of_le {n : Nat} (h : text.utf8ByteSize ≤ n) :
    ofOffset text.toList n = ofOffset text.toList text.endPos.offset.byteIdx := by
  rw [← Text.size_toList] at h
  rw [ofOffset_of_splits text.splits_endPos, ofOffset, Text.takeBytes_of_le h]

/-- The positions of boundaries are in the order of the boundaries, and no two boundaries have the
same. Each counts the line feeds before the boundary, and the characters since the last of them. An
offset inside a character has the position of the boundary before the character, and one past the
end that of the end. -/
theorem ofOffset_boundaries (text : String) :
    let position (p : text.Pos) := ofOffset text.toList p.offset.byteIdx
    (∀ p q : text.Pos, p < q ↔ (position p).Precedes (position q)) ∧
    (∀ p q : text.Pos, position p = position q → p = q) ∧
    (∀ p : text.Pos, (position p).Counts (text.sliceTo p).copy.toList) ∧
    (∀ (p : text.Pos) (h : p ≠ text.endPos) (n : Nat), p.offset.byteIdx ≤ n →
      n < (p.next h).offset.byteIdx → ofOffset text.toList n = position p) ∧
    (∀ n, text.utf8ByteSize ≤ n → ofOffset text.toList n = position text.endPos) := by
  intro position
  have hcounts : ∀ p : text.Pos, (position p).Counts (text.sliceTo p).copy.toList := by
    intro p
    show (ofOffset text.toList p.offset.byteIdx).Counts _
    rw [ofOffset_of_splits p.splits]
    exact counts_after _
  exact ⟨fun p q => precedes_ofOffset_iff.symm, fun p q => eq_of_ofOffset_eq, hcounts,
    fun p h n => ofOffset_inside h, fun n => ofOffset_of_le⟩

/-- A line feed at the third byte, and a character of four bytes on the next line. -/
theorem ofOffset_boundaries_bytes :
    let text := "é\n𝒫"
    let feed := text.pos ⟨2⟩ (by decide)
    let letter := text.pos ⟨3⟩ (by decide)
    (feed < letter ∧ (ofOffset text.toList 2).Precedes (ofOffset text.toList 3)) ∧
    (∃ h : letter ≠ text.endPos, 3 ≤ 5 ∧ 5 < (letter.next h).offset.byteIdx ∧
      ofOffset text.toList 5 = ofOffset text.toList 3) ∧
    (text.utf8ByteSize ≤ 9 ∧ ofOffset text.toList 9 = ofOffset text.toList 7) := by
  intro text feed letter
  obtain ⟨hmono, -, -, hinside, hend⟩ := ofOffset_boundaries text
  have hlt : feed < letter := by decide
  have hletter : letter ≠ text.endPos := by decide
  have hnext : ∀ h : letter ≠ text.endPos, 5 < (letter.next h).offset.byteIdx := by decide
  have hsize : text.utf8ByteSize ≤ 9 := by decide
  exact ⟨⟨hlt, (hmono feed letter).1 hlt⟩,
    ⟨hletter, by decide, hnext hletter, hinside letter hletter 5 (by decide) (hnext hletter)⟩,
    hsize, hend 9 hsize⟩

end Position

end LsxKit
