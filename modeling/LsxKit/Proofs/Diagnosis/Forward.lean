import LsxKit.Proofs.Diagnosis.Columns
import LsxKit.Proofs.Diagnosis.Locate
import LsxKit.Proofs.Diagnosis.Ranges

/-!
# Paths are followed forward

The search for a path never goes back: each anchor is found among the tags after the one before it.
So a longer path leads to the same line or a later one, whatever the lines hold, and where it ends
is the beginning of the text, a tag, or an attribute on the line of a tag.

* `Standing`: an anchor with all tags after it.
* `line_le_follow`, `line_follow_append_le`: a path and a longer one lead forward.
* `endsAt_follow`: a search ends at an anchor or at an attribute of one.
* `locate_forward`: the lines and columns of places.
-/

namespace LsxKit

/-! ## Tags in order -/

namespace Outline

theorem pairwise_scanLines (n : Nat) (s : State) (lines : List (List Char)) :
    (scanLines n s lines).Pairwise (·.line ≤ ·.line) := by
  induction lines generalizing n s with
  | nil => exact .nil
  | cons cs lines ih =>
    refine List.pairwise_append.2 ⟨?_, ih _ _, fun t ht t' ht' => ?_⟩
    · refine List.pairwise_iff_forall_sublist.2 fun hsub => ?_
      have hmem := fun t ht => (mem_scanLine (hsub.subset ht : t ∈ (scanLine n s 0 '\x00' cs).1)).1
      rw [hmem _ List.mem_cons_self, hmem _ (List.mem_cons_of_mem _ List.mem_cons_self)]
    · obtain ⟨i, -, hline, -, -⟩ := mem_scanLines ht'
      rw [(mem_scanLine ht).1, hline]
      omega

/-- The tags of an outline are in the order of their lines. -/
theorem pairwise_ofLines (lines : List (List Char)) :
    (ofLines lines).Pairwise (·.line ≤ ·.line) :=
  pairwise_scanLines 0 .initial lines

end Outline

namespace Locator

open Json

variable {l : Locator} {anchor : Option Anchor} {a : Anchor} {name : Option (List Char)}

/-! ## Anchors -/

/-- Whether an anchor is a tag of the outline with all tags after it. -/
def Standing (l : Locator) (anchor : Option Anchor) : Prop :=
  ∀ a ∈ anchor, a.1 :: a.2 <:+ l.tags

/-- What is found among the tags from an anchor on is an anchor. -/
theorem standing_of_suffix {b : Anchor} (h : l.Standing (some b))
    (hfound : a.1 :: a.2 <:+ b.1 :: b.2) : l.Standing (some a) := by
  intro a' ha'
  obtain rfl := Option.mem_some.1 ha'
  exact hfound.trans (h b rfl)

theorem standing_of_later (h : l.Standing anchor) (hfound : a.1 :: a.2 <:+ l.later anchor) :
    l.Standing (some a) := by
  cases anchor with
  | none =>
    intro a' ha'
    obtain rfl := Option.mem_some.1 ha'
    exact hfound
  | some b => exact standing_of_suffix h (hfound.trans (List.suffix_cons b.1 b.2))

/-! ## Lines of places -/

theorem follow_text (h : Tree.textKey ≠ l.group) (anchor : Option Anchor)
    (name : Option (List Char)) (path : List Step) :
    l.follow anchor name (.key Tree.textKey :: path) = l.follow anchor name path := by
  conv => lhs; rw [follow.eq_def]
  simp only [h, if_true, if_false]

theorem follow_index {n : List Char} {t : OutlineTag} {ts : List OutlineTag} {i : Nat}
    (h : findSibling n t.depth i (t :: ts) = some a) (path : List Step) :
    l.follow (some (t, ts)) (some n) (.index i :: path) = l.follow (some a) (some n) path := by
  rw [follow, h]

/-- What is found by a key is found among the tags after the anchor. -/
theorem suffix_later {k : String} {after : List OutlineTag} (hafter : after = l.later anchor)
    (h : findOpening k.toList after = some a) : a.1 :: a.2 <:+ l.later anchor :=
  hafter ▸ suffix_of_findOpening h

section

variable (hsorted : l.tags.Pairwise (·.line ≤ ·.line))

include hsorted

/-- What is found among the tags from an anchor on is not on an earlier line. -/
theorem line_le_of_suffix {b : Anchor} (h : l.Standing (some b))
    (hfound : a.1 :: a.2 <:+ b.1 :: b.2) : b.1.line ≤ a.1.line := by
  have hafter := List.pairwise_cons.1 (hsorted.sublist (h b rfl).sublist)
  rcases List.mem_cons.1 (hfound.subset List.mem_cons_self) with heq | hmem
  · rw [heq]
  · exact hafter.1 a.1 hmem

theorem line_le_of_later (h : l.Standing anchor) (hfound : a.1 :: a.2 <:+ l.later anchor) :
    (place anchor).1 ≤ a.1.line := by
  cases anchor with
  | none => exact Nat.zero_le _
  | some b => exact line_le_of_suffix hsorted h (hfound.trans (List.suffix_cons b.1 b.2))

/-- The search does not go back before its anchor. -/
theorem line_le_follow (h : l.Standing anchor) (name : Option (List Char)) (path : List Step) :
    (place anchor).1 ≤ (l.follow anchor name path).line := by
  fun_induction follow l anchor name path with
  | case1 => exact Nat.le_refl _
  | case2 => exact Nat.le_refl _
  | case3 => exact Nat.le_refl _
  | case4 _ _ _ _ ih => exact ih h
  | case5 anchor _ k _ _ _ after a hfound ih =>
    have hafter : after = l.later anchor := by cases anchor <;> rfl
    have hsuffix := suffix_later hafter hfound
    exact Nat.le_trans (line_le_of_later hsorted h hsuffix) (ih (standing_of_later h hsuffix))
  | case6 => exact Nat.le_refl _
  | case7 i _ t ts n a hfound ih =>
    have hsuffix := suffix_of_findSibling hfound
    exact Nat.le_trans (line_le_of_suffix hsorted h hsuffix) (ih (standing_of_suffix h hsuffix))
  | case8 => exact Nat.le_refl _
  | case9 => exact Nat.le_refl _

/-- A longer path leads to the same line or a later one. -/
theorem line_follow_append_le (h : l.Standing anchor) (name : Option (List Char))
    (path path' : List Step) :
    (l.follow anchor name path).line ≤ (l.follow anchor name (path ++ path')).line := by
  have hforward := fun path => line_le_follow hsorted h name path
  -- where the shorter path ends at its anchor, the longer one goes forward from there
  fun_induction follow l anchor name path with
  | case1 => exact hforward path'
  | case2 => exact hforward _
  | case3 => exact hforward _
  | case4 anchor name path hgroup ih =>
    rw [List.cons_append, follow_text hgroup]
    exact ih h fun path => line_le_follow hsorted h name path
  | case5 anchor _ k path hgroup htext after a hfound ih =>
    have hafter : after = l.later anchor := by cases anchor <;> rfl
    have ha := standing_of_later h (suffix_later hafter hfound)
    rw [List.cons_append, follow_key hgroup htext anchor (hafter ▸ hfound)]
    exact ih ha fun path => line_le_follow hsorted ha _ path
  | case6 => exact hforward _
  | case7 i path t ts n a hfound ih =>
    have ha := standing_of_suffix h (suffix_of_findSibling hfound)
    rw [List.cons_append, follow_index hfound]
    exact ih ha fun path => line_le_follow hsorted ha _ path
  | case8 => exact hforward _
  | case9 => exact hforward _

end

/-! ## Where a search ends -/

/-- Whether the keys of a path after the first one of attributes begin with the name of one. -/
def LeadsToAttribute (group : String) (path : List Step) (name : String) : Prop :=
  ∃ before after, path = before ++ .key group :: .key name :: after ∧ .key group ∉ before

theorem LeadsToAttribute.cons {group name : String} {path : List Step} {s : Step}
    (h : LeadsToAttribute group path name) (hs : s ≠ .key group) :
    LeadsToAttribute group (s :: path) name := by
  obtain ⟨before, after, rfl, hbefore⟩ := h
  refine ⟨s :: before, after, rfl, ?_⟩
  rw [List.mem_cons, not_or]
  exact ⟨Ne.symm hs, hbefore⟩

/-- Whether a place is that of an anchor, or of an attribute of it to which the path leads. -/
def EndsAt (l : Locator) (path : List Step) (place : Location) : Prop :=
  ∃ anchor, l.Standing anchor ∧
    (place = ⟨(Locator.place anchor).1, none⟩ ∨
      ∃ k, LeadsToAttribute l.group path k ∧ place = l.locateAttribute anchor k)

theorem EndsAt.cons {path : List Step} {place : Location} {s : Step} (h : l.EndsAt path place)
    (hs : s ≠ .key l.group) : l.EndsAt (s :: path) place := by
  obtain ⟨anchor, hstanding, hplace | ⟨k, hk, hplace⟩⟩ := h
  · exact ⟨anchor, hstanding, .inl hplace⟩
  · exact ⟨anchor, hstanding, .inr ⟨k, hk.cons hs, hplace⟩⟩

/-- A search ends at an anchor or at an attribute of one. -/
theorem endsAt_follow (h : l.Standing anchor) (name : Option (List Char)) (path : List Step) :
    l.EndsAt path (l.follow anchor name path) := by
  fun_induction follow l anchor name path with
  | case1 anchor => exact ⟨anchor, h, .inl rfl⟩
  | case2 anchor _ k path => exact ⟨anchor, h, .inr ⟨k, ⟨[], path, rfl, List.not_mem_nil⟩, rfl⟩⟩
  | case3 anchor => exact ⟨anchor, h, .inl rfl⟩
  | case4 anchor _ path hgroup ih => exact (ih h).cons (by simpa using hgroup)
  | case5 anchor _ k path hgroup htext after a hfound ih =>
    have hafter : after = l.later anchor := by cases anchor <;> rfl
    have ha := standing_of_later h (suffix_later hafter hfound)
    exact (ih ha).cons (by simpa using hgroup)
  | case6 anchor => exact ⟨anchor, h, .inl rfl⟩
  | case7 i path t ts n a hfound ih =>
    exact (ih (standing_of_suffix h (suffix_of_findSibling hfound))).cons (by rintro ⟨⟩)
  | case8 _ _ t ts => exact ⟨some (t, ts), h, .inl rfl⟩
  | case9 anchor => exact ⟨anchor, h, .inl rfl⟩

variable {lines : List (List Char)} {group : String}

theorem standing_none (l : Locator) : l.Standing none := fun a h => absurd h (Option.not_mem_none a)

/-- An anchor in lines is on one of them, or at the beginning. -/
theorem line_place (h : (ofLines lines group).Standing anchor) :
    (place anchor).1 = 0 ∨ (place anchor).1 < lines.length := by
  cases anchor with
  | none => exact .inl rfl
  | some a =>
    have hmem : a.1 ∈ Outline.ofLines lines := (h a rfl).subset List.mem_cons_self
    obtain ⟨text, htext, -⟩ := Outline.exists_line_of_mem_ofLines hmem
    exact .inr (List.getElem?_eq_some_iff.1 htext).1

/-- A longer path leads to the same line or a later one, which is one of the lines or the
beginning. Columns are those of an attribute that is written there, of the name to which the path
leads. -/
theorem locate_forward (lines : List (List Char)) (group : String) {path longer : List Step}
    (h : path <+: longer) :
    ((ofLines lines group).locate path).line ≤ ((ofLines lines group).locate longer).line ∧
    (((ofLines lines group).locate longer).line = 0 ∨
      ((ofLines lines group).locate longer).line < lines.length) ∧
    ∀ start stop, ((ofLines lines group).locate longer).columns = some (start, stop) →
      ∃ name text, LeadsToAttribute group longer name ∧
        lines[((ofLines lines group).locate longer).line]? = some text ∧
        start < stop ∧ stop ≤ text.length ∧
        Written name.toList ((text.drop start).take (stop - start)) := by
  have hstart := standing_none (ofLines lines group)
  have hend : (ofLines lines group).EndsAt longer ((ofLines lines group).locate longer) :=
    endsAt_follow hstart none longer
  obtain ⟨anchor, hstanding, hplace⟩ := hend
  refine ⟨?_, ?_, fun start stop hcolumns => ?_⟩
  · obtain ⟨rest, rfl⟩ := h
    exact line_follow_append_le (Outline.pairwise_ofLines lines) hstart none path rest
  · have hline : ((ofLines lines group).locate longer).line = (place anchor).1 := by
      rcases hplace with hplace | ⟨k, -, hplace⟩
      · rw [hplace]
      · rw [hplace]
        rfl
    rw [hline]
    exact line_place hstanding
  · rcases hplace with hplace | ⟨name, hname, hplace⟩
    · rw [hplace] at hcolumns
      contradiction
    · rw [hplace] at hcolumns ⊢
      obtain ⟨text, htext, hlt, hle, hwritten⟩ := written_of_locateAttribute hcolumns
      exact ⟨name, text, hname, htext, hlt, hle, hwritten⟩

/-- Two lines that are no document, with characters of several bytes before an attribute. -/
def unclosedLines : List (List Char) := ["ä<a>".toList, "é</b><b ü = 'x>' ".toList]

/-- The columns of the attribute count its characters and not its bytes. -/
theorem locate_forward_unclosed :
    (ofLines unclosedLines "_@_").locate [.key "a", .key "b", .key "_@_", .key "ü"] =
        ⟨1, some (8, 16)⟩ ∧
      ((ofLines unclosedLines "_@_").locate [.key "a", .key "b"]).line ≤ 1 ∧
      ∃ name, LeadsToAttribute "_@_" [.key "a", .key "b", .key "_@_", .key "ü"] name ∧
        Written name.toList (("é</b><b ü = 'x>' ".toList.drop 8).take 8) := by
  have hprefix : [.key "a", .key "b"] <+: [Step.key "a", .key "b", .key "_@_", .key "ü"] :=
    ⟨[.key "_@_", .key "ü"], rfl⟩
  have hplace : (ofLines unclosedLines "_@_").locate
      [.key "a", .key "b", .key "_@_", .key "ü"] = ⟨1, some (8, 16)⟩ := by
    decide +kernel
  obtain ⟨hle, -, hcolumns⟩ := locate_forward unclosedLines "_@_" hprefix
  rw [hplace] at hle hcolumns
  obtain ⟨name, text, hname, htext, -, -, hwritten⟩ := hcolumns 8 16 rfl
  obtain rfl : "é</b><b ü = 'x>' ".toList = text := Option.some.inj htext
  exact ⟨hplace, hle, name, hname, hwritten⟩

end Locator

end LsxKit
