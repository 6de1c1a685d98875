import LsxKit.Proofs.Diagnosis.Columns
import LsxKit.Proofs.Diagnosis.Outline
import LsxKit.Proofs.Diagnosis.Syntax

/-!
# Ranges of problems

A problem of a document that cannot be read stands where the reader stopped, which it knows as an
offset; one of a schema stands at a tag or an attribute of the outline. Both fit the text.

* `Range.OnLine`, `Range.Within`: what holds of the range of any problem, and of one of a schema.
* `exists_line_of_mem_ofLines`: the tags of an outline begin inside lines of the text.
* `within_locate`: the place of a path is a line of the text or a part of one.
* `problems_ranges`: which problems a document has, and that their ranges fit the text.
-/

namespace LsxKit

/-! ## Lines -/

namespace Text

theorem length_lines_le (s : List Char) : (lines s).length ≤ s.count '\n' + 1 := by
  induction hlength : s.length using Nat.strongRecOn generalizing s with
  | ind length ih =>
    rcases exists_line s with hline | ⟨line, rest, hline, rfl⟩
    · rw [lines_of_not_mem hline]
      split_ifs
      · exact Nat.zero_le _
      · exact Nat.le_add_left 1 _
    · have hshorter : rest.length < length := by
        rw [← hlength, List.length_append, List.length_cons]
        omega
      have hrest := ih rest.length hshorter rest rfl
      rw [lines_append hline, List.length_cons, List.count_append, List.count_cons_self]
      omega

theorem lines_ne_nil {s : List Char} (h : s ≠ []) : lines s ≠ [] := by
  rcases exists_line s with hline | ⟨line, rest, hline, rfl⟩
  · rw [lines_of_not_mem hline, if_neg (by simpa using h)]
    exact List.cons_ne_nil s []
  · rw [lines_append hline]
    exact List.cons_ne_nil _ _

end Text

/-- The line of an offset is at most the number of line feeds. -/
theorem Position.line_ofOffset_le (s : List Char) (offset : Nat) :
    (ofOffset s offset).line ≤ s.count '\n' :=
  (Text.takeBytes_prefix offset s).sublist.count_le '\n'

namespace Range

/-- A range is a part of one line, the number of which is at most the number of line feeds. -/
structure OnLine (text : List Char) (r : Range) : Prop where
  line_eq : r.start.line = r.stop.line
  column_le : r.start.column ≤ r.stop.column
  line_le : r.start.line ≤ text.count '\n'

/-- A range ends inside one of the lines of a text. -/
def Within (text : List Char) (r : Range) : Prop :=
  ∃ l, (Text.lines text)[r.start.line]? = some l ∧ r.stop.column ≤ l.length

variable {text : List Char} {lines : List (List Char)} {line column : Nat}

theorem onLine_toLineEnd (h : line ≤ text.count '\n') : (toLineEnd lines line column).OnLine text :=
  ⟨rfl, Nat.le_max_right _ column, h⟩

theorem within_toLineEnd {l : List Char} (h : (Text.lines text)[line]? = some l)
    (hcolumn : column ≤ l.length) : (toLineEnd (Text.lines text) line column).Within text := by
  refine ⟨l, h, ?_⟩
  simp only [toLineEnd, h]
  exact Nat.max_le.2 ⟨Nat.le_refl _, hcolumn⟩

theorem within_wholeLine {l : List Char} (h : (Text.lines text)[line]? = some l) :
    (wholeLine (Text.lines text) line).Within text := by
  refine within_toLineEnd h ?_
  simp only [h]
  exact (List.takeWhile_prefix Text.isBlank).length_le

/-- A line of a text is one of those that the line feeds count. -/
theorem line_le_of_getElem? {l : List Char} (h : (Text.lines text)[line]? = some l) :
    line ≤ text.count '\n' := by
  have hlt : line < (Text.lines text).length := (List.getElem?_eq_some_iff.1 h).1
  have hle := Text.length_lines_le text
  omega

end Range

/-! ## Tags and attributes -/

namespace Outline

variable {t : OutlineTag}

/-- A tag of a line begins at one of its characters. -/
theorem mem_scanLine {n column : Nat} {s : State} {previous : Char} {cs : List Char}
    (h : t ∈ (scanLine n s column previous cs).1) : t.line = n ∧ t.column < column + cs.length := by
  induction cs generalizing column s previous with
  | nil => contradiction
  | cons c cs ih =>
    rw [scanLine_cons, List.mem_append, Option.mem_toList] at h
    rcases h with h | h
    · obtain ⟨hline, hcolumn, -⟩ := of_mem_step h
      rw [List.length_cons]
      exact ⟨hline, by omega⟩
    · obtain ⟨hline, hcolumn⟩ := ih h
      rw [List.length_cons]
      exact ⟨hline, by omega⟩

theorem mem_scanLines {n : Nat} {s : State} {lines : List (List Char)}
    (h : t ∈ scanLines n s lines) :
    ∃ i l, t.line = n + i ∧ lines[i]? = some l ∧ t.column < l.length := by
  induction lines generalizing n s with
  | nil => contradiction
  | cons cs lines ih =>
    rcases List.mem_append.1 h with h | h
    · obtain ⟨hline, hcolumn⟩ := mem_scanLine h
      exact ⟨0, cs, hline, rfl, by simpa using hcolumn⟩
    · obtain ⟨i, l, hline, hl, hcolumn⟩ := ih h
      exact ⟨i + 1, l, by omega, hl, hcolumn⟩

/-- A tag of an outline begins inside one of the lines. -/
theorem exists_line_of_mem_ofLines {lines : List (List Char)} (h : t ∈ ofLines lines) :
    ∃ l, lines[t.line]? = some l ∧ t.column < l.length := by
  obtain ⟨i, l, hline, hl, hcolumn⟩ := mem_scanLines h
  rw [Nat.zero_add] at hline
  exact ⟨l, hline ▸ hl, hcolumn⟩

end Outline

namespace Locator

variable {name : List Char} {ts : List OutlineTag} {a : Anchor}

/-- What is found is a tag with all tags after it. -/
theorem suffix_of_findOpening (h : findOpening name ts = some a) : a.1 :: a.2 <:+ ts := by
  induction ts with
  | nil => contradiction
  | cons t ts ih =>
    rw [findOpening] at h
    split_ifs at h
    · obtain rfl := Option.some.inj h
      exact List.suffix_rfl
    · exact (ih h).trans (List.suffix_cons t ts)

theorem suffix_of_findSibling {depth index : Nat}
    (h : findSibling name depth index ts = some a) : a.1 :: a.2 <:+ ts := by
  induction ts generalizing index with
  | nil => contradiction
  | cons t ts ih =>
    have hlater : ∀ {index}, findSibling name depth index ts = some a → a.1 :: a.2 <:+ t :: ts :=
      fun h => (ih h).trans (List.suffix_cons t ts)
    unfold findSibling at h
    split_ifs at h
    · exact hlater h
    · cases index with
      | zero =>
        obtain rfl := Option.some.inj h
        exact List.suffix_rfl
      | succ index => exact hlater h
    · exact hlater h

end Locator

/-! ## Places of paths -/

/-- A place is a line of a text or, for an attribute, a part of one. -/
def Location.Within (lines : List (List Char)) (place : Location) : Prop :=
  ∃ l, lines[place.line]? = some l ∧ ∀ c ∈ place.columns, c.1 ≤ c.2 ∧ c.2 ≤ l.length

namespace Locator

/-- An anchor is a tag of the outline, with tags of the outline after it. -/
def Placed (l : Locator) (anchor : Option Anchor) : Prop :=
  ∀ a ∈ anchor, a.1 ∈ l.tags ∧ a.2 ⊆ l.tags

/-- A tag that is found among tags of the outline is an anchor. -/
theorem placed_of_suffix {l : Locator} {ts : List OutlineTag} {a : Anchor} (hts : ts ⊆ l.tags)
    (hfound : a.1 :: a.2 <:+ ts) : l.Placed (some a) := by
  intro a' ha'
  obtain rfl := Option.mem_some.1 ha'
  exact List.cons_subset.1 (List.Subset.trans hfound.subset hts)

variable {l : Locator} {anchor : Option Anchor}
  (htags : ∀ t ∈ l.tags, ∃ text, l.lines[t.line]? = some text ∧ t.column < text.length)
  (hlines : l.lines ≠ [])

include htags hlines

/-- The place of an anchor is inside a line, or at its end. -/
theorem exists_line_of_placed (h : l.Placed anchor) :
    ∃ text, l.lines[(place anchor).1]? = some text := by
  cases anchor with
  | none =>
    obtain ⟨text, lines, heq⟩ := List.exists_cons_of_ne_nil hlines
    exact ⟨text, by rw [heq]; rfl⟩
  | some a =>
    obtain ⟨text, htext, -⟩ := htags a.1 (h a rfl).1
    exact ⟨text, htext⟩

theorem within_place (h : l.Placed anchor) :
    Location.Within l.lines ⟨(place anchor).1, none⟩ := by
  obtain ⟨text, htext⟩ := exists_line_of_placed htags hlines h
  exact ⟨text, htext, nofun⟩

theorem within_locateAttribute (h : l.Placed anchor) (name : String) :
    Location.Within l.lines (l.locateAttribute anchor name) := by
  obtain ⟨text, htext⟩ := exists_line_of_placed htags hlines h
  refine ⟨text, htext, ?_⟩
  rintro ⟨start, stop⟩ hcolumns
  obtain ⟨text', htext', hlt, hle, -⟩ := written_of_locateAttribute hcolumns
  obtain rfl := Option.some.inj (htext.symm.trans htext')
  exact ⟨Nat.le_of_lt hlt, hle⟩

/-- Wherever a path is followed to, the place is a line of the text or a part of one. -/
theorem within_follow (h : l.Placed anchor) (name : Option (List Char)) (path : List Json.Step) :
    Location.Within l.lines (l.follow anchor name path) := by
  fun_induction follow l anchor name path with
  | case1 => exact within_place htags hlines h
  | case2 => exact within_locateAttribute htags hlines h _
  | case3 => exact within_place htags hlines h
  | case4 _ _ _ _ ih => exact ih h
  | case5 anchor _ k _ _ _ later a hfound ih =>
    have hlater : later ⊆ l.tags := by
      cases anchor with
      | none => exact List.Subset.refl l.tags
      | some b => exact (h b rfl).2
    exact ih (placed_of_suffix hlater (suffix_of_findOpening hfound))
  | case6 => exact within_place htags hlines h
  | case7 i _ t ts n a hfound ih =>
    obtain ⟨ht, hts⟩ := h (t, ts) rfl
    exact ih (placed_of_suffix (List.cons_subset.2 ⟨ht, hts⟩) (suffix_of_findSibling hfound))
  | case8 => exact within_place htags hlines h
  | case9 => exact within_place htags hlines h

omit htags hlines

/-- Every path has a place in a text that is not empty. -/
theorem within_locate {text : String} (h : text.toList ≠ []) (group : String)
    (path : List Json.Step) :
    Location.Within (Text.lines text.toList) ((ofText text group).locate path) :=
  within_follow (l := ofText text group) (fun _ => Outline.exists_line_of_mem_ofLines)
    (Text.lines_ne_nil h) (fun a h => absurd h (Option.not_mem_none a)) none path

end Locator

/-! ## Problems -/

/-- What has no tree cannot be read. -/
theorem Tree.read_of_parse_error {o : Tree.Options} {text : String} {error : Error}
    (h : Tree.parse o text = .error error) :
    Xml.Document.read (!o.ignoreDeclaration) text = .error error := by
  rw [Tree.parse] at h
  cases hread : Xml.Document.read (!o.ignoreDeclaration) text with
  | ok document =>
    rw [hread] at h
    contradiction
  | error error' =>
    rw [hread] at h
    exact congrArg Except.error (Except.error.inj h)

/-- A well-formed document is not empty. -/
theorem ne_nil_of_checkWellFormed {text : String} (h : Xml.checkWellFormed text = .ok ()) :
    text.toList ≠ [] := by
  intro hnil
  obtain rfl := String.toList_eq_nil_iff.1 hnil
  have hnot : Xml.checkWellFormed "" ≠ .ok () := by decide +kernel
  exact hnot h

namespace Engine

variable {e : Engine} {d : TextDocument} {error : Error} {tree : Json.Value}

theorem tree_eq_ok_iff :
    e.tree d = .ok tree ↔
      Xml.checkWellFormed d.text = .ok () ∧ Tree.parse e.options d.text = .ok tree := by
  rw [Engine.tree]
  cases Xml.checkWellFormed d.text with
  | error error =>
    constructor
    · intro h
      contradiction
    · rintro ⟨h, -⟩
      contradiction
  | ok u => exact (and_iff_right rfl).symm

/-- A document has no tree if it is not well formed or cannot be read. -/
theorem exists_tree_error_iff :
    (∃ error, e.tree d = .error error) ↔
      (∃ error, Xml.checkWellFormed d.text = .error error) ∨
        ∃ error, Tree.parse e.options d.text = .error error := by
  cases hcheck : Xml.checkWellFormed d.text with
  | error error =>
    rw [Engine.tree, hcheck]
    exact iff_of_true ⟨error, rfl⟩ (.inl ⟨error, rfl⟩)
  | ok u =>
    rw [tree_eq_parse hcheck]
    refine (or_iff_right ?_).symm
    rintro ⟨_, h⟩
    contradiction

/-- An error that has a position has the one of an offset. -/
theorem exists_offset_of_tree {position : Position} {fault : Xml.DocumentFault}
    (h : e.tree d = .error (.document position fault)) :
    ∃ offset, position = Position.ofOffset d.text.toList offset := by
  cases hcheck : Xml.checkWellFormed d.text with
  | error error =>
    rw [Engine.tree, hcheck] at h
    obtain rfl : error = .document position fault := Except.error.inj h
    rw [Xml.checkWellFormed] at hcheck
    cases hfault : Xml.WellFormed.check d.text.toList with
    | error offset =>
      rw [hfault] at hcheck
      exact ⟨offset.1, (Error.document.inj (Except.error.inj hcheck)).1.symm⟩
    | ok u =>
      rw [hfault] at hcheck
      contradiction
  | ok u =>
    rw [tree_eq_parse hcheck] at h
    exact absurd (Tree.read_of_parse_error h) (Xml.unplaced_read hcheck position fault)

theorem onLine_syntaxProblem (h : e.tree d = .error error) :
    (e.syntaxProblem d error).range.OnLine d.text.toList := by
  cases error with
  | document position fault =>
    obtain ⟨offset, rfl⟩ := exists_offset_of_tree h
    exact Range.onLine_toLineEnd (Position.line_ofOffset_le _ offset)
  | _ => exact Range.onLine_toLineEnd (Nat.zero_le _)

/-- The problem of a violation stands on a line of the text. -/
theorem range_violationProblem (h : d.text.toList ≠ []) (v : Schema.Violation) :
    (e.violationProblem (Locator.ofText d.text e.group) v).range.OnLine d.text.toList ∧
      (e.violationProblem (Locator.ofText d.text e.group) v).range.Within d.text.toList := by
  obtain ⟨l, hl, hcolumns⟩ := Locator.within_locate h e.group v.path
  have hline := Range.line_le_of_getElem? hl
  cases hplace : ((Locator.ofText d.text e.group).locate v.path).columns with
  | none =>
    simp only [violationProblem, hplace]
    exact ⟨Range.onLine_toLineEnd hline, Range.within_wholeLine hl⟩
  | some c =>
    obtain ⟨hle, hend⟩ := hcolumns c hplace
    simp only [violationProblem, hplace]
    exact ⟨⟨rfl, hle, hline⟩, l, hl, hend⟩

/-- A document has one problem if it cannot be read, and else one for each violation of the schema;
the range of each problem fits the text. -/
theorem problems_ranges (e : Engine) (d : TextDocument) :
    ((∃ p, e.problems d = [p] ∧ p.code = some syntaxCode) ↔
      (∃ error, Xml.checkWellFormed d.text = .error error) ∨
        ∃ error, Tree.parse e.options d.text = .error error) ∧
    (∀ tree, Xml.checkWellFormed d.text = .ok () → Tree.parse e.options d.text = .ok tree →
      (e.problems d).map Problem.code =
        (e.validator.violations tree).map fun v => some v.breach.kind) ∧
    ∀ p ∈ e.problems d, p.range.OnLine d.text.toList ∧
      (p.code ≠ some syntaxCode → p.range.Within d.text.toList) := by
  rw [← exists_tree_error_iff]
  cases htree : e.tree d with
  | error error =>
    have hproblems : e.problems d = [e.syntaxProblem d error] := by
      rw [Engine.problems, htree]
    refine ⟨iff_of_true ⟨_, hproblems, rfl⟩ ⟨error, rfl⟩, fun tree hcheck hparse => ?_, ?_⟩
    · have hok := tree_eq_ok_iff.2 ⟨hcheck, hparse⟩
      rw [htree] at hok
      contradiction
    · rw [hproblems, List.forall_mem_singleton]
      exact ⟨onLine_syntaxProblem htree, fun hcode => absurd rfl hcode⟩
  | ok tree =>
    have hproblems : e.problems d = (e.validator.violations tree).map
        (e.violationProblem (Locator.ofText d.text e.group)) := by
      rw [Engine.problems, htree]
    obtain ⟨hcheck, hparse⟩ := tree_eq_ok_iff.1 htree
    refine ⟨iff_of_false ?_ ?_, fun tree' _ hparse' => ?_, fun p hp => ?_⟩
    · rintro ⟨p, hp, hcode⟩
      have hmem : p ∈ e.problems d := hp ▸ List.mem_singleton_self p
      rw [hproblems] at hmem
      obtain ⟨v, -, rfl⟩ := List.mem_map.1 hmem
      exact v.breach.kind_ne_syntaxCode (Option.some.inj hcode)
    · rintro ⟨_, h⟩
      contradiction
    · obtain rfl : tree = tree' := Except.ok.inj (hparse.symm.trans hparse')
      rw [hproblems, List.map_map]
      rfl
    · rw [hproblems] at hp
      obtain ⟨v, -, rfl⟩ := List.mem_map.1 hp
      obtain ⟨honLine, hwithin⟩ := range_violationProblem (ne_nil_of_checkWellFormed hcheck) v
      exact ⟨honLine, fun _ => hwithin⟩

/-- An engine for documents with a member that is an array. -/
def strictEngine : Engine :=
  ⟨"S", ⟨.mk .none [("a", .mk { Keywords.none with types := some (.single .array) } [] .free [])]
    .free [], []⟩, fun _ => true, .standard⟩

/-- A document with one violation, on its second line. -/
def strictDocument : TextDocument := ⟨"d", "xml", 1, "\n<a/>"⟩

/-- The problem of a member that is no array stands on a line of the text. -/
theorem problems_ranges_type :
    (strictEngine.problems strictDocument).map Problem.code = [some "type"] ∧
      ∀ p ∈ strictEngine.problems strictDocument, p.range.Within strictDocument.text.toList := by
  obtain ⟨-, hcodes, hranges⟩ := problems_ranges strictEngine strictDocument
  have hcheck : Xml.checkWellFormed strictDocument.text = .ok () := by decide +kernel
  have hkinds : (Tree.parse strictEngine.options strictDocument.text).map (fun tree =>
      (strictEngine.validator.violations tree).map fun v => some v.breach.kind) =
        .ok [some "type"] := by decide +kernel
  cases hparse : Tree.parse strictEngine.options strictDocument.text with
  | error error =>
    rw [hparse] at hkinds
    contradiction
  | ok tree =>
    rw [hparse] at hkinds
    have hcode := (hcodes tree hcheck hparse).trans (Except.ok.inj hkinds)
    refine ⟨hcode, fun p hp => (hranges p hp).2 ?_⟩
    have hmem : p.code ∈ [some "type"] := hcode ▸ List.mem_map_of_mem hp
    rw [List.mem_singleton.1 hmem]
    decide

end Engine

end LsxKit
