import LsxKit.Proofs.Diagnosis.Agreement
import LsxKit.Proofs.Diagnosis.Search
import LsxKit.Proofs.Xml.Placed
import Mathlib.Data.List.Nodup

/-!
# Counting siblings

Counting starts at the first tag of a name that comes after the tag of an element. If that tag
begins an element directly inside, the search counts exactly those of the name directly inside: what
is further inside is deeper, and the end tag of the element ends the search. Names are those of the
outline, which are cut off at a slash.

* `outlineName`: the name of an element for an outline.
* `nodup_ofLines`: no two tags of an outline begin at the same position.
* `exists_outlines_of_mem`: the tags of an outline around those of an element.
* `map_findSibling`: what counting finds among elements one after the other.
* `exists_outline_around`: the outline of a document around one of its elements.
* `findSibling_children`: what it finds inside an element.
-/

namespace LsxKit

/-! ## Tags and their positions -/

namespace Outline

variable {before : List Char} {s : State} {cs : List Char} {t : OutlineTag}

/-- A tag begins at one of the characters that are scanned. -/
theorem exists_position_of_mem_scan (h : t ∈ scan before s cs) :
    ∃ p q, cs = p ++ q ∧ t.position = Position.after (before ++ p) := by
  induction cs generalizing before s with
  | nil => contradiction
  | cons c cs ih =>
    rcases List.mem_append.1 h with h | h
    · obtain ⟨hline, hcolumn, -⟩ := of_mem_step (Option.mem_toList.1 h)
      refine ⟨[], c :: cs, rfl, ?_⟩
      rw [List.append_nil, OutlineTag.position, hline, hcolumn]
    · obtain ⟨p, q, rfl, hposition⟩ := ih h
      exact ⟨c :: p, q, rfl, by rw [hposition, List.append_assoc]; rfl⟩

theorem nodup_scan (before : List Char) (s : State) (cs : List Char) :
    ((scan before s cs).map OutlineTag.position).Nodup := by
  induction cs generalizing before s with
  | nil => exact List.nodup_nil
  | cons c cs ih =>
    rw [scan, List.map_append]
    refine List.nodup_append.2 ⟨?_, ih _ _, ?_⟩
    · cases (step s _ _ _ c cs).1 <;> simp
    · intro p hp q hq heq
      obtain ⟨t, ht, rfl⟩ := List.mem_map.1 hp
      obtain ⟨t', ht', rfl⟩ := List.mem_map.1 hq
      obtain ⟨skipped, _, -, hposition⟩ := exists_position_of_mem_scan ht'
      obtain ⟨hline, hcolumn, -⟩ := of_mem_step (Option.mem_toList.1 ht)
      rw [OutlineTag.position, hline, hcolumn, hposition, List.append_assoc] at heq
      exact List.cons_ne_nil c skipped (Position.eq_nil_of_after_append heq.symm)

/-- No two tags of an outline begin at the same position. -/
theorem nodup_ofLines (text : List Char) :
    ((ofLines (Text.lines text)).map OutlineTag.position).Nodup := by
  rw [ofLines_lines]
  exact nodup_scan [] .initial text

/-- What begins no element has a mark at the beginning of its name. -/
theorem kindOf_eq_other_iff (hkind : kindOf cs ≠ .closing) :
    kindOf cs = .other ↔
      (nameOf (kindOf cs) cs).head? = some '?' ∨ (nameOf (kindOf cs) cs).head? = some '!' := by
  cases cs with
  | nil => decide
  | cons c cs =>
    by_cases hslash : c = '/'
    · subst hslash
      exact absurd rfl hkind
    · by_cases hmark : c = '?' ∨ c = '!'
      · rcases hmark with rfl | rfl
        · exact iff_of_true rfl (.inl rfl)
        · exact iff_of_true rfl (.inr rfl)
      · rw [not_or] at hmark
        have hopening : kindOf (c :: cs) = .opening :=
          kindOf.eq_4 _ (by simp [hslash]) (by simp [hmark.1]) (by simp [hmark.2])
        rw [nameOf_opening hopening, hopening, List.takeWhile_cons]
        refine iff_of_false (by decide) ?_
        split_ifs
        · rintro (h | h)
          · exact hmark.1 (Option.some.inj h)
          · exact hmark.2 (Option.some.inj h)
        · decide

theorem kind_eq_other_iff (h : t ∈ scan before s cs) (hkind : t.kind ≠ .closing) :
    t.kind = .other ↔ t.name.head? = some '?' ∨ t.name.head? = some '!' := by
  induction cs generalizing before s with
  | nil => contradiction
  | cons c cs ih =>
    rcases List.mem_append.1 h with h | h
    · obtain ⟨-, -, hof, hname⟩ := of_mem_step (Option.mem_toList.1 h)
      rw [hof] at hkind ⊢
      rw [hname]
      exact kindOf_eq_other_iff hkind
    · exact ih h

end Outline

namespace Xml.Occurrence

/-- The name that an outline has for an element: that of its tag up to the first blank, slash or
closing bracket. -/
def outlineName (e : Occurrence) : String := String.ofList (e.tag.name.takeWhile Outline.inName)

end Xml.Occurrence

namespace Outline

open Locator Xml Occurrence

variable {text : List Char} {d : Nat} {es : List Occurrence} {ts : List OutlineTag}
  {e c : Occurrence} {k : String} {t : OutlineTag}

theorem name_clip_beginTag (text : List Char) (d : Nat) (e : Occurrence) :
    (beginTag text d e).clip.name = e.outlineName.toList := by
  rw [outlineName, String.toList_ofList]
  rfl

theorem kind_clip_beginTag (text : List Char) (d : Nat) (e : Occurrence) :
    (beginTag text d e).clip.kind ≠ .closing := by
  show TagKind.opening ≠ .closing
  decide

theorem opens_clip_beginTag (text : List Char) (d : Nat) (e : Occurrence) (k : String) :
    (beginTag text d e).clip.opens k.toList = true ↔ e.outlineName = k := by
  rw [OutlineTag.opens, Bool.and_eq_true, decide_eq_true_iff, decide_eq_true_iff,
    name_clip_beginTag, String.toList_inj]
  exact and_iff_right (kind_clip_beginTag text d e)

/-- What opens an element does not open a declaration. -/
theorem ne_declarationKey {before cs : List Char} {s : State} (h : t ∈ scan before s cs)
    (hkind : t.kind = .opening) (hopens : t.opens k.toList = true) : k ≠ Tree.declarationKey := by
  rintro rfl
  have hname : t.name = Tree.declarationKey.toList :=
    of_decide_eq_true (Bool.and_eq_true_iff.1 hopens).2
  have hother := kind_eq_other_iff h (by rw [hkind]; decide)
  rw [hname, hkind] at hother
  exact absurd (hother.2 (.inl rfl)) (by decide)

/-! ## The tags around an element -/

theorem Outlines.mem_of_mem (h : Outlines text d es ts) (he : e ∈ es) : beginTag text d e ∈ ts := by
  induction h with
  | nil => contradiction
  | declaration _ _ _ ih => exact List.mem_cons_of_mem _ (ih he)
  | element _ _ _ _ _ ih =>
    rcases List.mem_cons.1 he with rfl | he
    · exact List.mem_cons_self
    · exact List.mem_cons_of_mem _ (List.mem_append_right _ (List.mem_append_right _ (ih he)))

/-- The tags of elements are, around each element inside them: what comes before, its tag, the tags
of what is inside, its end tag unless nothing is inside, and what comes after. -/
theorem exists_outlines_of_mem (h : Outlines text d es ts) (he : e ∈ preorderAll es) :
    ∃ depth before inner ending after,
      ts = before ++ beginTag text depth e :: (inner ++ (Option.toList ending ++ after)) ∧
        Outlines text (depth + 1) e.inside inner ∧
        (∀ t ∈ ending, t.kind = .closing ∧ t.depth = depth + 1) ∧
        (ending = none → e.inside = []) := by
  induction h with
  | nil => contradiction
  | @declaration d es t ts _ _ _ ih =>
    obtain ⟨depth, before, inner, ending, after, rfl, hinside⟩ := ih he
    exact ⟨depth, t :: before, inner, ending, after, rfl, hinside⟩
  | @element d e' es inner ts ending hinside hending hended _ ihinside ih =>
    rw [preorderAll_cons, List.mem_cons, List.mem_append] at he
    rcases he with rfl | he | he
    · exact ⟨d, [], inner, ending, ts, rfl, hinside, hending, hended⟩
    · obtain ⟨depth, before, inner', ending', after, rfl, hinside'⟩ := ihinside he
      refine ⟨depth, beginTag text d e' :: before, inner', ending', after ++ (ending.toList ++ ts),
        ?_, hinside'⟩
      simp
    · obtain ⟨depth, before, inner', ending', after, rfl, hinside'⟩ := ih he
      refine ⟨depth, beginTag text d e' :: (inner ++ (ending.toList ++ before)), inner', ending',
        after, ?_, hinside'⟩
      simp

/-! ## Counting -/

theorem Deeper.clip (h : Deeper d t) : Deeper d t.clip := by
  refine ⟨h.1, fun hdepth => ?_⟩
  rcases h.2 hdepth with hkind | hname
  · exact .inl hkind
  · right
    show t.name.takeWhile inName = _
    rw [hname]
    rfl

section

variable (hk : k ≠ Tree.declarationKey)

include hk

theorem not_opens_clip_declaration (hname : t.name = ['?', 'x', 'm', 'l']) :
    t.clip.opens k.toList = false := by
  refine not_opens_declaration ?_ hk
  rw [OutlineTag.clip, hname]
  rfl

/-- Counting tags of a name among those of elements finds the elements of that name, up to an end
tag that is no deeper. -/
theorem map_findSibling (h : Outlines text d es ts) {tail : List OutlineTag}
    (htail : ∀ t ∈ tail.head?, t.kind = .closing ∧ t.depth ≤ d) (i : Nat) :
    (findSibling k.toList d i (ts.map OutlineTag.clip ++ tail)).map Prod.fst =
      ((es.filter (·.outlineName = k))[i]?).map fun e => (beginTag text d e).clip := by
  induction h generalizing i with
  | nil =>
    cases tail with
    | nil => rfl
    | cons t tail =>
      obtain ⟨hkind, hdepth⟩ := htail t rfl
      rw [List.map_nil, List.nil_append, findSibling.eq_def]
      simp [hkind, hdepth]
  | declaration hkind hname _ ih =>
    have hother : OutlineTag.kind (OutlineTag.clip _) ≠ .closing := fun h => by
      rw [OutlineTag.clip, hkind] at h
      contradiction
    rw [List.map_cons, List.cons_append,
      findSibling_other hother fun _ => not_opens_clip_declaration hk hname]
    exact ih htail i
  | @element d e es inner ts ending hinside hending hended _ _ ih =>
    -- what is inside the element and its end tag are deeper: the search goes on behind them
    have hend : ∀ i, findSibling k.toList d i
        ((inner ++ (ending.toList ++ ts)).map OutlineTag.clip ++ tail) =
          findSibling k.toList d i (ts.map OutlineTag.clip ++ tail) := by
      intro i
      have hpassed : ∀ t ∈ (inner ++ ending.toList).map OutlineTag.clip, Passed k.toList d t := by
        rw [List.forall_mem_map]
        intro t ht
        exact (deeper_inside hending hinside t ht).clip.passed hk
      have h := findSibling_passed hpassed i (ts.map OutlineTag.clip ++ tail)
      rwa [← List.append_assoc, ← List.map_append, List.append_assoc] at h
    rw [List.map_cons, List.cons_append]
    by_cases hname : e.outlineName = k
    · have hclip : (beginTag text d e).clip.name = k.toList := by rw [name_clip_beginTag, hname]
      rw [List.filter_cons_of_pos (by simpa using hname)]
      cases i with
      | zero =>
        have hfound : ∀ ts, findSibling k.toList d 0 ((beginTag text d e).clip :: ts) =
            some ((beginTag text d e).clip, ts) := findSibling_zero rfl hclip
        rw [hfound]
        rfl
      | succ i =>
        have hcount : ∀ ts, findSibling k.toList d (i + 1) ((beginTag text d e).clip :: ts) =
            findSibling k.toList d i ts := findSibling_succ rfl hclip i
        rw [hcount, hend]
        exact ih htail i
    · have hopens : (beginTag text d e).clip.opens k.toList = false := by
        rwa [Bool.eq_false_iff, Ne, opens_clip_beginTag]
      rw [List.filter_cons_of_neg (by simpa using hname),
        findSibling_other (kind_clip_beginTag text d e) fun _ => hopens, hend]
      exact ih htail i

end

/-! ## Counting from the first tag of a name -/

section

variable {tail : List OutlineTag} {a : Anchor} (h : Outlines text d es ts)
  (hnodup : ((ts.map OutlineTag.clip ++ tail).map OutlineTag.position).Nodup)
  (hfound : findOpening k.toList (ts.map OutlineTag.clip ++ tail) = some a) (hc : c ∈ es)
  (ha : a.1.position = position text c.offset)

include h hnodup hfound hc ha

/-- A tag that is found is that of the element that begins at its position. -/
theorem eq_clip_beginTag : a.1 = (beginTag text d c).clip := by
  have hmem : (beginTag text d c).clip ∈ ts.map OutlineTag.clip ++ tail :=
    List.mem_append_left _ (List.mem_map_of_mem (h.mem_of_mem hc))
  obtain ⟨skipped, hsplit, -⟩ := exists_skipped_of_findOpening hfound
  have hmem' : a.1 ∈ ts.map OutlineTag.clip ++ tail := by
    rw [hsplit]
    exact List.mem_append_right _ List.mem_cons_self
  exact List.inj_on_of_nodup_map hnodup hmem' hmem ha

/-- Where the first tag of a name begins one of some elements, counting from it on finds all of that
name among them. -/
theorem map_findSibling_of_findOpening (hk : k ≠ Tree.declarationKey)
    (htail : ∀ t ∈ tail.head?, t.kind = .closing ∧ t.depth ≤ d) (i : Nat) :
    (findSibling k.toList a.1.depth i (a.1 :: a.2)).map Prod.fst =
      ((es.filter (·.outlineName = k))[i]?).map fun e => (beginTag text d e).clip := by
  have htag := eq_clip_beginTag h hnodup hfound hc ha
  obtain ⟨skipped, hsplit, hnone, -⟩ := exists_skipped_of_findOpening hfound
  have hmem : a.1 ∈ ts.map OutlineTag.clip := htag ▸ List.mem_map_of_mem (h.mem_of_mem hc)
  obtain ⟨before, after, hts⟩ := List.append_of_mem hmem
  -- the tag stands only once, so what is skipped to it are tags of the elements
  have hskipped : skipped = before := by
    have hsame : skipped ++ a.1 :: a.2 = before ++ a.1 :: (after ++ tail) := by
      rw [← hsplit, hts, List.append_assoc, List.cons_append]
    have honce := (List.Nodup.of_map _ hnodup)
    rw [hsplit, List.nodup_middle, List.nodup_cons, List.mem_append, not_or] at honce
    exact ((List.append_cons_inj_of_notMem honce.1.1 honce.1.2).1 hsame).1
  have hpassed : ∀ t ∈ skipped, Passed k.toList d t := by
    intro t ht
    refine ⟨fun hkind => ?_, fun _ => hnone t ht⟩
    have hclip : t ∈ ts.map OutlineTag.clip := by
      rw [hts, ← hskipped]
      exact List.mem_append_left _ ht
    obtain ⟨t, hin, rfl⟩ := List.mem_map.1 hclip
    have hdeeper : d < t.depth := lt_depth_of_closing h hin hkind
    exact hdeeper
  rw [← map_findSibling hk h htail i, hsplit, findSibling_passed hpassed, htag]
  rfl

end

end Outline

/-! ## Counting inside an element -/

namespace Locator

open Xml Occurrence Outline

/-- Whether counting finds what is directly inside an element, with the names `nameOf`. The tag of
the element stands once in the outline; where the first tag of a name after it begins an element
directly inside, counting from there on finds exactly the elements of that name directly inside, in
order. -/
def CountsInside (nameOf : Occurrence → String) (text : List Char) (e : Occurrence) : Prop :=
  ∃ before depth after,
    Outline.ofLines (Text.lines text) = before ++ (beginTag text depth e).clip :: after ∧
    (∀ t ∈ before ++ after, t.position ≠ position text e.offset) ∧
    ∀ (name : String) (a : Anchor) (c : Occurrence), findOpening name.toList after = some a →
      c ∈ e.inside → a.1.position = position text c.offset → ∀ i,
        (findSibling name.toList a.1.depth i (a.1 :: a.2)).map Prod.fst =
          ((e.inside.filter (nameOf · = name))[i]?).map fun e' =>
            (beginTag text (depth + 1) e').clip

/-- The outline of a document without comments and the like around an element: its tag, the tags of
what is inside, and then, if that is anything, its end tag. -/
theorem exists_outline_around {text : String} (hcheck : checkWellFormed text = .ok ())
    (hplain : ∀ e ∈ (Event.reading text.toList).events, e.2.IsPlain) {e : Occurrence}
    (he : e ∈ preorderAll (occurrences text.toList)) :
    ∃ before depth inner tail, Outline.ofLines (Text.lines text.toList) =
        before ++ (beginTag text.toList depth e).clip :: (inner.map OutlineTag.clip ++ tail) ∧
      Outlines text.toList (depth + 1) e.inside inner ∧
      (e.inside ≠ [] → ∀ t ∈ tail.head?, t.kind = .closing ∧ t.depth ≤ depth + 1) := by
  obtain ⟨hfault, -⟩ := checkWellFormed_ok hcheck
  obtain ⟨tail, -, htags⟩ := outline_eq_clip hfault hplain
  obtain ⟨depth, before, inner, ending, after, hsplit, hinside, hending, hended⟩ :=
    exists_outlines_of_mem (outlines_occurrences (rooted_of_checkWellFormed hcheck).1 hplain) he
  refine ⟨before.map OutlineTag.clip, depth, inner,
    (ending.toList ++ after).map OutlineTag.clip ++ tail, ?_, hinside, fun hne => ?_⟩
  · rw [htags, hsplit]
    simp
  · cases ending with
    | none => exact absurd (hended rfl) hne
    | some t =>
      intro t' ht'
      obtain rfl : t.clip = t' := Option.some.inj ht'
      obtain ⟨hkind, hdepth⟩ := hending t rfl
      exact ⟨hkind, Nat.le_of_eq hdepth⟩

/-- In a document without comments and the like, counting finds what is directly inside an element,
with the names of the outline. -/
theorem findSibling_children {text : String} (hcheck : checkWellFormed text = .ok ())
    (hplain : ∀ e ∈ (Event.reading text.toList).events, e.2.IsPlain) {e : Occurrence}
    (he : e ∈ preorderAll (occurrences text.toList)) :
    CountsInside outlineName text.toList e := by
  obtain ⟨before, depth, inner, tail, hlist, hinside, htail⟩ :=
    exists_outline_around hcheck hplain he
  have hnodup := nodup_ofLines text.toList
  rw [hlist] at hnodup
  refine ⟨before, depth, _, hlist, fun t ht heq => ?_, fun name a c hfound hc ha i => ?_⟩
  · rw [List.map_append, List.map_cons, List.nodup_middle, List.nodup_cons, ← List.map_append]
      at hnodup
    have hmem := List.mem_map_of_mem (f := OutlineTag.position) ht
    rw [heq] at hmem
    exact hnodup.1 hmem
  · have hsuffix := (List.suffix_cons (beginTag text.toList depth e).clip
      (inner.map OutlineTag.clip ++ tail)).trans (List.suffix_append before _)
    have hinner := hnodup.sublist (hsuffix.sublist.map OutlineTag.position)
    have htag := eq_clip_beginTag hinside hinner hfound hc ha
    obtain ⟨skipped, hskipped, -, hopens⟩ := exists_skipped_of_findOpening hfound
    have hmem : a.1 ∈ scan [] .initial text.toList := by
      rw [← ofLines_lines, hlist]
      exact hsuffix.subset (hskipped ▸ List.mem_append_right skipped List.mem_cons_self)
    have hk := ne_declarationKey hmem (by rw [htag]; rfl) hopens
    exact map_findSibling_of_findOpening hinside hinner hfound hc ha hk
      (htail (List.ne_nil_of_mem hc)) i

/-- An element with a namesake in one directly inside it, and one behind it. -/
def siblingsText : String := "<r><a>\n<b/>\n<b><b/></b>\n<c/><b/>\n</a><b/></r>"

/-- From the first tag of the name on, counting finds the three elements directly inside. -/
theorem findSibling_children_nested :
    ∃ e ∈ preorderAll (occurrences siblingsText.toList),
      CountsInside outlineName siblingsText.toList e ∧
      e.inside.map (fun c => ((position siblingsText.toList c.offset).line, c.outlineName)) =
        [(1, "b"), (2, "b"), (3, "c"), (3, "b")] ∧
      (findOpening "b".toList ((Outline.ofLines (Text.lines siblingsText.toList)).drop 2)).map
        (·.1.position) = e.inside.head?.map fun c => position siblingsText.toList c.offset := by
  have hcheck : checkWellFormed siblingsText = .ok () := by decide +kernel
  have hplain : ∀ e ∈ (Event.reading siblingsText.toList).events, e.2.IsPlain := by
    decide +kernel
  have hinside : (preorderAll (occurrences siblingsText.toList))[1]?.map (fun e =>
      (e.inside.map (fun c => ((position siblingsText.toList c.offset).line, c.outlineName)),
        e.inside.head?.map fun c => position siblingsText.toList c.offset)) =
      some ([(1, "b"), (2, "b"), (3, "c"), (3, "b")], some ⟨1, 0⟩) := by
    decide +kernel
  have hfirst : (findOpening "b".toList ((Outline.ofLines (Text.lines siblingsText.toList)).drop
      2)).map (·.1.position) = some ⟨1, 0⟩ := by
    decide +kernel
  obtain ⟨e, he, hinside⟩ := Option.map_eq_some_iff.1 hinside
  obtain ⟨hnames, hhead⟩ := Prod.mk.inj hinside
  have hmem := List.mem_of_getElem? he
  exact ⟨e, hmem, findSibling_children hcheck hplain hmem, hnames, hfirst.trans hhead.symm⟩

/-- An element the name of which begins with that of the one before it and a slash. -/
def slashedText : String := "<a>\n<c/>\n<c/x></c/x>\n</a>"

/-- With the names of the document, counting finds too much: the outline cuts names off. -/
theorem not_countsInside_name :
    ¬ ∀ text : String, checkWellFormed text = .ok () →
      (∀ e ∈ (Event.reading text.toList).events, e.2.IsPlain) →
      ∀ e ∈ preorderAll (occurrences text.toList), CountsInside name text.toList e := by
  intro hall
  have hcheck : checkWellFormed slashedText = .ok () := by decide +kernel
  have hplain : ∀ e ∈ (Event.reading slashedText.toList).events, e.2.IsPlain := by
    decide +kernel
  have hroot : (preorderAll (occurrences slashedText.toList)).head?.map (fun e =>
      (e.offset, e.inside.map fun c => (c.offset, c.name))) = some (0, [(4, "c"), (9, "c/x")]) := by
    decide +kernel
  have htags : Outline.ofLines (Text.lines slashedText.toList) = [⟨0, 0, .opening, ['a'], 0⟩,
      ⟨1, 0, .opening, ['c'], 1⟩, ⟨2, 0, .opening, ['c'], 1⟩, ⟨2, 5, .closing, ['c'], 2⟩,
      ⟨3, 0, .closing, ['a'], 1⟩] := by
    decide +kernel
  have hposition : position slashedText.toList 0 = ⟨0, 0⟩ ∧
      position slashedText.toList 4 = ⟨1, 0⟩ := by
    decide +kernel
  obtain ⟨e, he, hroot⟩ := Option.map_eq_some_iff.1 hroot
  obtain ⟨hoffset, hinside⟩ := Prod.mk.inj hroot
  obtain ⟨c, rest, hrest, hc, hnext⟩ := List.map_eq_cons_iff.1 hinside
  obtain ⟨c', _, rfl, hc', hnil⟩ := List.map_eq_cons_iff.1 hnext
  obtain rfl := List.map_eq_nil_iff.1 hnil
  obtain ⟨hcoffset, hname⟩ := Prod.mk.inj hc
  obtain ⟨-, hname'⟩ := Prod.mk.inj hc'
  obtain ⟨before, depth, after, hlist, honce, hcount⟩ :=
    hall _ hcheck hplain e (List.mem_of_head? he)
  rw [htags] at hlist
  cases before with
  | cons t before =>
    obtain ⟨rfl, -⟩ := List.cons.inj hlist
    exact honce _ List.mem_cons_self (by rw [hoffset, hposition.1]; rfl)
  | nil =>
    obtain ⟨-, rfl⟩ := List.cons.inj hlist
    -- the second tag of the name that is counted is that of the other element
    have h := hcount "c" (⟨1, 0, .opening, ['c'], 1⟩, _) c rfl (by rw [hrest]; simp)
      (by rw [hcoffset, hposition.2]; rfl) 1
    rw [hrest] at h
    simp [hname, hname', findSibling, OutlineTag.opens] at h

end Locator

end LsxKit
