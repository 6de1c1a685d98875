import LsxKit.Proofs.Diagnosis.Search
import LsxKit.Proofs.Tree.Address

/-!
# Locating elements

A path is located without a map from the tree to the text: its names are looked for one after the
other. That finds the element to which the path leads in the tree as long as no other element of a
name comes first.

* `Anchored`: where the search stands; `exists_anchored` and `Anchored.index` are its steps.
* `follow_eq`: from the tag of one element, the search goes on to the tag of the next.
* `locate_ofText`: the path of an element is located on the line of the element's own tag.
* `misplaced_examples`: what goes wrong with a namesake further inside, with a name that the
  outline cuts off, and with a name that stands for text.
-/

namespace LsxKit.Locator

open Json LsxKit.Tree Xml Occurrence Outline

/-! ## Paths whose names come first -/

/-- Whether the names of a path are found first where they belong: from the elements `here` of one
name on, no other element of a name comes before the first one directly inside. -/
def Straight (here : List Occurrence) : List Json.Step → Prop
  | [] => True
  | .key k :: path =>
    match here with
    | [] => True
    | e :: _ => FirstDirect k e.inside ∧ Straight (named k e.inside) path
  | .index i :: path => Straight here[i]?.toList path

/-- Whether each name of a path belongs to the first element of that name that comes after the
element before it, the first of all to the first in the text. -/
def NamesFirst (roots : List Occurrence) : List Json.Step → Prop
  | .key k :: path => FirstDirect k roots ∧ Straight (named k roots) path
  | _ => True

instance (k : String) (es : List Occurrence) : Decidable (FirstDirect k es) :=
  inferInstanceAs (Decidable (∀ e ∈ preorderAll (es.takeWhile (·.name ≠ k)), e.name ≠ k))

instance decidableStraight : (here : List Occurrence) → (path : List Json.Step) →
    Decidable (Straight here path)
  | _, [] => isTrue trivial
  | [], .key _ :: _ => isTrue trivial
  | e :: _, .key k :: path =>
    have := decidableStraight (named k e.inside) path
    inferInstanceAs (Decidable (FirstDirect k e.inside ∧ Straight (named k e.inside) path))
  | here, .index i :: path => decidableStraight here[i]?.toList path

instance (roots : List Occurrence) (path : List Json.Step) : Decidable (NamesFirst roots path) :=
  match path with
  | [] => isTrue trivial
  | .index _ :: _ => isTrue trivial
  | .key k :: path =>
    inferInstanceAs (Decidable (FirstDirect k roots ∧ Straight (named k roots) path))

/-! ## Following a path -/

variable {text : List Char} {l : Locator} {k : String} {a : Anchor} {here : List Occurrence}
  {e : Occurrence} {d : Nat} {es : List Occurrence} {ts : List OutlineTag}

/-- Whether the search stands at the first of the elements `here`, all of one name: counting from
the anchor on finds each of them. -/
structure Anchored (text : List Char) (k : String) (a : Anchor) (here : List Occurrence) :
    Prop where
  kind : a.1.kind = .opening
  name : a.1.name = k.toList
  finds : ∀ i e, here[i]? = some e → e.name = k ∧
    ∃ inner after, findSibling k.toList a.1.depth i (a.1 :: a.2) =
      some (beginTag text a.1.depth e, inner ++ after) ∧
        Outlines text (a.1.depth + 1) e.inside inner

/-- The anchor is the tag of the first element, and the tags of what is inside come next. -/
theorem Anchored.first (h : Anchored text k a (e :: here)) :
    a.1 = beginTag text a.1.depth e ∧
      ∃ inner after, a.2 = inner ++ after ∧ Outlines text (a.1.depth + 1) e.inside inner := by
  obtain ⟨-, inner, after, hfound, houtlines⟩ := h.finds 0 e rfl
  rw [findSibling_zero h.kind h.name] at hfound
  obtain ⟨htag, hafter⟩ := Prod.mk.inj (Option.some.inj hfound)
  exact ⟨htag, inner, after, hafter, houtlines⟩

/-- The search for a name goes on to the elements of that name. -/
theorem exists_anchored (hk : k ≠ declarationKey) (h : Outlines text d es ts)
    (hfirst : FirstDirect k es) (hne : named k es ≠ []) (tail : List OutlineTag) :
    ∃ a, findOpening k.toList (ts ++ tail) = some a ∧ Anchored text k a (named k es) := by
  obtain ⟨t, rest, es', ts', hfound, hts, houtlines, hnamed, hkind, hname, rfl⟩ :=
    exists_findOpening hk h hfirst hne tail
  refine ⟨(t, rest), hfound, hkind, hname, fun i e he => ?_⟩
  have hmem := List.mem_of_getElem? he
  refine ⟨by simpa using (List.mem_filter.1 hmem).2, ?_⟩
  rw [hts]
  exact exists_findSibling hk houtlines (by rw [hnamed, he]) tail

/-- Counting from the anchor on goes on to one of the elements. -/
theorem Anchored.index (h : Anchored text k a here) {i : Nat} (he : here[i]? = some e) :
    ∃ a', findSibling k.toList a.1.depth i (a.1 :: a.2) = some a' ∧ Anchored text k a' [e] := by
  obtain ⟨hname, inner, after, hfound, houtlines⟩ := h.finds i e he
  refine ⟨_, hfound, rfl, name_eq_iff.1 hname, fun j e' he' => ?_⟩
  cases j with
  | succ j => contradiction
  | zero =>
    obtain rfl : e = e' := Option.some.inj he'
    exact ⟨hname, inner, after, findSibling_zero rfl (name_eq_iff.1 hname) _, houtlines⟩

theorem lead_nil (path : List Json.Step) : lead [] path = none := by
  induction path with
  | nil => rfl
  | cons s path ih =>
    cases s with
    | key k => rfl
    | index i => exact ih

/-- The tags after an anchor; without one, all of them. -/
def later (l : Locator) : Option Anchor → List OutlineTag
  | some a => a.2
  | none => l.tags

theorem follow_key (hne : k ≠ l.group) (htext : k ≠ textKey) (anchor : Option Anchor)
    (h : findOpening k.toList (l.later anchor) = some a) (name : Option (List Char))
    (path : List Json.Step) :
    l.follow anchor name (.key k :: path) = l.follow (some a) (some k.toList) path := by
  conv => lhs; rw [follow.eq_def]
  cases anchor with
  | none =>
    have htags : findOpening k.toList l.tags = some a := h
    simp only [hne, htext, if_false, htags]
  | some b =>
    have htags : findOpening k.toList b.2 = some a := h
    simp only [hne, htext, if_false, htags]

/-- From the tag of one element, the search goes on to the tag of the element to which the path
leads. -/
theorem follow_eq (hgroup : l.group = attributesGroup) {path : List Json.Step}
    (hkeys : ∀ k, Json.Step.key k ∈ path → IsElementKey k) (ha : Anchored text k a here)
    (hlead : lead here path = some e) (hstraight : Straight here path) :
    l.follow (some a) (some k.toList) path = ⟨(position text e.offset).line, none⟩ := by
  -- the anchor stands at the first of the elements to which the steps so far lead
  induction path generalizing here a k with
  | nil =>
    obtain ⟨es, rfl⟩ := List.head?_eq_some_iff.1 hlead
    obtain ⟨htag, -⟩ := ha.first
    rw [follow, place, htag]
    rfl
  | cons s path ih =>
    have hkeys' : ∀ k, Json.Step.key k ∈ path → IsElementKey k :=
      fun k hk => hkeys k (List.mem_cons_of_mem _ hk)
    cases s with
    | key k' =>
      obtain ⟨hne, htext, hdeclaration⟩ := hkeys k' List.mem_cons_self
      cases here with
      | nil => contradiction
      | cons e₀ es =>
        obtain ⟨-, inner, after, hafter, houtlines⟩ := ha.first
        have hsome : named k' e₀.inside ≠ [] := by
          intro hnone
          have hlead : lead (named k' e₀.inside) path = some e := hlead
          rw [hnone, lead_nil] at hlead
          contradiction
        obtain ⟨a', hfound, ha'⟩ := exists_anchored hdeclaration houtlines hstraight.1 hsome after
        rw [← hafter] at hfound
        rw [follow_key (by rw [hgroup]; exact hne) htext (some a) hfound]
        exact ih hkeys' ha' hlead hstraight.2
    | index i =>
      cases he : here[i]? with
      | none =>
        rw [lead, he, Option.toList_none, lead_nil] at hlead
        contradiction
      | some e' =>
        obtain ⟨a', hfound, ha'⟩ := ha.index he
        rw [lead, he] at hlead
        rw [Straight, he] at hstraight
        rw [follow, hfound]
        exact ih hkeys' ha' hlead hstraight

/-- The line that is found for the path of an element is that on which its own tag begins. -/
theorem locate_eq (hgroup : l.group = attributesGroup) {roots : List Occurrence}
    {path : List Json.Step} (hkeys : ∀ k, Json.Step.key k ∈ path → IsElementKey k)
    {tail : List OutlineTag} (htags : l.tags = ts ++ tail) (houtlines : Outlines text 0 roots ts)
    (he : elementAt? roots path = some e) (hfirst : NamesFirst roots path) :
    l.locate path = ⟨(position text e.offset).line, none⟩ := by
  cases path with
  | nil => contradiction
  | cons s path =>
    cases s with
    | index i => contradiction
    | key k =>
      obtain ⟨hne, htext, hdeclaration⟩ := hkeys k List.mem_cons_self
      have hlead : lead (named k roots) path = some e := he
      have hsome : named k roots ≠ [] := by
        intro hnone
        rw [hnone, lead_nil] at hlead
        contradiction
      obtain ⟨a, hfound, ha⟩ := exists_anchored hdeclaration houtlines hfirst.1 hsome tail
      rw [← htags] at hfound
      rw [locate, follow_key (by rw [hgroup]; exact hne) htext none hfound]
      exact follow_eq hgroup (fun k hk => hkeys k (List.mem_cons_of_mem _ hk)) ha hlead hfirst.2

/-- In a document without comments and the like, the path of an element is located on the line on
which the element's own tag begins, if names have no characters that end them in an outline and
each name of the path comes first where it belongs. -/
theorem locate_ofText {o : Tree.Options} (hgroup : o.group = some attributesGroup) {text : String}
    (hplain : ∀ e ∈ (Event.reading text.toList).events, e.2.IsPlain)
    (hnames : ∀ e ∈ (Event.reading text.toList).events, e.2.KeepsName)
    (hcheck : checkWellFormed text = .ok ()) {tree : Value} (hparse : parse o text = .ok tree)
    {path : List Json.Step} (hne : path ≠ [])
    (hkeys : ∀ k, Json.Step.key k ∈ path → IsElementKey k) {v : Value}
    (hat : tree.at? path = some v) (harray : v.isArray = false)
    (hfirst : NamesFirst (occurrences text.toList) path) :
    ∃ e inner, elementAt? (occurrences text.toList) path = some e ∧ IsTree o inner v e ∧
      (ofText text attributesGroup).locate path =
        ⟨(position text.toList e.offset).line, none⟩ := by
  obtain ⟨hfault, -⟩ := checkWellFormed_ok hcheck
  obtain ⟨d, hread, rfl⟩ := map_eq_ok_iff.1 hparse
  obtain ⟨hdescribes, hopened⟩ := Document.describes_occurrences hread
  obtain ⟨e, inner, he, htree⟩ := exists_elementAt? hgroup hdescribes hne hkeys hat harray
  obtain ⟨tail, -, htags⟩ := outline_eq hfault fun e he => ⟨hplain e he, hnames e he⟩
  have houtlines := outlines_occurrences hopened hplain
  exact ⟨e, inner, he, htree, locate_eq rfl hkeys htags houtlines he hfirst⟩

/-- The characters of lines, each with its end. -/
def charsOfLines (lines : List String) : List Char := lines.flatMap fun l => l.toList ++ ['\n']

/-- A text given by its lines. -/
def textOfLines (lines : List String) : String := String.ofList (charsOfLines lines)

/-- Equal names at several depths and in several places, a tag over two lines with a bracket in a
value, and two tags on a line. -/
def nestedLines : List String :=
  ["<?xml version=\"1.0\"?>", "<a>", "<b", "k=\"<c>\">", "<c/>", "</b>", "<d/><b/>", "<b>t",
    "<c/><c", "></c></b>", "</a>"]

/-- The path of the second `c` in the third `b`. -/
def nestedPath : List Json.Step := [.key "a", .key "b", .index 2, .key "c", .index 1]

/-- The second `c` in the third `b` begins on the line with the number 8. -/
theorem locate_ofText_nested :
    ∃ e inner v, elementAt? (occurrences (textOfLines nestedLines).toList) nestedPath = some e ∧
      IsTree .standard inner v e ∧ (position (textOfLines nestedLines).toList e.offset).line = 8 ∧
      (ofText (textOfLines nestedLines) attributesGroup).locate nestedPath = ⟨8, none⟩ := by
  have hplain : ∀ e ∈ (Event.reading (textOfLines nestedLines).toList).events, e.2.IsPlain := by
    rw [textOfLines, String.toList_ofList]
    decide +kernel
  have hnames : ∀ e ∈ (Event.reading (textOfLines nestedLines).toList).events,
      e.2.KeepsName := by
    rw [textOfLines, String.toList_ofList]
    decide +kernel
  have hcheck : checkWellFormed (textOfLines nestedLines) = .ok () := by
    rw [checkWellFormed, textOfLines, String.toList_ofList]
    decide +kernel
  have htree : (parse .standard (textOfLines nestedLines)).toOption.bind (fun tree =>
      (tree.at? nestedPath).map Value.isArray) = some false := by
    rw [parse, Document.read, textOfLines, String.toList_ofList]
    decide +kernel
  have hne : nestedPath ≠ [] := List.cons_ne_nil _ _
  have hkeys : ∀ s ∈ nestedPath, ∀ k ∈ s.key?, IsElementKey k := by decide
  have hfirst : NamesFirst (occurrences (textOfLines nestedLines).toList) nestedPath := by
    rw [textOfLines, String.toList_ofList]
    decide +kernel
  have hline : (elementAt? (occurrences (textOfLines nestedLines).toList) nestedPath).map
      (fun e => (position (textOfLines nestedLines).toList e.offset).line) = some 8 := by
    rw [textOfLines, String.toList_ofList]
    decide +kernel
  obtain ⟨tree, hparse, hat⟩ := Option.bind_eq_some_iff.1 htree
  obtain ⟨v, hv, harray⟩ := Option.map_eq_some_iff.1 hat
  obtain ⟨e, inner, he, hvalue, hlocated⟩ := locate_ofText rfl hplain hnames hcheck
    (ok_of_toOption hparse) hne (fun k hk => hkeys _ hk k rfl) hv harray hfirst
  rw [he, Option.map_some, Option.some.injEq] at hline
  rw [hline] at hlocated
  exact ⟨e, inner, v, he, hvalue, hline, hlocated⟩

/-- Whether a path leads to an element of a document without comments and the like, and is located
on another line than that of the element's tag. -/
def Misplaced (text : String) (path : List Json.Step) : Prop :=
  (∀ e ∈ (Event.reading text.toList).events, e.2.IsPlain) ∧ checkWellFormed text = .ok () ∧
    (∃ tree v, parse .standard text = .ok tree ∧ tree.at? path = some v ∧ v.isArray = false) ∧
    ∃ e, elementAt? (occurrences text.toList) path = some e ∧
      ((ofText text attributesGroup).locate path).line ≠ (position text.toList e.offset).line

theorem misplaced_of_lines {cs : List Char} {path : List Json.Step} (line line' : Nat)
    (h : (∀ e ∈ (Event.reading cs).events, e.2.IsPlain) ∧
      (WellFormed.check cs).toOption = some () ∧
      (parse .standard (String.ofList cs)).toOption.bind (fun tree =>
        (tree.at? path).map Value.isArray) = some false ∧
      (elementAt? (occurrences cs) path).map (fun e => (position cs e.offset).line) = some line ∧
      ((ofLines (Text.lines cs) attributesGroup).locate path).line = line')
    (hne : line' ≠ line) : Misplaced (String.ofList cs) path := by
  obtain ⟨hplain, hcheck, htree, helement, hlocated⟩ := h
  obtain ⟨tree, hparse, hat⟩ := Option.bind_eq_some_iff.1 htree
  obtain ⟨v, hv, harray⟩ := Option.map_eq_some_iff.1 hat
  obtain ⟨e, he, hline⟩ := Option.map_eq_some_iff.1 helement
  rw [Misplaced, checkWellFormed, ofText, String.toList_ofList]
  refine ⟨hplain, mapError_eq_ok_iff.2 (ok_of_toOption hcheck),
    ⟨tree, v, ok_of_toOption hparse, hv, harray⟩, e, he, ?_⟩
  rw [hlocated, hline]
  exact hne

/-- A namesake further inside comes first; a name is cut off at a slash; and an element is named
like the member of a text. -/
theorem misplaced_examples :
    Misplaced (textOfLines ["<a>", "<b>", "<c/>", "</b>", "<c/>", "</a>"])
        [.key "a", .key "c"] ∧
      Misplaced (textOfLines ["<a>", "<c/x></c/x>", "<c/>", "</a>"]) [.key "a", .key "c"] ∧
      Misplaced (textOfLines ["<a>", "<#text/>", "</a>"]) [.key "a", .key "#text"] := by
  refine ⟨misplaced_of_lines 4 2 ?_ (by decide), misplaced_of_lines 2 1 ?_ (by decide),
    misplaced_of_lines 1 0 ?_ (by decide)⟩
  all_goals
    simp only [parse, Document.read, String.toList_ofList]
    decide +kernel

end LsxKit.Locator
