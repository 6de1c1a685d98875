import LsxKit.Localization.Table
import LsxKit.Proofs.Text.Pieces
import LsxKit.Proofs.Tree.Determined

/-!
# The text of elements

The text of an element is what stands directly inside it without blanks at its ends. The tree has
it with less space: each text between two pieces of markup has lost the space at its ends.

* `ownText`: the text of an element, `wording`: what the tree has instead.
* `wording_eq_ownText_iff`: they are the same if no space is dropped between other characters.
* `hasText_ownText_iff`: when the tree of an element has its text.
* `parse_hasText_iff`: so it is for all elements of a text.
-/

namespace LsxKit.Tree

open Json Xml Fragment

variable {o : Options} {path : String}

/-! ## Text and the pieces of it that are read -/

/-- The characters that stand directly inside an element, references resolved. -/
def characters : Fragment → List Char
  | .text raw => resolved raw
  | .characterData raw => raw
  | _ => []

/-- The text of an element: the characters directly inside it without blanks at the ends. -/
def ownText (f : Fragment) : String :=
  String.ofList (Text.trimBy Text.isBlank (f.inside.flatMap characters))

/-- The pieces of the characters that stand directly inside an element. Space at the ends of a text
is dropped. -/
def pieces : Fragment → List Text.Piece
  | .text raw =>
    [⟨Text.gapBefore isSpace raw, false⟩, ⟨resolved (Text.trimBy isSpace raw), true⟩,
      ⟨Text.gapAfter isSpace raw, false⟩]
  | .characterData raw => [⟨raw, true⟩]
  | _ => []

/-- Whether no space is dropped between characters of the text of an element. -/
def KeepsSpace (f : Fragment) : Prop := Text.DropsAtEnds Text.isBlank (f.inside.flatMap pieces)

theorem resolved_eq_gaps {raw : List Char} (h : Resolves raw) :
    resolved raw = Text.gapBefore isSpace raw ++
      (resolved (Text.trimBy isSpace raw) ++ Text.gapAfter isSpace raw) :=
  resolved_eq (unescape_of_trimBy (resolves_trimBy h).unescape_eq)

theorem whole_pieces {fs : List Fragment} (h : ∀ raw, .text raw ∈ fs → Resolves raw) :
    Text.whole (fs.flatMap pieces) = fs.flatMap characters := by
  induction fs with
  | nil => rfl
  | cons f fs ih =>
    have hrest := ih fun raw hmem => h raw (List.mem_cons_of_mem _ hmem)
    rw [List.flatMap_cons, List.flatMap_cons, Text.whole_append, hrest]
    cases f with
    | text raw =>
      rw [characters, resolved_eq_gaps (h raw List.mem_cons_self)]
      simp [pieces]
    | characterData raw => simp [pieces, characters]
    | _ => rfl

theorem contentText_append (ns ns' : List Node) :
    contentText (ns ++ ns') = contentText ns ++ contentText ns' := by
  induction ns with
  | nil => rfl
  | cons n ns ih =>
    cases n with
    | text s => rw [List.cons_append, contentText, contentText, ih, List.append_assoc]
    | element name attributes content => exact ih

theorem remaining_pieces (fs : List Fragment) :
    Text.remaining (fs.flatMap pieces) = contentText (nodesAll fs) := by
  induction fs with
  | nil => rfl
  | cons f fs ih =>
    rw [List.flatMap_cons, Text.remaining_append, ih, nodesAll, contentText_append]
    cases f with
    | text raw =>
      rw [nodes]
      split_ifs with hrun
      · rw [List.isEmpty_iff] at hrun
        simp [pieces, hrun, Text.remaining_cons, resolved, unescape, Reference.resolveFrom,
          contentText, Except.toOption]
      · simp [pieces, Text.remaining_cons, contentText]
    | characterData raw => simp [pieces, nodes, Text.remaining_cons, contentText]
    | _ => rfl

theorem isBlank_of_dropped {fs : List Fragment} :
    ∀ x ∈ fs.flatMap pieces, x.kept = false → ∀ c ∈ x.chars, Text.isBlank c = true := by
  intro x hx hdropped c hc
  obtain ⟨f, -, hx⟩ := List.mem_flatMap.1 hx
  cases f with
  | text raw =>
    simp only [pieces, List.mem_cons, List.not_mem_nil, or_false] at hx
    rcases hx with rfl | rfl | rfl
    · exact isBlank_of_isSpace (Text.of_mem_gapBefore c hc)
    · contradiction
    · exact isBlank_of_isSpace (Text.of_mem_gapAfter c hc)
  | characterData raw =>
    obtain rfl := List.mem_singleton.1 hx
    contradiction
  | _ => contradiction

/-- The tree has the text of an element if no space is dropped between characters of it. -/
theorem wording_eq_ownText_iff {f : Fragment} (h : ∀ raw, .text raw ∈ f.inside → Resolves raw) :
    wording f = ownText f ↔ KeepsSpace f := by
  rw [wording, ownText, String.ofList_inj, ← whole_pieces h, ← remaining_pieces]
  exact Text.trimBy_remaining_iff isBlank_of_dropped

theorem wording_eq_empty_iff {f : Fragment} (h : ∀ raw, .text raw ∈ f.inside → Resolves raw) :
    wording f = "" ↔ ownText f = "" := by
  have hempty : ∀ cs : List Char, String.ofList cs = "" ↔ cs = [] := fun cs => by
    rw [← String.ofList_nil, String.ofList_inj]
  rw [wording, ownText, hempty, hempty, Text.trimBy_eq_nil_iff, Text.trimBy_eq_nil_iff,
    ← whole_pieces h, ← remaining_pieces]
  exact (Text.forall_whole_iff isBlank_of_dropped).symm

/-! ## Text in the tree of an element -/

/-- Whether a value is a text, or an object with that text as a member, which an empty text is
not. -/
def HasText (v : Value) (s : String) : Prop :=
  v = .string s ∨ ∃ members, v = .object members ∧
    Entries.get? textKey members = if s = "" then none else some (.string s)

theorem hasText_string {t s : String} : HasText (.string t) s ↔ t = s := by
  simp [HasText]

theorem hasText_object {members : Entries String Value} {s : String} :
    HasText (.object members) s ↔
      Entries.get? textKey members = if s = "" then none else some (.string s) := by
  simp [HasText]

/-- An entry of a localization document is shown with the text of its element. -/
theorem eq_of_entry? {v : Value} {s handle shown : String} (hv : HasText v s)
    (h : LocalizationTable.entry? v = some (handle, shown)) : shown = s := by
  obtain ⟨own, hown, h⟩ := Option.bind_eq_some_iff.1 h
  obtain ⟨handle', -, h⟩ := Option.bind_eq_some_iff.1 h
  obtain ⟨-, rfl⟩ := Prod.mk.inj (Option.some.inj h)
  rcases hv with rfl | ⟨members, rfl, hget⟩
  · contradiction
  · rw [Value.get?, hget]
    split_ifs with hs
    · rw [hs]
      rfl
    · rfl

/-- Whether something else may stand under the key of the text of an element: an element, an
attribute or the group of attributes with this name. -/
def TextKeyTaken (o : Options) (f : Fragment) : Prop :=
  named textKey f.inside ≠ [] ∨ Entries.get? textKey (leadingMembers o f.attributes) ≠ none

theorem get?_innerMembers_eq_none_iff (path : String) {f : Fragment} :
    Entries.get? textKey (innerMembers o path f) = none ↔ ¬ TextKeyTaken o f := by
  rw [get?_innerMembers, Option.or_eq_none_iff, gathered?_eq_none_iff, List.map_eq_nil_iff,
    TextKeyTaken, not_or, not_not, not_not]

theorem not_textKeyTaken_of_scalar {f : Fragment} (hattributes : f.attributes = [])
    (hchildren : f.children = []) : ¬ TextKeyTaken o f := by
  rw [← get?_innerMembers_eq_none_iff "", innerMembers, hattributes,
    childMembers_eq_nil_iff.2 hchildren]
  rfl

/-- The tree of an element has one text, unless its text is empty and something else stands
under its key. -/
theorem hasText_treeOf_iff (hconvert : o.convert = false) {f : Fragment} {s : String}
    (hempty : wording f = "" → s = "") :
    HasText (treeOf o path f) s ↔ s = wording f ∧ (wording f = "" → ¬ TextKeyTaken o f) := by
  have hvalue : Scalar.ofText o.convert (wording f) = .string (wording f) := by
    rw [hconvert]
    rfl
  -- an object has no member for an empty text, so what else stands under the key shows
  by_cases hne : f.attributes ≠ [] ∨ f.children ≠ []
  · rw [treeOf_object hne, hasText_object, get?_treeOf, hvalue]
    by_cases hwording : wording f = ""
    · rw [if_neg fun h => h.2 hwording, if_pos (hempty hwording), get?_innerMembers_eq_none_iff,
        hempty hwording, hwording]
      simp
    · rw [if_pos ⟨rfl, hwording⟩, and_iff_left fun h => absurd h hwording]
      split_ifs with hs
      · rw [hs]
        exact iff_of_false nofun (Ne.symm hwording)
      · rw [Option.some.injEq, Value.string.injEq, eq_comm]
  · rw [not_or, not_not, not_not] at hne
    rw [treeOf_scalar hne.1 hne.2, hvalue, hasText_string, eq_comm]
    exact (and_iff_left fun _ => not_textKeyTaken_of_scalar hne.1 hne.2).symm

theorem hasText_ownText_iff (hconvert : o.convert = false) {f : Fragment}
    (h : ∀ raw, .text raw ∈ f.inside → Resolves raw) :
    HasText (treeOf o path f) (ownText f) ↔
      KeepsSpace f ∧ (ownText f = "" → ¬ TextKeyTaken o f) := by
  rw [hasText_treeOf_iff hconvert (wording_eq_empty_iff h).1, ← wording_eq_ownText_iff h,
    wording_eq_empty_iff h, eq_comm]

/-- The trees of the elements inside an element are members of its tree. -/
theorem child?_treeOf {name : String} (htext : name ≠ textKey) {f : Fragment}
    (hne : named name f.inside ≠ []) :
    (treeOf o path f).child? (.key name) =
      some (gathered (o.alwaysArray name (path ++ "." ++ name))
        ((named name f.inside).map (treeOf o (path ++ "." ++ name)))) := by
  have hchildren : f.children ≠ [] := by
    intro hnil
    rw [← named_filter_isElement] at hne
    exact hne (congrArg (named name) hnil)
  have hmap : (named name f.inside).map (treeOf o (path ++ "." ++ name)) ≠ [] := by
    rwa [ne_eq, List.map_eq_nil_iff]
  rw [treeOf_object (.inr hchildren), Value.child?, get?_treeOf, if_neg fun h => htext h.1,
    get?_innerMembers, gathered?, if_neg hmap, Option.some_or]

/-! ## The texts of all elements -/

/-- Whether the references in the text of an element resolve, the trees of the elements inside it
are found in its tree, and its tree has `wording` as its text, also as an entry of a localization
document. This is the text of the element if no space is dropped in it. An empty text is not told
apart from what else stands under its key. -/
structure Worded (o : Options) (path : String) (f : Fragment) : Prop where
  resolves : ∀ raw, .text raw ∈ f.inside → Resolves raw
  children : ∀ name, name ≠ textKey → named name f.inside ≠ [] →
    (treeOf o path f).child? (.key name) =
      some (gathered (o.alwaysArray name (path ++ "." ++ name))
        ((named name f.inside).map (treeOf o (path ++ "." ++ name))))
  hasText_wording : HasText (treeOf o path f) (wording f) ↔
    (wording f = "" → ¬ TextKeyTaken o f)
  hasText_ownText : HasText (treeOf o path f) (ownText f) ↔
    KeepsSpace f ∧ (ownText f = "" → ¬ TextKeyTaken o f)
  shown : ∀ handle text, LocalizationTable.entry? (treeOf o path f) = some (handle, text) →
    (wording f = "" → ¬ TextKeyTaken o f) → text = wording f

theorem worded_of_read (hconvert : o.convert = false) {f : Fragment}
    (hread : ∀ e ∈ f.events, e.Read) : Worded o path f := by
  have hresolves : ∀ raw, .text raw ∈ f.inside → Resolves raw := by
    intro raw hraw
    have hmem : .text raw ∈ f.events := eventsAll_inside_subset f
      (events_subset_eventsAll hraw List.mem_cons_self)
    exact hread _ hmem
  have hwording : HasText (treeOf o path f) (wording f) ↔
      (wording f = "" → ¬ TextKeyTaken o f) := by
    rw [hasText_treeOf_iff hconvert id]
    exact and_iff_right rfl
  exact ⟨hresolves, fun _ hname hne => child?_treeOf hname hne, hwording,
    hasText_ownText_iff hconvert hresolves,
    fun _ _ hentry htaken => eq_of_entry? (hwording.2 htaken) hentry⟩

/-- In the tree of a text without conversion of values, every element has its own text exactly if
no space is dropped between characters of it and, if it is empty, nothing else stands under its
key. -/
theorem parse_hasText_iff {text : String} {t : Value} (hconvert : o.convert = false)
    (h : parse o text = .ok t) :
    ∃ fs members, FragmentsOf text fs ∧ t = .object members ∧
      (∀ name, name ≠ declarationKey → Entries.get? name members =
        gathered? (o.alwaysArray name name) ((named name fs).map (treeOf o name))) ∧
      ∀ x ∈ elementsAll none fs, Worded o x.1 x.2 := by
  obtain ⟨fs, members, hfs, ht, -, hroots, hread⟩ := parse_fragments h
  exact ⟨fs, members, hfs, ht, hroots, fun x hx => worded_of_read hconvert (hread x hx)⟩

/-- Space at the ends of a text, and between a text and character data. -/
theorem parse_hasText_data :
    ∃ t fs, parse LocalizationTable.options "<a> x <![CDATA[ y]]><b> z </b></a>" = .ok t ∧
      FragmentsOf "<a> x <![CDATA[ y]]><b> z </b></a>" fs ∧
      ∀ x ∈ elementsAll none fs, Worded LocalizationTable.options x.1 x.2 := by
  have hread : (parse LocalizationTable.options
      "<a> x <![CDATA[ y]]><b> z </b></a>").toOption.isSome = true := by decide +kernel
  obtain ⟨t, hparse⟩ := Option.isSome_iff_exists.1 hread
  have hparse := ok_of_toOption hparse
  obtain ⟨fs, -, hfs, -, -, hworded⟩ := parse_hasText_iff rfl hparse
  exact ⟨t, fs, hparse, hfs, hworded⟩

/-- Space on both sides of a comment is dropped. -/
theorem parse_hasText_comment :
    ∃ t f, parse LocalizationTable.options "<a>x <!-- c --> y</a>" = .ok t ∧
      FragmentsOf "<a>x <!-- c --> y</a>" [f] ∧ ownText f = "x  y" ∧
      t.child? (.key "a") = some (.string "xy") ∧ ¬ HasText (.string "xy") (ownText f) := by
  have hread : (parse LocalizationTable.options
      "<a>x <!-- c --> y</a>").toOption.isSome = true := by decide +kernel
  obtain ⟨t, hparse⟩ := Option.isSome_iff_exists.1 hread
  have hparse := ok_of_toOption hparse
  have hfs : FragmentsOf "<a>x <!-- c --> y</a>"
      [.element ⟨['a'], []⟩ [.text ['x', ' '], .other, .text [' ', 'y']]] := by decide +kernel
  have hown : ownText (.element ⟨['a'], []⟩ [.text ['x', ' '], .other, .text [' ', 'y']]) =
      "x  y" := by decide +kernel
  have htree : treeOf LocalizationTable.options "a"
      (.element ⟨['a'], []⟩ [.text ['x', ' '], .other, .text [' ', 'y']]) = .string "xy" := by
    have hwording : wording (.element ⟨['a'], []⟩ [.text ['x', ' '], .other, .text [' ', 'y']]) =
        "xy" := by decide +kernel
    rw [treeOf_scalar (by decide +kernel) rfl, hwording]
    rfl
  obtain ⟨fs, members, hfs', rfl, -, hroots, -⟩ := parse_fragments hparse
  obtain rfl := hfs.unique hfs'
  refine ⟨_, _, hparse, hfs, hown, ?_, ?_⟩
  · rw [Value.child?, hroots "a" (by decide), ← htree]
    rfl
  · rw [hown, hasText_string]
    decide

end LsxKit.Tree
