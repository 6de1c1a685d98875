import LsxKit.Proofs.Tree.Address
import LsxKit.Proofs.Xml.Content

/-!
# Trees of fragments

The tree that is put together while a text is read, told from the fragments of the text. Under each
name stand the trees of all elements of that name directly inside an element, in order.

* `treeOf`: the tree of an element.
* `treeOf_scalar`, `treeOf_object`, `get?_innerMembers`: what it consists of.
* `parse_fragments`: the tree of a text consists of the trees of its root elements.
* `Determined`, `parse_determined`: with a group for attributes, an element's tree is determined by
  its attributes, the elements directly inside it and its text.
-/

namespace LsxKit

namespace Entries

theorem get?_reverse {κ ν : Type} [DecidableEq κ] {es : Entries κ ν} (hn : (keys es).Nodup)
    (k : κ) : get? k es.reverse = get? k es := by
  have hn' : (keys es.reverse).Nodup := by rwa [keys, List.map_reverse, List.nodup_reverse]
  cases hget : get? k es with
  | none =>
    rw [get?_eq_none_iff] at hget ⊢
    rwa [keys, List.map_reverse, List.mem_reverse]
  | some v => exact get?_of_mem hn' (List.mem_reverse.2 (mem_of_get? hget))

end Entries

namespace Tree

open Json Xml Fragment

variable {o : Options} {path : String}

/-! ## Elements of one name -/

theorem treesNamed_append (path name : String) (ns ns' : List Node) :
    treesNamed o path name (ns ++ ns') =
      treesNamed o path name ns ++ treesNamed o path name ns' := by
  induction ns with
  | nil => rfl
  | cons n ns ih =>
    cases n with
    | text chars => exact ih
    | element n attributes content =>
      rw [List.cons_append, treesNamed, treesNamed]
      split_ifs
      · rw [ih, List.cons_append]
      · exact ih

/-- The trees of the elements directly inside an element, under their names. -/
def childMembers (o : Options) (path : String) (f : Fragment) : Entries String Value :=
  addContent o path [] (nodesAll f.inside)

/-- The tree of an element at a dotted path. -/
def treeOf (o : Options) (path : String) (f : Fragment) : Value :=
  elementValue o f.attributes (childMembers o path f) (contentText (nodesAll f.inside))

theorem treesNamed_nodes (path name : String) (f : Fragment) :
    treesNamed o path name f.nodes = (named name [f]).map (treeOf o path) := by
  have hnamed : named name [f] = if f.name? = some name then [f] else [] := by
    rw [named, List.filter_singleton]
    simp
  rw [hnamed]
  cases f with
  | element tag inside =>
    simp only [nodes, treesNamed, name?, tag?, Option.map_some, Option.some.injEq]
    split_ifs <;> rfl
  | empty tag =>
    simp only [nodes, treesNamed, name?, tag?, Option.map_some, Option.some.injEq]
    split_ifs <;> rfl
  | text raw =>
    rw [if_neg (show (Fragment.text raw).name? ≠ some name by simp [name?, tag?]), nodes]
    split_ifs <;> rfl
  | _ => rfl

/-- The elements of a name are read in their order, and no others. -/
theorem treesNamed_nodesAll (path name : String) (fs : List Fragment) :
    treesNamed o path name (nodesAll fs) = (named name fs).map (treeOf o path) := by
  induction fs with
  | nil => rfl
  | cons f fs ih =>
    rw [nodesAll, treesNamed_append, treesNamed_nodes, ih, ← List.map_append, named, named, named,
      ← List.filter_append, List.singleton_append]

theorem named_eq_nil_iff {name : String} {fs : List Fragment} :
    named name fs = [] ↔ ∀ f ∈ fs, f.name? ≠ some name := by
  simp [named]

theorem isElement_iff {f : Fragment} : f.isElement = true ↔ ∃ name, f.name? = some name := by
  simp [isElement, name?, Option.isSome_iff_exists]

theorem named_filter_isElement (name : String) (fs : List Fragment) :
    named name (fs.filter isElement) = named name fs := by
  rw [named, List.filter_filter]
  refine List.filter_congr fun f _ => ?_
  by_cases hname : f.name? = some name
  · rw [isElement_iff.2 ⟨name, hname⟩, Bool.and_true]
  · simp [hname]

/-! ## The parts of a tree -/

/-- The text of an element: each piece of what stands directly inside it without the space at its
ends, and all of it without blanks at its ends. -/
def wording (f : Fragment) : String :=
  String.ofList (Text.trimBy Text.isBlank (contentText (nodesAll f.inside)))

/-- The members of the tree of an element besides its text. -/
def innerMembers (o : Options) (path : String) (f : Fragment) : Entries String Value :=
  Entries.extend (leadingMembers o f.attributes) (childMembers o path f)

theorem nodup_keys_childMembers (path : String) (f : Fragment) :
    (Entries.keys (childMembers o path f)).Nodup :=
  nodup_keys_addContent path _

theorem get?_childMembers (path name : String) (f : Fragment) :
    Entries.get? name (childMembers o path f) = gathered? (o.alwaysArray name (path ++ "." ++ name))
      ((named name f.inside).map (treeOf o (path ++ "." ++ name))) := by
  rw [childMembers, get?_addContent, treesNamed_nodesAll]

theorem gathered?_eq_none_iff {forced : Bool} {vs : List Value} :
    gathered? forced vs = none ↔ vs = [] := by
  unfold gathered?
  split_ifs with h <;> simp [h]

theorem childMembers_eq_nil_iff {f : Fragment} : childMembers o path f = [] ↔ f.children = [] := by
  have hnone : childMembers o path f = [] ↔
      ∀ name, Entries.get? name (childMembers o path f) = none := by
    constructor
    · intro h name
      rw [h]
      rfl
    · intro h
      refine List.eq_nil_iff_forall_not_mem.2 fun e he => ?_
      exact (Entries.get?_eq_none_iff _ _).1 (h e.1) (List.mem_map_of_mem he)
  have hchildren : f.children = [] ↔ ∀ name, named name f.inside = [] := by
    constructor
    · intro h name
      rw [← named_filter_isElement]
      exact congrArg (named name) h
    · intro h
      refine List.filter_eq_nil_iff.2 fun c hc helement => ?_
      obtain ⟨name, hname⟩ := isElement_iff.1 helement
      exact named_eq_nil_iff.1 (h name) c hc hname
  rw [hnone, hchildren]
  refine forall_congr' fun name => ?_
  rw [get?_childMembers, gathered?_eq_none_iff, List.map_eq_nil_iff]

/-- The tree of an element with neither attributes nor elements inside it is its text. -/
theorem treeOf_scalar {f : Fragment} (hattributes : f.attributes = [])
    (hchildren : f.children = []) :
    treeOf o path f = Scalar.ofText o.convert (wording f) := by
  rw [treeOf, hattributes, childMembers_eq_nil_iff.2 hchildren]
  rfl

/-- The tree of any other element has the text among its members, unless it is empty. -/
theorem treeOf_object {f : Fragment} (h : f.attributes ≠ [] ∨ f.children ≠ []) :
    treeOf o path f = .object (if wording f = "" then innerMembers o path f
      else (innerMembers o path f).insert textKey (Scalar.ofText o.convert (wording f))) := by
  have hempty : (f.attributes.isEmpty && (childMembers o path f).isEmpty) = false := by
    rw [Bool.and_eq_false_iff, List.isEmpty_eq_false_iff, List.isEmpty_eq_false_iff, ne_eq, ne_eq,
      childMembers_eq_nil_iff]
    exact h
  rw [treeOf, elementValue]
  dsimp only
  rw [hempty, elementMembers_eq (nodup_keys_childMembers path f)]
  rfl

theorem get?_innerMembers (path name : String) (f : Fragment) :
    Entries.get? name (innerMembers o path f) =
      (gathered? (o.alwaysArray name (path ++ "." ++ name))
        ((named name f.inside).map (treeOf o (path ++ "." ++ name)))).or
      (Entries.get? name (leadingMembers o f.attributes)) := by
  rw [innerMembers, Entries.get?_extend, Entries.get?_reverse (nodup_keys_childMembers path f),
    get?_childMembers]

/-! ## The tree of a text -/

theorem nodup_keys_items (d : Document) : (Entries.keys (d.foldl (addItem o) [])).Nodup := by
  have hadd : ∀ members : Entries String Value, (Entries.keys members).Nodup →
      (Entries.keys (d.foldl (addItem o) members)).Nodup := by
    induction d with
    | nil => exact fun _ h => h
    | cons i d ih =>
      intro members h
      refine ih _ ?_
      cases i with
      | declaration declared => exact Entries.nodup_keys_insert _ _ h
      | element name attributes content =>
        dsimp only [addItem]
        rw [addChild, Entries.alter_eq_insert]
        exact Entries.nodup_keys_insert _ _ h
  exact hadd [] List.nodup_nil

/-- The tree of a text consists of the trees of its root elements, each under its name, and
everything in them is read. -/
theorem parse_fragments {text : String} {t : Value} (h : parse o text = .ok t) :
    ∃ fs members, FragmentsOf text fs ∧ t = .object members ∧ (Entries.keys members).Nodup ∧
      (∀ name, name ≠ declarationKey → Entries.get? name members =
        gathered? (o.alwaysArray name name) ((named name fs).map (treeOf o name))) ∧
      ∀ x ∈ elementsAll none fs, ∀ e ∈ x.2.events, e.Read := by
  obtain ⟨d, hd, rfl⟩ := map_eq_ok_iff.1 h
  obtain ⟨fs, hfs, hnodes, hread⟩ := exists_fragments_of_read hd
  refine ⟨fs, d.foldl (addItem o) [], hfs, rfl, nodup_keys_items d, fun name hname => ?_, hread⟩
  rw [get?_items hname, hnodes, treesNamed_nodesAll, named_filter_isElement]

/-! ## Elements with their attributes in a group -/

/-- Whether the tree of an element at a dotted path is what the attributes of the element, the
elements directly inside it and its text say, with attributes under the key `group`. -/
structure Determined (o : Options) (group path : String) (f : Fragment) : Prop where
  attributes : ∃ tag, f.tag? = some tag ∧ Document.readAttributes tag = .ok f.attributes
  scalar : ((treeOf o path f).isObject = false ∧ (treeOf o path f).isArray = false) ↔
    f.attributes = [] ∧ f.children = []
  text : f.attributes = [] → f.children = [] →
    treeOf o path f = Scalar.ofText o.convert (wording f)
  members : f.attributes ≠ [] ∨ f.children ≠ [] → ∃ members,
    treeOf o path f = .object members ∧ (Entries.keys members).Nodup ∧
    Entries.get? group members = (if f.attributes = [] then none
      else some (.object (f.attributes.map fun a => (a.1, Scalar.ofText o.convert a.2)))) ∧
    Entries.get? textKey members = (if wording f = "" then none
      else some (Scalar.ofText o.convert (wording f))) ∧
    ∀ name, name ≠ group → name ≠ textKey → Entries.get? name members =
      gathered? (o.alwaysArray name (path ++ "." ++ name))
        ((named name f.inside).map (treeOf o (path ++ "." ++ name)))

/-- Attributes have distinct names, so none of them is lost in a group. -/
theorem attributeValues_eq {tag : Tag} {attributes : List (String × String)}
    (h : Document.readAttributes tag = .ok attributes) :
    attributeValues o attributes = attributes.map fun a => (a.1, Scalar.ofText o.convert a.2) := by
  have hgood : AttributesGood (fun _ => True) attributes :=
    readAttributes_good (fun _ _ => trivial) h
  refine Entries.extend_of_nodup [] ?_
  rw [List.nil_append, Entries.keys, List.map_map]
  exact hgood.2

theorem get?_leadingMembers {group : String} (hgroup : o.group = some group) (name : String)
    (attributes : List (String × String)) :
    Entries.get? name (leadingMembers o attributes) =
      if group = name ∧ attributes ≠ [] then some (.object (attributeValues o attributes))
      else none := by
  rw [leadingMembers, attributeMembers, hgroup]
  cases attributes with
  | nil => simp [Entries.get?]
  | cons a as => simp [Entries.get?, attributeValues]

/-- The text does not stand in the way of other members. -/
theorem get?_treeOf (name : String) (f : Fragment) :
    Entries.get? name (if wording f = "" then innerMembers o path f
        else (innerMembers o path f).insert textKey (Scalar.ofText o.convert (wording f))) =
      if name = textKey ∧ wording f ≠ "" then some (Scalar.ofText o.convert (wording f))
      else Entries.get? name (innerMembers o path f) := by
  split_ifs with htext hname hname
  · exact absurd htext hname.2
  · rfl
  · rw [hname.1, Entries.get?_insert, if_pos rfl]
  · rw [Entries.get?_insert, if_neg fun h => hname ⟨h.symm, htext⟩]

theorem nodup_keys_leadingMembers {group : String} (hgroup : o.group = some group)
    (attributes : List (String × String)) :
    (Entries.keys (leadingMembers o attributes)).Nodup := by
  rw [leadingMembers, attributeMembers, hgroup]
  split_ifs <;> simp

theorem determined_of_read {group : String} (hgroup : o.group = some group)
    (htext : group ≠ textKey) (path : String) {f : Fragment} {tag : Tag} (htag : f.tag? = some tag)
    (hread : ∀ e ∈ f.events, e.Read)
    (hnames : ∀ c ∈ f.inside, c.name? ≠ some group ∧ c.name? ≠ some textKey) :
    Determined o group path f := by
  have hattributes := readAttributes_of_read htag hread
  have hgroupNone : named group f.inside = [] := named_eq_nil_iff.2 fun c hc => (hnames c hc).1
  have htextNone : named textKey f.inside = [] := named_eq_nil_iff.2 fun c hc => (hnames c hc).2
  have hinner : ∀ name, Entries.get? name (innerMembers o path f) = _ := fun name => by
    rw [get?_innerMembers, get?_leadingMembers hgroup, attributeValues_eq hattributes]
  have hnodup : (Entries.keys (innerMembers o path f)).Nodup :=
    Entries.nodup_keys_extend (nodup_keys_leadingMembers hgroup _) _
  refine ⟨⟨tag, htag, hattributes⟩, ⟨fun hscalar => ?_, ?_⟩, treeOf_scalar,
    fun hne => ⟨_, treeOf_object hne, ?_, ?_, ?_, fun name hname hname' => ?_⟩⟩
  · by_contra hnot
    rw [not_and_or] at hnot
    rw [treeOf_object hnot] at hscalar
    exact absurd hscalar.1 (by simp [Value.isObject])
  · rintro ⟨hnone, hchildren⟩
    rw [treeOf_scalar hnone hchildren]
    exact ⟨isObject_ofText _ _, isArray_ofText _ _⟩
  · split_ifs
    · exact hnodup
    · exact Entries.nodup_keys_insert _ _ hnodup
  · rw [get?_treeOf, if_neg fun h => htext h.1, hinner, hgroupNone]
    by_cases hnone : f.attributes = [] <;> simp [hnone, gathered?]
  · rw [get?_treeOf, hinner, htextNone]
    by_cases hempty : wording f = "" <;> simp [hempty, htext, gathered?]
  · rw [get?_treeOf, if_neg fun h => hname' h.1, hinner, if_neg fun h => hname h.1.symm,
      Option.or_none]

/-- The names of elements are among the names of a text. -/
theorem mem_names_of_tag? {text : String} {fs : List Fragment} (hfs : FragmentsOf text fs)
    {f : Fragment} {tag : Tag} (hf : f.events ⊆ eventsAll fs) (htag : f.tag? = some tag) :
    String.ofList tag.name ∈ names text := by
  rcases mem_events_of_tag? htag with hmem | hmem
  all_goals
    have hevent := hf hmem
    rw [hfs] at hevent
    obtain ⟨e, he, htag⟩ := List.mem_map.1 hevent
    refine List.mem_flatMap.2 ⟨e, he, ?_⟩
    rw [htag]
    exact List.mem_cons_self

/-- A text is read as an object with the trees of its root elements, and the tree of every element
in it is determined by what stands in the element. This is so if no name in the text is that of the
group or the key of texts. -/
theorem parse_determined {group text : String} {t : Value} (hgroup : o.group = some group)
    (htext : group ≠ textKey) (hnames : ∀ n ∈ names text, n ≠ group ∧ n ≠ textKey)
    (h : parse o text = .ok t) :
    ∃ fs members, FragmentsOf text fs ∧ t = .object members ∧ (Entries.keys members).Nodup ∧
      (∀ name, name ≠ declarationKey → Entries.get? name members =
        gathered? (o.alwaysArray name name) ((named name fs).map (treeOf o name))) ∧
      ∀ x ∈ elementsAll none fs, Determined o group x.1 x.2 := by
  obtain ⟨fs, members, hfs, ht, hnodup, hroots, hread⟩ := parse_fragments h
  refine ⟨fs, members, hfs, ht, hnodup, hroots, fun x hx => ?_⟩
  obtain ⟨⟨tag, htag⟩, hevents⟩ := of_mem_elementsAll none fs x hx
  refine determined_of_read hgroup htext x.1 htag (hread x hx) fun c hc => ?_
  have hsubset : c.events ⊆ eventsAll fs :=
    List.Subset.trans (events_subset_eventsAll hc)
      (List.Subset.trans (eventsAll_inside_subset x.2) hevents)
  have hname : ∀ n, c.name? = some n → n ≠ group ∧ n ≠ textKey := by
    intro n hn
    obtain ⟨inner, hinner, rfl⟩ := Option.map_eq_some_iff.1 hn
    exact hnames _ (mem_names_of_tag? hfs hsubset hinner)
  exact ⟨fun hn => (hname group hn).1 rfl, fun hn => (hname textKey hn).2 rfl⟩

/-- Two elements of one name with another one and text between them. -/
theorem parse_determined_repeated :
    ∃ t fs, parse .standard "<a x='1'><b/>t<c>u</c><b y='2'/></a>" = .ok t ∧
      FragmentsOf "<a x='1'><b/>t<c>u</c><b y='2'/></a>" fs ∧
      ∀ x ∈ elementsAll none fs, Determined .standard attributesGroup x.1 x.2 := by
  have hread : (parse .standard "<a x='1'><b/>t<c>u</c><b y='2'/></a>").toOption.isSome = true := by
    decide +kernel
  obtain ⟨t, hparse⟩ := Option.isSome_iff_exists.1 hread
  have hparse := ok_of_toOption hparse
  obtain ⟨fs, -, hfs, -, -, -, hdetermined⟩ :=
    parse_determined rfl (by decide) (by decide +kernel) hparse
  exact ⟨t, fs, hparse, hfs, hdetermined⟩

end Tree

end LsxKit
