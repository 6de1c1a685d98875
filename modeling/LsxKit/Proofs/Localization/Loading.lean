import LsxKit.Proofs.Descriptor.Clean
import LsxKit.Proofs.Diagnosis.Syntax
import LsxKit.Proofs.Tree.Wording
import LsxKit.Proofs.Xml.Rooted

/-!
# Localization documents without problems

The engine and the table read localization documents with different options. In a document without
problems every entry of the list has a handle in both trees, and so is loaded.

* `treeOf_options`: the tree that is loaded is the one that is checked, without conversion.
* `OnlyHas`, `closedList_of_satisfies`: a list whose schema is closed has nothing but its entries.
* `list_of_clean`: what a document without problems consists of.
* `Loaded`, `extend_of_clean`: what the table has after it.
* `LoadsAll`, `not_loadsAll_of_clean`: entries inside entries are not loaded, and there are names
  that take the place of handles and texts.
-/

namespace LsxKit

open Json Xml Fragment LsxKit.Tree

namespace Tree

variable {o : Options} {path : String}

/-! ## Trees with other options -/

mutual

/-- Declarations are no part of elements. -/
theorem addNode_ignoreDeclaration (b : Bool) (path : String) (members : Entries String Value)
    (n : Node) :
    addNode { o with ignoreDeclaration := b } path members n = addNode o path members n := by
  match n with
  | .text _ => rfl
  | .element name attributes content =>
    rw [addNode, addNode, addContent_ignoreDeclaration b _ [] content]
    rfl
  termination_by structural n

theorem addContent_ignoreDeclaration (b : Bool) (path : String) (members : Entries String Value)
    (ns : List Node) :
    addContent { o with ignoreDeclaration := b } path members ns =
      addContent o path members ns := by
  match ns with
  | [] => rfl
  | n :: ns =>
    rw [addContent, addContent, addNode_ignoreDeclaration b path members n,
      addContent_ignoreDeclaration b path _ ns]
  termination_by structural ns

end

theorem treeOf_ignoreDeclaration (b : Bool) (path : String) (f : Fragment) :
    treeOf { o with ignoreDeclaration := b } path f = treeOf o path f := by
  rw [treeOf, treeOf, childMembers, childMembers, addContent_ignoreDeclaration]
  rfl

theorem plain_treeOf (path : String) (f : Fragment) :
    plain (treeOf o path f) = treeOf o.plain path f := by
  rw [treeOf, plain_elementValue, childMembers, plainMembers_addContent]
  rfl

/-! ## Root elements -/

/-- A document has the tree of its root element, under its name, and no other. -/
theorem get?_of_root {text name : String} {tree : Value} {fs : List Fragment} {root : Fragment}
    (hname : name ≠ declarationKey) (hsingle : o.alwaysArray name name = false)
    (hparse : parse o text = .ok tree) (hfs : FragmentsOf text fs)
    (hroot : fs.filter isElement = [root]) :
    tree.get? name = if root.name? = some name then some (treeOf o name root) else none := by
  obtain ⟨fs', members, hfs', rfl, -, hroots, -⟩ := parse_fragments hparse
  obtain rfl := hfs.unique hfs'
  have hnamed : named name fs = if root.name? = some name then [root] else [] := by
    rw [← named_filter_isElement, hroot, named, List.filter_singleton]
    simp
  rw [Value.get?, hroots name hname, hnamed, hsingle]
  split_ifs <;> rfl

/-- Everything in the root element is read. -/
theorem read_of_root {text : String} {tree : Value} {fs : List Fragment} {root : Fragment}
    (hparse : parse o text = .ok tree) (hfs : FragmentsOf text fs)
    (hroot : fs.filter isElement = [root]) : ∀ e ∈ root.events, e.Read := by
  obtain ⟨fs', members, hfs', -, -, -, hread⟩ := parse_fragments hparse
  obtain rfl := hfs.unique hfs'
  obtain ⟨hmem, helement⟩ := List.mem_filter.1 (hroot.symm ▸ List.mem_singleton_self root)
  cases root with
  | element tag inside => exact hread _ (mem_elementsAll.2 ⟨_, hmem, List.mem_cons_self⟩)
  | empty tag => exact hread _ (mem_elementsAll.2 ⟨_, hmem, List.mem_cons_self⟩)
  | _ => contradiction

/-! ## Members of trees -/

variable {f : Fragment}

theorem get?_of_not_object {v : Value} (h : v.isObject = false) (key : String) :
    v.get? key = none := by
  cases v with
  | object members => contradiction
  | _ => rfl

/-- A tree has the members besides the text, unless the text stands under their key. -/
theorem get?_of_members (hne : f.attributes ≠ [] ∨ f.children ≠ []) (name : String) :
    (treeOf o path f).get? name =
      if name = textKey ∧ wording f ≠ "" then some (Scalar.ofText o.convert (wording f))
      else Entries.get? name (innerMembers o path f) := by
  rw [treeOf_object hne, Value.get?, get?_treeOf]

/-- A tree with a member is no text. -/
theorem members_of_get? {name : String} {v : Value} (h : (treeOf o path f).get? name = some v) :
    f.attributes ≠ [] ∨ f.children ≠ [] := by
  by_contra hnot
  rw [not_or, not_not, not_not] at hnot
  rw [treeOf_scalar hnot.1 hnot.2, get?_of_not_object (isObject_ofText _ _)] at h
  contradiction

/-- Attributes stand in their group, unless an element inside has its name. -/
theorem get?_group {group : String} (hgroup : o.group = some group) (htext : group ≠ textKey)
    (hnone : named group f.inside = []) :
    (treeOf o path f).get? group =
      if f.attributes = [] then none else some (.object (attributeValues o f.attributes)) := by
  by_cases hne : f.attributes ≠ [] ∨ f.children ≠ []
  · rw [get?_of_members hne, if_neg fun he => htext he.1, get?_innerMembers, hnone,
      get?_leadingMembers hgroup]
    by_cases hattributes : f.attributes = [] <;> simp [hattributes, gathered?]
  · rw [not_or, not_not, not_not] at hne
    rw [treeOf_scalar hne.1 hne.2, get?_of_not_object (isObject_ofText _ _), if_pos hne.1]

/-! ## Closed lists -/

/-- Whether an element has nothing but elements of one name besides its text. -/
structure OnlyHas (key : String) (f : Fragment) : Prop where
  attributes : f.attributes = []
  children : ∀ c ∈ f.children, c.name? = some key

/-- If members besides the text stand under one key only, nothing else is in the element. -/
theorem onlyHas_of_members (path : String) {group key : String} (hgroup : o.group = some group)
    (hkey : group ≠ key)
    (h : ∀ name, name ≠ key → Entries.get? name (innerMembers o path f) = none) :
    OnlyHas key f := by
  constructor
  · by_contra hattributes
    have hnone := h group hkey
    rw [get?_innerMembers, Option.or_eq_none_iff, get?_leadingMembers hgroup,
      if_pos ⟨rfl, hattributes⟩] at hnone
    exact absurd hnone.2 (Option.some_ne_none _)
  · intro c hc
    obtain ⟨hmem, helement⟩ := List.mem_filter.1 hc
    obtain ⟨name, hname⟩ := isElement_iff.1 helement
    by_contra hother
    have hnone := h name fun he => hother (he ▸ hname)
    rw [get?_innerMembers, Option.or_eq_none_iff, gathered?_eq_none_iff,
      List.map_eq_nil_iff] at hnone
    exact named_eq_nil_iff.1 hnone.1 c hmem hname

theorem OnlyHas.named_eq {key : String} (h : OnlyHas key f) : named key f.inside = f.children := by
  rw [← named_filter_isElement]
  exact List.filter_eq_self.2 fun c hc => by simpa using h.children c hc

/-- An element whose tree has nothing but an array of entries has no attributes and nothing but the
entries inside it. -/
theorem closedList_of_satisfies {limit : Bound → Number → Prop} {group key : String}
    {entry : Schema} (hgroup : o.group = some group) (hkey : group ≠ key) (htext : key ≠ textKey)
    (harray : o.alwaysArray key (path ++ "." ++ key) = true)
    (h : Schema.Satisfies limit ((((Schema.ofType .object).require [key]).closed).property key
      (Schema.arrayOf entry)) (treeOf o path f)) :
    OnlyHas key f ∧ f.children ≠ [] ∧
      (treeOf o path f).get? key =
        some (.array (f.children.map (treeOf o (path ++ "." ++ key)))) ∧
      ∀ c ∈ f.children, Schema.Satisfies limit entry (treeOf o (path ++ "." ++ key) c) := by
  obtain ⟨w, hw, hentries⟩ := Schema.member_of_satisfies key _ rfl List.mem_cons_self
    List.mem_cons_self h
  have hne := members_of_get? hw
  have honly : OnlyHas key f := by
    refine onlyHas_of_members path hgroup hkey fun name hname => ?_
    -- the schema is closed, so no other member shows
    by_contra hsome
    obtain ⟨v, hv⟩ : ∃ v, (treeOf o path f).get? name = some v := by
      rw [get?_of_members hne]
      split_ifs
      · exact ⟨_, rfl⟩
      · exact Option.ne_none_iff_exists'.1 hsome
    exact hname (List.mem_singleton.1 (Schema.key_of_satisfies rfl h hv))
  have hchildren : f.children ≠ [] := hne.resolve_left fun hnot => hnot honly.attributes
  have hget : (treeOf o path f).get? key =
      some (.array (f.children.map (treeOf o (path ++ "." ++ key)))) := by
    rw [get?_of_members hne, if_neg fun he => htext he.1, get?_innerMembers, honly.named_eq, harray,
      gathered?, if_neg (by simpa using hchildren), Option.some_or, gathered_forced]
  refine ⟨honly, hchildren, hget, fun c hc => ?_⟩
  obtain rfl := Option.some.inj (hw.symm.trans hget)
  exact Schema.element_of_satisfies rfl hentries (List.mem_map_of_mem hc)

end Tree

/-! ## Entries -/

namespace LocalizationTable

variable {limit : Bound → Number → Prop} {path handle : String} {v : Value} {f : Fragment}

/-- The options with which localization documents are checked. -/
def checked : Tree.Options := { options with convert := true, ignoreDeclaration := false }

/-- The handle of an entry. -/
def handle? (f : Fragment) : Option String := Entries.get? "contentuid" f.attributes

/-- The last of elements with a handle. -/
def lastWith? (handle : String) (fs : List Fragment) : Option Fragment :=
  fs.reverse.find? (handle? · = some handle)

theorem lastWith?_concat (fs : List Fragment) (h : handle? f = some handle) :
    lastWith? handle (fs ++ [f]) = some f := by
  rw [lastWith?, List.reverse_append, List.reverse_singleton, List.singleton_append]
  exact List.find?_cons_of_pos (by simpa using h)

/-- The tree of an element that is loaded is the one that is checked, without conversion. -/
theorem treeOf_options (path : String) (f : Fragment) :
    treeOf options path f = plain (treeOf checked path f) := by
  rw [plain_treeOf]
  exact (treeOf_ignoreDeclaration false path f).symm

theorem entry?_of_handle {own : Value} (hown : v.get? attributesGroup = some own)
    (hhandle : own.get? "contentuid" = some (.string handle)) :
    ∃ shown, entry? v = some (handle, shown) := by
  unfold entry?
  simp only [hown, hhandle, Option.bind_eq_bind, Option.bind_some, Value.asString?]
  exact ⟨_, rfl⟩

/-- The tree of an entry that satisfies the schema is loaded. -/
theorem entry?_of_satisfies (h : Schema.Satisfies limit Schema.localizationEntry v) :
    ∃ handle shown, entry? (plain v) = some (handle, shown) := by
  obtain ⟨own, hown, h⟩ := Schema.member_of_satisfies attributesGroup _ rfl List.mem_cons_self
    List.mem_cons_self h
  obtain ⟨w, hw, h⟩ := Schema.member_of_satisfies "contentuid" _ rfl List.mem_cons_self
    List.mem_cons_self h
  obtain ⟨t, ht, hholds⟩ := (Schema.meets_of_satisfies h).types _ rfl
  obtain rfl := List.mem_singleton.1 ht
  obtain ⟨handle, rfl⟩ := hholds
  have hown' : (plain v).get? attributesGroup = some (plain own) := by
    rw [get?_plain, hown, Option.map_some]
  have hhandle : (plain own).get? "contentuid" = some (.string handle) := by
    rw [get?_plain, hw]
    rfl
  exact ⟨handle, entry?_of_handle hown' hhandle⟩

/-- The handle that is loaded is that of the entry, unless an element inside it takes the place of
its attributes. -/
theorem handle?_of_entry? {shown : String} {tag : Tag} (htag : f.tag? = some tag)
    (hread : ∀ e ∈ f.events, e.Read) (hnone : named attributesGroup f.inside = [])
    (h : entry? (treeOf options path f) = some (handle, shown)) : handle? f = some handle := by
  obtain ⟨own, hown, h⟩ := Option.bind_eq_some_iff.1 h
  obtain ⟨handle', hhandle, h⟩ := Option.bind_eq_some_iff.1 h
  obtain ⟨rfl, -⟩ := Prod.mk.inj (Option.some.inj h)
  rw [get?_group rfl (by decide) hnone] at hown
  split_ifs at hown
  obtain rfl := Option.some.inj hown
  obtain ⟨w, hw, hw'⟩ := Option.bind_eq_some_iff.1 hhandle
  rw [Value.get?, attributeValues_eq (readAttributes_of_read htag hread),
    Entries.get?_map (Scalar.ofText options.convert)] at hw
  obtain ⟨s, hs, rfl⟩ := Option.map_eq_some_iff.1 hw
  rw [handle?, hs, ← hw']
  rfl

/-- The text that is loaded is that of the entry, if no space is dropped in it and nothing else
takes the place of an empty text. -/
theorem shown_of_entry? {shown : String} (hread : ∀ e ∈ f.events, e.Read)
    (h : entry? (treeOf options path f) = some (handle, shown)) (hkeeps : KeepsSpace f)
    (hempty : ownText f = "" → named textKey f.inside = []) : shown = ownText f := by
  have hworded : Worded options path f := worded_of_read rfl hread
  refine eq_of_entry? (hworded.hasText_ownText.2 ⟨hkeeps, fun hown htaken => ?_⟩) h
  rcases htaken with hnamed | hgroup
  · exact hnamed (hempty hown)
  · rw [get?_leadingMembers rfl, if_neg fun he => absurd he.1 (by decide)] at hgroup
    exact hgroup rfl

/-! ## Tables -/

/-- Whether entries have been loaded into a table: each has a handle, and under the handle stands
the text of the last entry with it, if no space is dropped in the text and nothing else takes the
place of an empty text. Other handles have the texts they had. -/
structure Loaded (t t' : LocalizationTable) (entries : List Fragment) : Prop where
  handle : ∀ f ∈ entries, ∃ handle, handle? f = some handle
  last : ∀ handle f, lastWith? handle entries = some f → ∃ shown, t'.get? handle = some shown ∧
    (KeepsSpace f → (ownText f = "" → named textKey f.inside = []) → shown = ownText f)
  other : ∀ handle, lastWith? handle entries = none → t'.get? handle = t.get? handle

/-- What the table has after the entries of elements. -/
theorem get?_add {fs : List Fragment} {g : Fragment → Option (String × String)}
    (hg : ∀ f ∈ fs, (g f).map Prod.fst = handle? f) (t : LocalizationTable) (handle : String) :
    (t.add (fs.filterMap g)).get? handle =
      ((lastWith? handle fs).bind fun f => (g f).map Prod.snd).or (t.get? handle) := by
  have hfind : lastWith? handle fs =
      fs.reverse.find? fun f => (g f).map Prod.fst = some handle := by
    rw [lastWith?, ← List.head?_filter, ← List.head?_filter]
    congr 1
    exact List.filter_congr fun f hf => by rw [hg f (List.mem_reverse.1 hf)]
  rw [get?, add, Entries.get?_extend, ← List.filterMap_reverse, Entries.get?_filterMap, hfind]
  rfl

/-- Entries of elements with their own handles and texts are loaded. -/
theorem loaded_add {fs : List Fragment} {g : Fragment → Option (String × String)}
    (t : LocalizationTable)
    (hg : ∀ f ∈ fs, ∃ handle shown, g f = some (handle, shown) ∧ handle? f = some handle ∧
      (KeepsSpace f → (ownText f = "" → named textKey f.inside = []) → shown = ownText f)) :
    Loaded t (t.add (fs.filterMap g)) fs := by
  have hhandles : ∀ f ∈ fs, (g f).map Prod.fst = handle? f := by
    intro f hf
    obtain ⟨handle, shown, hentry, hhandle, -⟩ := hg f hf
    rw [hentry, hhandle]
    rfl
  refine ⟨fun f hf => ?_, fun handle f hlast => ?_, fun handle hnone => ?_⟩
  · obtain ⟨handle, _, -, hhandle, -⟩ := hg f hf
    exact ⟨handle, hhandle⟩
  · obtain ⟨_, shown, hentry, -, hshown⟩ :=
      hg f (List.mem_reverse.1 (List.mem_of_find?_eq_some hlast))
    refine ⟨shown, ?_, hshown⟩
    rw [get?_add hhandles, hlast, Option.bind_some, hentry]
    rfl
  · rw [get?_add hhandles, hnone]
    rfl

/-! ## Documents without problems -/

/-- The engine of localization documents has their schema, and reads them with conversion. -/
theorem localization_eq_ok {e : Engine} (h : Engine.localization = .ok e) :
    Schema.Validator.ofSchema Schema.localization = .ok e.validator ∧ e.options = checked := by
  obtain ⟨validator, hvalidator, h⟩ := bind_eq_ok_iff.1 h
  obtain rfl := Except.ok.inj h
  exact ⟨hvalidator, rfl⟩

/-- A document that can be checked can be loaded. -/
theorem exists_parse_options {text : String} {tree : Value}
    (hcheck : checkWellFormed text = .ok ()) (h : Tree.parse checked text = .ok tree) :
    ∃ tree', Tree.parse options text = .ok tree' := by
  have hreadable : AllReadable true text := (Tree.exists_parse_iff hcheck checked).1 ⟨tree, h⟩
  refine (Tree.exists_parse_iff hcheck options).2 fun e he => ?_
  have hevent := hreadable e he
  cases he' : e.2 with
  | declaration content => exact fun hkeep => absurd hkeep Bool.false_ne_true
  | _ => rwa [he'] at hevent

/-- A document without problems is a list of entries and nothing else. -/
theorem list_of_clean {e : Engine} (he : Engine.localization = .ok e) {d : TextDocument}
    (hclean : e.problems d = []) :
    ∃ fs root, FragmentsOf d.text fs ∧ fs.filter isElement = [root] ∧
      root.name? = some "contentList" ∧ OnlyHas "content" root ∧ root.children ≠ [] ∧
      (treeOf checked "contentList" root).get? "content" =
        some (.array (root.children.map (treeOf checked "contentList.content"))) ∧
      (∀ f ∈ root.children, Schema.Satisfies NearestAtLeast Schema.localizationEntry
        (treeOf checked "contentList.content" f)) ∧
      ∃ tree, Tree.parse options d.text = .ok tree := by
  obtain ⟨hvalidator, hoptions⟩ := localization_eq_ok he
  obtain ⟨hcheck, tree, hparse, hsatisfies⟩ := Engine.satisfies_of_clean hvalidator hclean
  rw [hoptions] at hparse
  obtain ⟨-, fs, hfs, hone, -⟩ := (checkWellFormed_ok_iff _).1 hcheck
  obtain ⟨root, hroot⟩ := List.length_eq_one_iff.1 hone
  obtain ⟨list, hlist, hsatisfies⟩ := Schema.member_of_satisfies "contentList" _ rfl
    (List.mem_cons_of_mem _ List.mem_cons_self) (List.mem_cons_of_mem _ List.mem_cons_self)
    hsatisfies
  rw [get?_of_root (by decide) rfl hparse hfs hroot] at hlist
  split_ifs at hlist with hname
  obtain rfl := Option.some.inj hlist
  obtain ⟨honly, hchildren, hcontents, hentries⟩ :=
    closedList_of_satisfies rfl (by decide) (by decide) rfl hsatisfies
  exact ⟨fs, root, hfs, hroot, hname, honly, hchildren, hcontents, hentries,
    exists_parse_options hcheck hparse⟩

/-- The entries that are loaded are those of the elements in the list. -/
theorem entriesOf_eq {text : String} {tree : Value} {fs : List Fragment} {root : Fragment}
    (hparse : Tree.parse options text = .ok tree) (hfs : FragmentsOf text fs)
    (hroot : fs.filter isElement = [root]) (hname : root.name? = some "contentList")
    (hcontents : (treeOf checked "contentList" root).get? "content" =
      some (.array (root.children.map (treeOf checked "contentList.content")))) :
    entriesOf tree =
      root.children.filterMap fun f => entry? (treeOf options "contentList.content" f) := by
  have hlist : tree.get? "contentList" = some (plain (treeOf checked "contentList" root)) := by
    rw [get?_of_root (by decide) rfl hparse hfs hroot, if_pos hname, treeOf_options]
  unfold entriesOf
  rw [hlist, Option.bind_some, get?_plain, hcontents, Option.map_some, plain, plainItems_eq,
    List.map_map]
  simp only [List.filterMap_map, treeOf_options]
  rfl

/-- In a document without problems, all entries in the list are loaded. -/
theorem extend_of_clean {e : Engine} (he : Engine.localization = .ok e) {d : TextDocument}
    (hclean : e.problems d = []) (t : LocalizationTable) :
    ∃ fs root, FragmentsOf d.text fs ∧ fs.filter isElement = [root] ∧
      root.name? = some "contentList" ∧ OnlyHas "content" root ∧ root.children ≠ [] ∧
      ∃ t', t.extend d.text = .ok (t', root.children.length) ∧
        ((∀ f ∈ root.children, named attributesGroup f.inside = []) →
          Loaded t t' root.children) := by
  obtain ⟨fs, root, hfs, hroot, hname, honly, hchildren, hcontents, hentries, tree, hparse⟩ :=
    list_of_clean he hclean
  refine ⟨fs, root, hfs, hroot, hname, honly, hchildren, ?_⟩
  have hloaded := entriesOf_eq hparse hfs hroot hname hcontents
  have hsome : ∀ f ∈ root.children, ∃ handle shown,
      entry? (treeOf options "contentList.content" f) = some (handle, shown) := by
    intro f hf
    rw [treeOf_options]
    exact entry?_of_satisfies (hentries f hf)
  refine ⟨t.add (entriesOf tree), ?_, fun hgroup => ?_⟩
  · have hlength : (entriesOf tree).length = root.children.length := by
      rw [hloaded, List.filterMap_length_eq_length]
      intro f hf
      obtain ⟨handle, shown, hentry⟩ := hsome f hf
      rw [hentry]
      rfl
    rw [extend, hparse, ← hlength]
    rfl
  · rw [hloaded]
    refine loaded_add t fun f hf => ?_
    obtain ⟨handle, shown, hentry⟩ := hsome f hf
    have hread : ∀ e ∈ f.events, e.Read := fun e he' =>
      read_of_root hparse hfs hroot e (eventsAll_inside_subset root
        (events_subset_eventsAll (List.mem_filter.1 hf).1 he'))
    obtain ⟨tag, htag, -⟩ := Option.map_eq_some_iff.1 (honly.children f hf)
    refine ⟨handle, shown, hentry, handle?_of_entry? htag hread (hgroup f hf) hentry, ?_⟩
    exact shown_of_entry? hread hentry

/-! ## Small documents -/

/-- The characters of a localization document with the given entries. -/
def charsWithEntries (entries : List String) : List Char :=
  (["<?xml version=\"1.0\" encoding=\"utf-8\"?>", "<contentList>"] ++ entries ++
    ["</contentList>"]).flatMap String.toList

/-- A localization document with the given entries. -/
def documentWith (entries : List String) : TextDocument :=
  ⟨"Localization/a.xml", "xml", 1, String.ofList (charsWithEntries entries)⟩

/-- The fragments of a document with elements in its list. -/
def fragmentsWith (inside : List Fragment) : List Fragment :=
  [.declaration ("xml version=\"1.0\" encoding=\"utf-8\"".toList),
    .element ⟨"contentList".toList, []⟩ inside]

/-- A handle. -/
def sampleHandle : String := "h55e8dd17gb5c8g4d34gac23gd8616a2c1925"

/-- The beginning of an entry with the handle. -/
def entryStart : List String :=
  ["<content contentuid=\"h55e8dd17gb5c8g", "4d34gac23gd8616a2c1925\" version=\"1\">"]

/-- An entry with the handle. -/
def entryWith (inside : List Fragment) : Fragment :=
  .element ⟨"content".toList, [" contentuid=\"h55e8dd17gb5c8g",
    "4d34gac23gd8616a2c1925\" version=\"1\""].flatMap String.toList⟩ inside

/-- Two entries with the handle. -/
def repeatedEntries : List String :=
  entryStart ++ ["x</content>"] ++ entryStart ++ ["y</content>"]

/-- The patterns of localization documents can be read, so there is an engine for them. -/
theorem exists_localization : ∃ e, Engine.localization = .ok e := by
  have hpatterns : (Schema.Validator.ofSchema Schema.localization).toOption.isSome = true := by
    decide +kernel
  obtain ⟨validator, hvalidator⟩ := Option.isSome_iff_exists.1 hpatterns
  exact ⟨_, bind_eq_ok_iff.2 ⟨validator, ok_of_toOption hvalidator, rfl⟩⟩

/-- How a document is found to have no problems by evaluation. -/
theorem clean_of_checked {e : Engine} (he : Engine.localization = .ok e) {d : TextDocument}
    (h : checkWellFormed d.text = .ok () ∧
      (Schema.Validator.ofSchema Schema.localization).toOption.bind (fun validator =>
        (Tree.parse checked d.text).toOption.map fun tree =>
          (validator.violations tree).isEmpty) = some true) : e.problems d = [] := by
  obtain ⟨hvalidator, hoptions⟩ := localization_eq_ok he
  exact Engine.clean_of_checked hvalidator h.1 (by rw [hoptions]; exact h.2)

/-- Of two entries with one handle the last one is found. -/
theorem extend_of_clean_repeated :
    ∃ e t', Engine.localization = .ok e ∧ e.problems (documentWith repeatedEntries) = [] ∧
      empty.extend (documentWith repeatedEntries).text = .ok (t', 2) ∧
      t'.get? sampleHandle = some "y" := by
  obtain ⟨e, he⟩ := exists_localization
  have hclean : e.problems (documentWith repeatedEntries) = [] := by
    apply clean_of_checked he
    simp only [checkWellFormed, Tree.parse, Document.read, documentWith, String.toList_ofList]
    decide +kernel
  have hfs : FragmentsOf (documentWith repeatedEntries).text
      (fragmentsWith [entryWith [.text ['x']], entryWith [.text ['y']]]) := by
    unfold FragmentsOf
    simp only [documentWith, String.toList_ofList]
    decide +kernel
  obtain ⟨fs, root, hfs', hroot, -, -, -, t', hextend, hloaded⟩ :=
    extend_of_clean he hclean empty
  obtain rfl := hfs'.unique hfs
  obtain rfl : _ = root := (List.cons.inj hroot).1
  have hlast : lastWith? sampleHandle [entryWith [.text ['x']], entryWith [.text ['y']]] =
      some (entryWith [.text ['y']]) :=
    lastWith?_concat [entryWith [.text ['x']]] (by decide +kernel)
  obtain ⟨shown, hget, hshown⟩ := (hloaded (by decide +kernel)).last _ _ hlast
  have hkeeps : KeepsSpace (entryWith [.text ['y']]) := by
    refine (wording_eq_ownText_iff ?_).1 (by decide +kernel)
    intro raw hraw
    obtain rfl : raw = ['y'] := by simpa [entryWith, inside] using hraw
    exact ⟨['y'], by decide +kernel⟩
  have hown : ownText (entryWith [.text ['y']]) = "y" := by decide +kernel
  refine ⟨e, t', he, hclean, hextend, ?_⟩
  rw [hget, hshown hkeeps (fun _ => by decide +kernel), hown]

/-! ## Entries that are not loaded -/

/-- The elements with the name of entries in fragments, at any depth. -/
def allContents (fs : List Fragment) : List Fragment :=
  named "content" ((elementsAll none fs).map Prod.snd)

/-- Whether a text is loaded with all elements that have the name of entries, wherever they stand:
under each handle is the text of the last of them. -/
def LoadsAll (t : LocalizationTable) (text : String) : Prop :=
  ∃ fs t', FragmentsOf text fs ∧ t.extend text = .ok (t', (allContents fs).length) ∧
    ∀ handle, (∀ f, lastWith? handle (allContents fs) = some f →
        t'.get? handle = some (ownText f)) ∧
      (lastWith? handle (allContents fs) = none → t'.get? handle = t.get? handle)

/-- An entry inside an entry. -/
def nestedEntries : List String := entryStart ++ entryStart ++ ["x</content></content>"]

/-- An entry without text, with an element whose name is the key of texts. -/
def textEntries : List String := entryStart ++ ["<#text>x</#text></content>"]

/-- An entry without text, with an element whose name is the key of attributes. -/
def groupEntries : List String :=
  entryStart ++ ["<_@_><contentuid>h55e8dd17gb5c8g", "4d34gac23gd8616a2c1926</contentuid>",
    "<version>1</version></_@_></content>"]

theorem not_loadsAll_nested : ¬ LoadsAll empty (documentWith nestedEntries).text := by
  rintro ⟨fs, t', hfs, hextend, -⟩
  have hnested : FragmentsOf (documentWith nestedEntries).text
      (fragmentsWith [entryWith [entryWith [.text ['x']]]]) := by
    unfold FragmentsOf
    simp only [documentWith, String.toList_ofList]
    decide +kernel
  have hcount : (empty.extend (documentWith nestedEntries).text).toOption.map Prod.snd =
      some 1 := by
    simp only [extend, Tree.parse, Document.read, documentWith, String.toList_ofList]
    decide +kernel
  obtain rfl := hfs.unique hnested
  have hcontents : (allContents (fragmentsWith [entryWith [entryWith [.text ['x']]]])).length =
      2 := by decide +kernel
  rw [hextend, hcontents] at hcount
  have htwo : 2 = 1 := Option.some.inj hcount
  contradiction

/-- An entry without text is not loaded if its handle has another text or none. -/
theorem not_loadsAll_of_shown {text : String} (f : Fragment) (shown : Option String)
    (hfs : FragmentsOf text (fragmentsWith [f])) (hcontents : allContents (fragmentsWith [f]) = [f])
    (hhandle : handle? f = some sampleHandle) (hown : ownText f = "")
    (hshown : (empty.extend text).toOption.map (fun r => r.1.get? sampleHandle) = some shown)
    (hne : shown ≠ some "") : ¬ LoadsAll empty text := by
  rintro ⟨fs, t', hfs', hextend, hget⟩
  obtain rfl := hfs'.unique hfs
  have hlast : lastWith? sampleHandle (allContents (fragmentsWith [f])) = some f := by
    rw [hcontents]
    exact lastWith?_concat [] hhandle
  have hempty := (hget sampleHandle).1 f hlast
  rw [hown] at hempty
  rw [hextend] at hshown
  obtain rfl : t'.get? sampleHandle = shown := Option.some.inj hshown
  exact hne hempty

theorem not_loadsAll_text : ¬ LoadsAll empty (documentWith textEntries).text := by
  refine not_loadsAll_of_shown (entryWith [.element ⟨"#text".toList, []⟩ [.text ['x']]]) (some "x")
    ?_ rfl ?_ ?_ ?_ ?_
  · unfold FragmentsOf
    simp only [documentWith, String.toList_ofList]
    decide +kernel
  · decide +kernel
  · decide +kernel
  · simp only [extend, Tree.parse, Document.read, documentWith, String.toList_ofList]
    decide +kernel
  · decide

theorem not_loadsAll_group : ¬ LoadsAll empty (documentWith groupEntries).text := by
  refine not_loadsAll_of_shown (entryWith [.element ⟨"_@_".toList, []⟩
    [.element ⟨"contentuid".toList, []⟩
      [.text (["h55e8dd17gb5c8g", "4d34gac23gd8616a2c1926"].flatMap String.toList)],
      .element ⟨"version".toList, []⟩ [.text ['1']]]]) none ?_ rfl ?_ ?_ ?_ ?_
  · unfold FragmentsOf
    simp only [documentWith, String.toList_ofList]
    decide +kernel
  · decide +kernel
  · decide +kernel
  · simp only [extend, Tree.parse, Document.read, documentWith, String.toList_ofList]
    decide +kernel
  · decide

/-- The schema says nothing of the elements inside an entry. So there are documents without problems
that have an entry inside an entry, which is not loaded, or elements that take the place of the text
or the attributes of an entry. -/
theorem not_loadsAll_of_clean :
    ∃ e, Engine.localization = .ok e ∧
      ∀ entries ∈ [nestedEntries, textEntries, groupEntries],
        e.problems (documentWith entries) = [] ∧ ¬ LoadsAll empty (documentWith entries).text := by
  obtain ⟨e, he⟩ := exists_localization
  refine ⟨e, he, List.forall_mem_cons.2 ⟨⟨?_, not_loadsAll_nested⟩, List.forall_mem_cons.2
    ⟨⟨?_, not_loadsAll_text⟩, List.forall_mem_singleton.2 ⟨?_, not_loadsAll_group⟩⟩⟩⟩
  all_goals
    apply clean_of_checked he
    simp only [checkWellFormed, Tree.parse, Document.read, documentWith, String.toList_ofList]
    decide +kernel

end LocalizationTable

end LsxKit
