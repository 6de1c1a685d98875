import LsxKit.Proofs.Localization.Loading
import Mathlib.Data.Finset.Card

/-!
# Localization tables in use

A table is extended by documents, written to and cleared in any order. Each of these makes writes,
and what the table has at the end are the writes since it was last cleared.

* `contents`, `Shown`: the entries of a document, and what each of them writes.
* `entriesOf_contents`: the entries of a document with one root are those in its list.
* `Operation`, `performAll`, `Written`: what operations do, and the writes that count after them.
* `exists_writes_perform`: one operation, then `performAll_written`: any number of them.
* `Holds`: what is seen of a table with writes.
* `not_performAll_written`: an element inside an entry may take the place of its handle.
-/

namespace LsxKit

open Json Xml Fragment LsxKit.Tree

/-! ## Keys in the order of their first writes -/

namespace Entries

variable {κ ν : Type} [DecidableEq κ]

theorem extend_append (es new new' : Entries κ ν) :
    extend es (new ++ new') = extend (extend es new) new' := List.foldl_append

/-- The keys of entries that are written one after the other. -/
theorem keys_extend_nil (ws : Entries κ ν) : keys (extend [] ws) = (keys ws).eraseDups := by
  induction ws using List.reverseRecOn with
  | nil => rfl
  | append_singleton ws w ih =>
    have hlast : extend [] (ws ++ [w]) = insert w.1 w.2 (extend [] ws) := extend_append [] ws [w]
    have hmem : w.1 ∈ keys (extend [] ws) ↔ w.1 ∈ keys ws := by simp [mem_keys_extend]
    rw [hlast, keys_insert, ih, keys_append, List.eraseDups_append, ← ih]
    by_cases hw : w.1 ∈ keys ws
    · rw [if_pos (hmem.2 hw)]
      simp [List.removeAll, hw]
    · rw [if_neg (mt hmem.1 hw)]
      simp [List.removeAll, hw, List.eraseDups_cons]

theorem nodup_keys_extend_nil (ws : Entries κ ν) : (keys (extend [] ws)).Nodup :=
  have hnil : (keys ([] : Entries κ ν)).Nodup := List.nodup_nil
  nodup_keys_extend hnil ws

theorem length_extend_nil (ws : Entries κ ν) :
    (extend [] ws).length = (keys ws).toFinset.card := by
  have hkeys : (keys (extend [] ws)).toFinset = (keys ws).toFinset := by
    ext k
    simp [mem_keys_extend]
  rw [← hkeys, List.toFinset_card_of_nodup (nodup_keys_extend_nil ws), keys, List.length_map]

end Entries

namespace LocalizationTable

variable {path text : String} {tree : Value} {f : Fragment} {fs : List Fragment}

/-! ## Entries of documents -/

/-- The entries of a document: the elements `content` directly below a root `contentList`. -/
def contents (fs : List Fragment) : List Fragment :=
  (named "contentList" fs).flatMap fun root => named "content" root.inside

theorem get?_contents (path : String) (f : Fragment) :
    (treeOf options path f).get? "content" = if named "content" f.inside = [] then none
      else some (.array ((named "content" f.inside).map
        (treeOf options (path ++ "." ++ "content")))) := by
  by_cases hne : f.attributes ≠ [] ∨ f.children ≠ []
  · rw [get?_of_members hne, if_neg fun h => absurd h.1 (by decide), get?_innerMembers,
      get?_leadingMembers rfl, if_neg fun h => absurd h.1 (by decide), Option.or_none]
    simp [gathered?, options, gathered_forced]
  · rw [not_or, not_not, not_not] at hne
    have hnone : named "content" f.inside = [] := by
      rw [← named_filter_isElement]
      exact congrArg (named "content") hne.2
    rw [treeOf_scalar hne.1 hne.2, get?_of_not_object (isObject_ofText _ _), if_pos hnone]

/-- The entries that are loaded from a document with one root are those in its list. -/
theorem entriesOf_contents (hparse : Tree.parse options text = .ok tree)
    (hfs : FragmentsOf text fs) (hone : (fs.filter isElement).length ≤ 1) :
    entriesOf tree =
      (contents fs).filterMap fun f => entry? (treeOf options "contentList.content" f) := by
  obtain ⟨fs', members, hfs', rfl, -, hroots, -⟩ := parse_fragments hparse
  obtain rfl := hfs.unique hfs'
  have hlength : (named "contentList" fs).length ≤ 1 := by
    rw [← named_filter_isElement]
    exact (List.length_filter_le _ _).trans hone
  have hlist := hroots "contentList" (by decide)
  unfold entriesOf contents
  rw [Value.get?, hlist]
  cases hnamed : named "contentList" fs with
  | nil => rfl
  | cons root rest =>
    have hrest : rest = [] := by
      rw [hnamed, List.length_cons] at hlength
      exact List.length_eq_zero_iff.1 (Nat.le_zero.1 (Nat.le_of_succ_le_succ hlength))
    have hroot : gathered? (options.alwaysArray "contentList" "contentList")
        ([root].map (treeOf options "contentList")) = some (treeOf options "contentList" root) :=
      rfl
    rw [hrest, hroot, Option.bind_some, get?_contents, List.flatMap_singleton]
    split_ifs with hnone
    · rw [hnone]
      rfl
    · exact List.filterMap_map.trans rfl

/-- The entries of a document that is read are elements, and all in them is read. -/
theorem read_of_mem_contents
    (hread : ∀ x ∈ elementsAll none fs, ∀ e ∈ x.2.events, e.Read) (hf : f ∈ contents fs) :
    ∃ tag, f.tag? = some tag ∧ ∀ e ∈ f.events, e.Read := by
  obtain ⟨root, hroot, hf⟩ := List.mem_flatMap.1 hf
  obtain ⟨hroot, hlist⟩ := List.mem_filter.1 hroot
  obtain ⟨hf, hname⟩ := List.mem_filter.1 hf
  obtain ⟨tag, htag, -⟩ := Option.map_eq_some_iff.1 (of_decide_eq_true hname)
  refine ⟨tag, htag, fun e he => ?_⟩
  have hinside := eventsAll_inside_subset root (events_subset_eventsAll hf he)
  cases root with
  | element tag inside =>
    exact hread _ (mem_elementsAll.2 ⟨_, hroot, List.mem_cons_self⟩) e hinside
  | _ => simp [inside] at hf

/-- Whether something may be what an entry writes: its text under its handle, and nothing if it has
no handle. An element directly inside it with the name of the key under which trees have attributes
may take the place of the handle, and one with the name of the key under which they have texts that
of an empty text. Space may be dropped between other characters of the text. -/
structure Shown (f : Fragment) (w : Option (String × String)) : Prop where
  handle : named attributesGroup f.inside = [] → w.map Prod.fst = handle? f
  text : KeepsSpace f → (ownText f = "" → named textKey f.inside = []) → ∀ e ∈ w, e.2 = ownText f

/-- An entry that has a handle is loaded, unless an element inside takes the place of the handle. -/
theorem entry?_handle {w : Option (String × String)} {tag : Tag} (htag : f.tag? = some tag)
    (hread : ∀ e ∈ f.events, e.Read) (hw : entry? (treeOf options path f) = w)
    (hnone : named attributesGroup f.inside = []) : w.map Prod.fst = handle? f := by
  cases hhandle : handle? f with
  | none =>
    cases w with
    | none => rfl
    | some e =>
      have hsome := handle?_of_entry? htag hread hnone hw
      rw [hhandle] at hsome
      contradiction
  | some handle =>
    have hattributes : f.attributes ≠ [] := by
      intro hnil
      rw [handle?, hnil] at hhandle
      contradiction
    have hgroup : (treeOf options path f).get? attributesGroup =
        some (.object (attributeValues options f.attributes)) := by
      rw [get?_group rfl (by decide) hnone, if_neg hattributes]
    have hown : (Value.object (attributeValues options f.attributes)).get? "contentuid" =
        some (.string handle) := by
      rw [Value.get?, attributeValues_eq (readAttributes_of_read htag hread),
        Entries.get?_map (Scalar.ofText options.convert), ← handle?, hhandle]
      rfl
    obtain ⟨shown, hentry⟩ := entry?_of_handle hgroup hown
    rw [← hw, hentry]
    rfl

theorem shown_entry? {w : Option (String × String)} {tag : Tag} (htag : f.tag? = some tag)
    (hread : ∀ e ∈ f.events, e.Read) (hw : entry? (treeOf options path f) = w) : Shown f w := by
  refine ⟨entry?_handle htag hread hw, fun hkeeps hempty e he => ?_⟩
  exact shown_of_entry? hread (hw.trans he) hkeeps hempty

/-! ## Operations -/

/-- What may happen to a table. -/
inductive Operation where
  | extend (xml : String)
  | insert (handle text : String)
  | clear

/-- The table after an operation. A document that cannot be read changes nothing. -/
def perform (t : LocalizationTable) : Operation → LocalizationTable
  | .extend xml =>
    match t.extend xml with
    | .ok (t', _) => t'
    | .error _ => t
  | .insert handle text => (t.insert handle text).1
  | .clear => t.clear

/-- The table after operations, one after the other. -/
def performAll (t : LocalizationTable) (ops : List Operation) : LocalizationTable :=
  ops.foldl perform t

/-- Whether a document makes some writes: those of its entries in order, each of which is related to
its entry by `writes`. -/
def DocumentWrites (writes : Fragment → Option (String × String) → Prop) (xml : String)
    (ws : List (String × String)) : Prop :=
  ∃ fs g, FragmentsOf xml fs ∧ (∀ f ∈ contents fs, writes f (g f)) ∧ ws = (contents fs).filterMap g

/-- Whether the writes `ws` that count become `ws'` with an operation on a table: a document adds
its writes if it can be read, and nothing counts any more after a clear. -/
def Operation.Writes (writes : Fragment → Option (String × String) → Prop) (t : LocalizationTable)
    (ws ws' : List (String × String)) : Operation → Prop
  | .extend xml =>
    match t.extend xml with
    | .ok _ => ∃ new, DocumentWrites writes xml new ∧ ws' = ws ++ new
    | .error _ => ws' = ws
  | .insert handle text => ws' = ws ++ [(handle, text)]
  | .clear => ws' = []

/-- Whether the writes `ws` that count become `ws'` with operations on a table. -/
def Written (writes : Fragment → Option (String × String) → Prop) (t : LocalizationTable)
    (ws ws' : List (String × String)) : List Operation → Prop
  | [] => ws' = ws
  | op :: ops => ∃ next, op.Writes writes t ws next ∧ Written writes (t.perform op) next ws' ops

/-- Whether the documents of operations have one root element at most. -/
def OneRooted (ops : List Operation) : Prop :=
  ∀ xml fs, .extend xml ∈ ops → FragmentsOf xml fs → (fs.filter isElement).length ≤ 1

/-- What is seen of a table with some writes: under each handle the text of the last write to it,
and the handles in the order in which they were first written. -/
structure Holds (t : LocalizationTable) (ws : List (String × String)) : Prop where
  get? : ∀ handle, t.get? handle = Entries.get? handle ws.reverse
  handles : t.toList.map Prod.fst = (ws.map Prod.fst).eraseDups
  texts : ∀ e ∈ t.toList, t.get? e.1 = some e.2
  size : t.size = (ws.map Prod.fst).toFinset.card

theorem holds_add (ws : List (String × String)) : Holds (empty.add ws) ws :=
  ⟨fun _ => Entries.get?_extend_nil _ ws, Entries.keys_extend_nil ws,
    fun _ he => Entries.get?_of_mem (Entries.nodup_keys_extend_nil ws) he,
    Entries.length_extend_nil ws⟩

theorem add_append (t : LocalizationTable) (ws ws' : List (String × String)) :
    t.add (ws ++ ws') = (t.add ws).add ws' :=
  congrArg LocalizationTable.mk (Entries.extend_append t.entries ws ws')

/-- A document with one root makes the writes that are shown. -/
theorem documentWrites_of_parse (hparse : Tree.parse options text = .ok tree)
    (hone : ∀ fs, FragmentsOf text fs → (fs.filter isElement).length ≤ 1) :
    DocumentWrites Shown text (entriesOf tree) := by
  obtain ⟨fs, members, hfs, -, -, -, hread⟩ := parse_fragments hparse
  refine ⟨fs, _, hfs, fun f hf => ?_, entriesOf_contents hparse hfs (hone fs hfs)⟩
  obtain ⟨tag, htag, hevents⟩ := read_of_mem_contents hread hf
  exact shown_entry? htag hevents rfl

/-- An operation on a table with some writes makes the writes that are shown. -/
theorem exists_writes_perform (op : Operation) (h : OneRooted [op])
    (ws : List (String × String)) :
    ∃ ws', op.Writes Shown (empty.add ws) ws ws' ∧ (empty.add ws).perform op = empty.add ws' := by
  cases op with
  | extend xml =>
    cases hparse : Tree.parse options xml with
    | ok tree =>
      have hextend : (empty.add ws).extend xml =
          .ok ((empty.add ws).add (entriesOf tree), (entriesOf tree).length) := by
        rw [extend, hparse]
        rfl
      refine ⟨ws ++ entriesOf tree, ?_, ?_⟩
      · rw [Operation.Writes, hextend]
        exact ⟨_, documentWrites_of_parse hparse (fun fs => h xml fs List.mem_cons_self), rfl⟩
      · rw [perform, hextend, add_append]
    | error e =>
      have hextend : (empty.add ws).extend xml = .error e := by
        rw [extend, hparse]
        rfl
      exact ⟨ws, by rw [Operation.Writes, hextend], by rw [perform, hextend]⟩
  | insert handle text => exact ⟨_, rfl, (add_append empty ws [(handle, text)]).symm⟩
  | clear => exact ⟨[], rfl, rfl⟩

/-- Operations on a table with some writes make the writes that are shown. -/
theorem exists_written_performAll {ops : List Operation} (h : OneRooted ops)
    (ws : List (String × String)) :
    ∃ ws', Written Shown (empty.add ws) ws ws' ops ∧
      (empty.add ws).performAll ops = empty.add ws' := by
  induction ops generalizing ws with
  | nil => exact ⟨ws, rfl, rfl⟩
  | cons op ops ih =>
    obtain ⟨next, hwrites, hperform⟩ := exists_writes_perform op
      (fun xml fs hmem => h xml fs (List.mem_cons.2 (.inl (List.mem_singleton.1 hmem)))) ws
    obtain ⟨ws', hwritten, hall⟩ :=
      ih (fun xml fs hmem => h xml fs (List.mem_cons_of_mem _ hmem)) next
    rw [← hperform] at hwritten hall
    exact ⟨ws', ⟨next, hwrites, hwritten⟩, hall⟩

/-- After any operations on documents with one root, a table holds what was written since it was
last cleared; a document that cannot be read leaves it as it was. -/
theorem performAll_written {ops : List Operation} (h : OneRooted ops) :
    (∃ ws, Written Shown empty [] ws ops ∧ Holds (empty.performAll ops) ws) ∧
      ∀ xml e, (empty.performAll ops).extend xml = .error e →
        (empty.performAll ops).perform (.extend xml) = empty.performAll ops := by
  constructor
  · obtain ⟨ws, hwritten, htable⟩ := exists_written_performAll h []
    refine ⟨ws, hwritten, ?_⟩
    have htable : empty.performAll ops = empty.add ws := htable
    rw [htable]
    exact holds_add ws
  · intro xml e herror
    rw [perform, herror]

/-! ## Small runs -/

theorem oneRooted_of_forall {ops : List Operation}
    (h : ∀ xml, .extend xml ∈ ops →
      ∃ fs, FragmentsOf xml fs ∧ (fs.filter isElement).length ≤ 1) : OneRooted ops := by
  intro xml fs hmem hfs
  obtain ⟨fs', hfs', hone⟩ := h xml hmem
  rwa [hfs.unique hfs']

/-- A list with the given elements. -/
def listWith (inside : List Fragment) : Fragment := .element ⟨"contentList".toList, []⟩ inside

/-- The tag of an entry with the given rest. -/
def entryTag (rest : String) : Tag := ⟨"content".toList, rest.toList⟩

/-- Three entries, the second of which has no handle, and the third no text. -/
def threeEntries : String :=
  "<contentList><content contentuid='a'>x</content><content/>" ++
    "<content contentuid='b'/></contentList>"

/-- An entry with an unknown reference. -/
def unknownReference : String := "<contentList><content contentuid='&c;'/></contentList>"

/-- One entry. -/
def oneEntry : String := "<contentList><content contentuid='c'>z</content></contentList>"

/-- A run with a clear, a document that cannot be read, and a second write to a handle. -/
def sampleRun : List Operation :=
  [.insert "d" "w", .clear, .extend threeEntries, .extend unknownReference, .insert "a" "y",
    .extend oneEntry]

theorem performAll_written_sample :
    OneRooted sampleRun ∧
      (∃ ws, Written Shown empty [] ws sampleRun ∧ Holds (empty.performAll sampleRun) ws) ∧
      (empty.performAll sampleRun).toList = [("a", "y"), ("b", ""), ("c", "z")] ∧
      (empty.performAll sampleRun).perform (.extend unknownReference) =
        empty.performAll sampleRun := by
  have hone : OneRooted sampleRun := by
    refine oneRooted_of_forall fun xml hmem => ?_
    simp only [sampleRun, List.mem_cons, Operation.extend.injEq, reduceCtorEq, List.not_mem_nil,
      or_false, false_or] at hmem
    rcases hmem with rfl | rfl | rfl
    · exact ⟨[listWith [.element (entryTag " contentuid='a'") [.text ['x']], .empty (entryTag ""),
        .empty (entryTag " contentuid='b'")]], by decide +kernel, by decide +kernel⟩
    · exact ⟨[listWith [.empty (entryTag " contentuid='&c;'")]], by decide +kernel,
        by decide +kernel⟩
    · exact ⟨[listWith [.element (entryTag " contentuid='c'") [.text ['z']]]], by decide +kernel,
        by decide +kernel⟩
  obtain ⟨hwritten, hrefused⟩ := performAll_written hone
  refine ⟨hone, hwritten, by decide +kernel, ?_⟩
  cases hextend : (empty.performAll sampleRun).extend unknownReference with
  | error e => exact hrefused _ e hextend
  | ok r =>
    have hnone : ((empty.performAll sampleRun).extend unknownReference).toOption.isNone = true := by
      decide +kernel
    rw [hextend] at hnone
    contradiction

/-! ## Entries that write something else -/

/-- What an entry has to write: its text under its handle, and nothing if it has no handle. -/
def ownWrite (f : Fragment) : Option (String × String) := (handle? f).map (·, ownText f)

theorem oneRooted_extend {xml : String} {root : Fragment} (hfs : FragmentsOf xml [root]) :
    OneRooted [.extend xml] := by
  refine oneRooted_of_forall fun xml' hmem => ?_
  obtain rfl := Operation.extend.inj (List.mem_singleton.1 hmem)
  exact ⟨_, hfs, List.length_filter_le _ _⟩

/-- A document with one entry does not write what it has to if something else is found under the
handle. -/
theorem not_written_of_get? {xml : String} (handle text : String)
    (hfs : FragmentsOf xml [listWith [f]]) (hname : f.name? = some "content")
    (hwrite : ownWrite f = some (handle, text))
    (hshown : (empty.extend xml).toOption.any (fun r => r.1.get? handle ≠ some text) = true) :
    ¬ ∃ ws, Written (fun f w => w = ownWrite f) empty [] ws [.extend xml] ∧
      Holds (empty.performAll [.extend xml]) ws := by
  rintro ⟨ws, ⟨next, hwrites, rfl⟩, hholds⟩
  obtain ⟨r, hread, hne⟩ := (Option.any_eq_true _ _).1 hshown
  have hextend := ok_of_toOption hread
  rw [Operation.Writes, hextend] at hwrites
  obtain ⟨new, ⟨fs, g, hfs', hg, rfl⟩, rfl⟩ := hwrites
  obtain rfl := hfs'.unique hfs
  have hcontents : contents [listWith [f]] = [f] := by
    show named "content" [f] ++ [] = [f]
    rw [List.append_nil]
    exact List.filter_cons_of_pos (by simpa using hname)
  have hentry : g f = some (handle, text) :=
    (hg f (by rw [hcontents]; exact List.mem_singleton_self f)).trans hwrite
  have hget := hholds.get? handle
  rw [hcontents, List.filterMap_cons_some hentry] at hget
  have htable : (empty.performAll [.extend xml]).get? handle = r.1.get? handle := by
    show (empty.perform (.extend xml)).get? handle = _
    rw [perform, hextend]
  rw [htable] at hget
  simp [hget, Entries.get?] at hne

/-- An entry with an element inside that has the name of the key of attributes. -/
def takenHandle : String :=
  "<contentList><content contentuid='h1'><_@_><contentuid>h2</contentuid></_@_></content>" ++
    "</contentList>"

/-- An entry without text, with an element inside that has the name of the key of texts. -/
def takenText : String :=
  "<contentList><content contentuid='h1'><#text>x</#text></content></contentList>"

/-- An element inside an entry may take the place of its handle or of its text. -/
theorem not_performAll_written :
    (OneRooted [.extend takenHandle] ∧
      ¬ ∃ ws, Written (fun f w => w = ownWrite f) empty [] ws [.extend takenHandle] ∧
        Holds (empty.performAll [.extend takenHandle]) ws) ∧
    OneRooted [.extend takenText] ∧
      ¬ ∃ ws, Written (fun f w => w = ownWrite f) empty [] ws [.extend takenText] ∧
        Holds (empty.performAll [.extend takenText]) ws := by
  have hhandle : FragmentsOf takenHandle [listWith [.element (entryTag " contentuid='h1'")
      [.element ⟨"_@_".toList, []⟩ [.element ⟨"contentuid".toList, []⟩ [.text "h2".toList]]]]] := by
    decide +kernel
  have htext : FragmentsOf takenText [listWith [.element (entryTag " contentuid='h1'")
      [.element ⟨"#text".toList, []⟩ [.text ['x']]]]] := by decide +kernel
  exact ⟨⟨oneRooted_extend hhandle,
      not_written_of_get? "h1" "" hhandle (by decide +kernel) (by decide +kernel)
        (by decide +kernel)⟩,
    oneRooted_extend htext,
    not_written_of_get? "h1" "" htext (by decide +kernel) (by decide +kernel)
      (by decide +kernel)⟩

end LocalizationTable

end LsxKit
