import LsxKit.Proofs.Descriptor.Sync
import LsxKit.Proofs.Tree.Plain

/-!
# Elements of attributes

The first attribute of the module with an id stands in an element of the tree, at the same place
before and after edits. If that element has nothing but its own attributes, that stays so too, and
only the edits of its field change it.

* `attributeElement?`, `attribute?_eq`: the place of the element, and that of its own attributes.
* `onlyAttributes?`, `Bare`: elements that have nothing but attributes of their own.
* `bare_set`: what an edit makes of them.
* `bare_run`: what edits make of the attributes of the version.
-/

namespace LsxKit.Descriptor

open Json LsxKit.Tree

variable {tree : Value} {node p : Place} {id : String} {own : Entries String String}
  {d s s' : Descriptor} {field : ModuleField} {value : String}

/-! ## The first attribute with an id -/

/-- The element of the first attribute of the module with an id. -/
def attributeElement? (tree : Value) (id : String) : Option Place :=
  (node? tree .moduleInfo).bind fun node => (node.members "attribute").find? (·.id? = some id)

theorem attributeElement?_eq (h : node? tree .moduleInfo = some node) (id : String) :
    attributeElement? tree id = (node.members "attribute").find? (·.id? = some id) := by
  rw [attributeElement?, h, Option.bind_some]

/-- The id of an element is that of its own attributes. -/
theorem id?_eq (p : Place) : p.id? = (p.member? attributesGroup).bind attributeId? := by
  unfold Place.id? Place.member?
  cases p.value.get? attributesGroup <;> rfl

/-- The attributes with an id that are found first are those of the first element with it. -/
theorem attribute?_eq (h : node? tree .moduleInfo = some node) (id : String) :
    attribute? node id = (attributeElement? tree id).bind (·.member? attributesGroup) := by
  have hid : ∀ p : Place, (p.member? attributesGroup).any (attributeId? · = some id) =
      decide (p.id? = some id) := by
    intro p
    rw [id?_eq]
    cases p.member? attributesGroup <;> simp
  rw [attribute?, attributePlaces, List.find?_filterMap, attributeElement?_eq h]
  simp only [hid]

/-- The first element is found where it is found without the attributes `value`. -/
theorem attributeElement?_blank (tree : Value) (id : String) :
    attributeElement? (blank tree) id = (attributeElement? tree id).map (Place.map blank) := by
  have hid : ∀ p : Place, decide ((p.map blank).id? = some id) = decide (p.id? = some id) :=
    fun p => congrArg (fun found => decide (found = some id)) (idOf_blank p.value)
  unfold attributeElement?
  rw [keepsNodes_blank.node?]
  cases node? tree .moduleInfo with
  | none => rfl
  | some node =>
    rw [Option.map_some, Option.bind_some, Option.bind_some, keepsNodes_blank.members (by simp),
      List.find?_map]
    simp only [Function.comp_def, hid]

/-! ## Elements with attributes only -/

/-- Attributes in a tree, with texts as values. -/
def attributeTexts (own : Entries String String) : Entries String Value :=
  own.map fun m => (m.1, .string m.2)

/-- The tree of an element that has nothing but attributes. -/
def bareElement (own : Entries String String) : Value :=
  .object [(attributesGroup, .object (attributeTexts own))]

/-- The attributes of an element that has nothing else: no text and no children. -/
def onlyAttributes? : Value → Option (Entries String String)
  | .object [(key, .object own)] =>
    if key = attributesGroup then own.mapM fun m => m.2.asString?.map (m.1, ·) else none
  | _ => none

theorem mapM_asString?_eq_some_iff {members : Entries String Value} :
    members.mapM (fun m => m.2.asString?.map (m.1, ·)) = some own ↔
      members = attributeTexts own := by
  induction members generalizing own with
  | nil => cases own <;> simp [attributeTexts]
  | cons m members ih =>
    have hstring : ∀ v : Value, ∀ text, v.asString? = some text ↔ v = .string text := by
      intro v text
      cases v <;> simp [Value.asString?]
    simp only [List.mapM_cons, Option.bind_eq_bind, Option.bind_eq_some_iff, Option.map_eq_some_iff,
      Option.pure_def, Option.some.injEq, hstring, ih]
    constructor
    · rintro ⟨-, ⟨text, hv, rfl⟩, own, rfl, rfl⟩
      exact congrArg (fun v => (m.1, v) :: attributeTexts own) hv
    · intro h
      obtain ⟨e, own, rfl, rfl, rfl⟩ := List.map_eq_cons_iff.1 h.symm
      exact ⟨_, ⟨e.2, rfl, rfl⟩, own, rfl, rfl⟩

theorem onlyAttributes?_eq_some_iff {v : Value} :
    onlyAttributes? v = some own ↔ v = bareElement own := by
  unfold onlyAttributes?
  split
  · next key members =>
    split_ifs with hkey
    · simp [hkey, bareElement, mapM_asString?_eq_some_iff]
    · simp [hkey, bareElement]
  · next hnot =>
    refine iff_of_false nofun ?_
    rintro rfl
    exact hnot _ _ rfl

/-- Whether the element of the first attribute of the module with an id has nothing but some
attributes of its own. -/
def Bare (tree : Value) (id : String) (own : Entries String String) : Prop :=
  (attributeElement? tree id).bind (onlyAttributes? ·.value) = some own

instance (tree : Value) (id : String) (own : Entries String String) :
    Decidable (Bare tree id own) :=
  inferInstanceAs (Decidable (_ = _))

theorem bare_iff :
    Bare tree id own ↔ ∃ path, attributeElement? tree id = some ⟨path, bareElement own⟩ := by
  rw [Bare, Option.bind_eq_some_iff]
  constructor
  · rintro ⟨⟨path, v⟩, helement, hv⟩
    obtain rfl := onlyAttributes?_eq_some_iff.1 hv
    exact ⟨path, helement⟩
  · rintro ⟨path, helement⟩
    exact ⟨_, helement, onlyAttributes?_eq_some_iff.2 rfl⟩

/-- Such an element is known without the attribute `value`, up to that attribute. -/
theorem eq_of_blank_eq {v : Value} (h : blank v = blank (bareElement own)) :
    ∃ members, v = .object [(attributesGroup, .object members)] := by
  cases v with
  | object members =>
    rcases members with _ | ⟨⟨key, w⟩, _ | ⟨m, members⟩⟩
    · simp [bareElement, blank, blankMembers] at h
    · obtain ⟨rfl, hw⟩ : key = attributesGroup ∧
          (if key = attributesGroup then dropValue w else blank w) =
            dropValue (.object (attributeTexts own)) := by
        simpa [bareElement, blank, blankMembers] using h
      rw [if_pos rfl] at hw
      cases w with
      | object members => exact ⟨members, rfl⟩
      | _ => contradiction
    · simp [bareElement, blank, blankMembers] at h
  | array items => simp [bareElement, blank] at h
  | _ => contradiction

/-- The own attributes of the element are found with it. -/
theorem attribute?_of_element (h : node? tree .moduleInfo = some node) {path : List Step}
    {members : Entries String Value} (helement : attributeElement? tree id =
      some ⟨path, .object [(attributesGroup, .object members)]⟩) :
    attribute? node id = some ⟨path ++ [.key attributesGroup], .object members⟩ := by
  rw [attribute?_eq h, helement]
  simp [Place.member?, Value.get?, Entries.get?]

/-! ## Edits -/

/-- The attributes with an id that are found first are an attribute of the node in the tree. -/
theorem attribute?_spec (h : node? tree .moduleInfo = some node)
    (hp : attribute? node id = some p) :
    p ∈ attributePlaces node ∧ attributeId? p = some id ∧ tree.at? p.path = some p.value := by
  have hmem : p ∈ attributePlaces node := List.mem_of_find?_eq_some hp
  exact ⟨hmem, by simpa using List.find?_some hp,
    (attributePlaces_reached (reached_node? h) hmem).1⟩

/-- An edit leaves the element where it is. If it is one of its field, it writes the attribute
`value` of the element, and otherwise nothing in it. -/
theorem bare_set (h : Bare s.tree id own) (hset : s.set field value = .ok s') :
    Bare s'.tree id (if field.id = id then Entries.insert "value" value own else own) := by
  obtain ⟨path, helement⟩ := bare_iff.1 h
  obtain ⟨node, q, written, hnode, hwritten, hfind, rfl⟩ := set_eq_ok hset
  obtain ⟨hq, hqid, hqAt⟩ := attribute?_spec hnode hfind
  have hown := attribute?_of_element hnode helement
  obtain ⟨hmem, hid, hat⟩ := attribute?_spec hnode hown
  -- The element is found where it was, with nothing but attributes of its own.
  have hblank := congrArg (attributeElement? · id)
    (blank_replaceAt_attribute hnode hq hwritten (.string value))
  simp only [attributeElement?_blank, helement, Option.map_some, Option.map_eq_some_iff] at hblank
  obtain ⟨⟨path', v⟩, helement', hplace⟩ := hblank
  obtain ⟨rfl, hv⟩ : path' = path ∧ blank v = blank (bareElement own) := by
    simpa [Place.map] using hplace
  obtain ⟨members, rfl⟩ := eq_of_blank_eq hv
  obtain ⟨node', hnode', -⟩ := Option.bind_eq_some_iff.1 helement'
  obtain ⟨-, -, hnow⟩ := attribute?_spec hnode' (attribute?_of_element hnode' helement')
  -- What they are now is what stands at their path.
  suffices hmembers : members =
      attributeTexts (if field.id = id then Entries.insert "value" value own else own) by
    rw [hmembers] at helement'
    exact bare_iff.2 ⟨path', helement'⟩
  split_ifs with hfield
  · subst hfield
    obtain rfl := Option.some.inj (hfind.symm.trans hown)
    obtain rfl := Value.object.inj hwritten
    rw [Value.at?_replaceAt (Option.isSome_of_eq_some hat)] at hnow
    rw [attributeTexts, Entries.map_insert]
    exact (Value.object.inj (Option.some.inj hnow)).symm
  · have hne : q.path ≠ path' ++ [.key attributesGroup] := by
      intro hpath
      rw [hpath] at hqAt
      have hvalue : q.value = .object (attributeTexts own) :=
        Option.some.inj (hqAt.symm.trans hat)
      rw [attributeId?, hvalue] at hqid
      exact hfield (Option.some.inj (hqid.symm.trans hid))
    rw [at?_replaceAt_of_ne hne ((attributePlaces_paths node).2 q hq _ hmem)] at hnow
    exact Value.object.inj (Option.some.inj (hnow.symm.trans hat))

/-! ## The version -/

/-- The attributes of the element of the version, in the usual order. -/
def versionAttributes (value : String) : Entries String String :=
  [("id", "Version64"), ("type", "int64"), ("value", value)]

theorem bare_edit (h : Bare s.tree "Version64" (versionAttributes value)) (e : Edit) :
    ∃ value', Bare (s.edit e).tree "Version64" (versionAttributes value') := by
  rcases edit_cases s e with he | ⟨field, written, hset⟩
  · exact ⟨value, by rwa [he]⟩
  · have hedit := bare_set h hset
    split_ifs at hedit
    · exact ⟨written, hedit⟩
    · exact ⟨value, hedit⟩

/-- Edits leave the element of the version, up to its value. -/
theorem bare_run (h : Bare d.tree "Version64" (versionAttributes value)) (edits : List Edit) :
    ∃ value', Bare (d.run edits).tree "Version64" (versionAttributes value') := by
  induction edits generalizing d value with
  | nil => exact ⟨value, h⟩
  | cons e edits ih =>
    obtain ⟨value', hedit⟩ := bare_edit h e
    exact ih hedit

end LsxKit.Descriptor
