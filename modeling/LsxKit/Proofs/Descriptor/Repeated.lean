import LsxKit.Proofs.Descriptor.Clean
import LsxKit.Proofs.Json.Same
import LsxKit.Proofs.Tree.Regular

/-!
# Repeated attributes of the module

The schema asks for distinct entries in the list of attributes of the module, and compares them as a
whole. What may differ in two entries with one id is only the value: the type is known from the id.

* `expected`, `moduleAttributes_eq`: the type and the values that the schema asks for.
* `holdsAttribute_of_moduleAttributes`: what an entry that satisfies the schema holds.
* `same_of_holdsAttribute`: entries with one id and one value are equal.
* `entries_of_clean`: the entries of a descriptor without problems.
-/

namespace LsxKit.Descriptor

open Json LsxKit.Tree

variable {limit : Bound → Number → Prop} {v w : Value}

/-! ## What the schema expects -/

/-- The type of an attribute of the module, and the schema for its value. -/
def expected : ModuleField → String × Schema
  | .author | .description | .folder | .tags => ("LSWString", Schema.freeText)
  | .md5 => ("LSString", Schema.freeText)
  | .numPlayers => ("uint8", Schema.ofType .number)
  | .uuid => ("FixedString", Schema.uuidValue)
  | .version => ("int64", Schema.int64Value)
  | _ => ("FixedString", Schema.freeText)

theorem moduleAttributes_eq : Schema.moduleAttributes =
    ((Schema.ofType .array).unique).withItems (.each (Schema.any.withAnyOf (ModuleField.all.map
      fun f => Schema.nodeAttribute f.id (expected f).1 (expected f).2))) := rfl

/-- The value of an attribute is no object and no array. -/
theorem isScalar_of_expected {field : ModuleField} {value : Value}
    (h : Schema.Satisfies limit (expected field).2 value) : IsScalar value := by
  have htypes : ∃ ts, (expected field).2.own.types = some ts ∧
      ∀ t ∈ ts.types, t ≠ .object ∧ t ≠ .array := by
    cases field <;> exact ⟨_, rfl, by decide⟩
  obtain ⟨ts, hts, hscalar⟩ := htypes
  obtain ⟨t, ht, hholds⟩ := (Schema.meets_of_satisfies h).types ts hts
  obtain ⟨hobject, harray⟩ := hscalar t ht
  cases value with
  | object members => cases t <;> simp_all [JsonType.Holds]
  | array items => cases t <;> simp_all [JsonType.Holds]
  | _ => exact ⟨rfl, rfl⟩

/-! ## Entries -/

/-- Every entry of the list is an attribute with a known id, of the type that goes with it. -/
theorem holdsAttribute_of_moduleAttributes {elements : List Value}
    (h : Schema.Satisfies limit Schema.moduleAttributes (.array elements)) (hv : v ∈ elements) :
    ∃ own field value, Schema.HoldsAttribute v own (ModuleField.id field) (expected field).1 value ∧
      IsScalar value := by
  rw [moduleAttributes_eq] at h
  obtain ⟨t, ht, hattribute⟩ :=
    Schema.alternative_of_satisfies (by nofun) (Schema.element_of_satisfies rfl h hv)
  obtain ⟨field, -, rfl⟩ := List.mem_map.1 ht
  obtain ⟨own, value, hholds, hvalue⟩ := Schema.nodeAttribute_of_satisfies hattribute
  exact ⟨own, field, value, hholds, isScalar_of_expected hvalue⟩

/-- Objects with distinct keys are equal if they hold equal values under the same keys. -/
theorem same_of_get? {convert : Bool} (hv : Regular convert v) (hw : Regular convert w)
    (hobject : v.isObject = true) (hobject' : w.isObject = true)
    (h : ∀ key x, v.get? key = some x → ∃ y, w.get? key = some y ∧ x.same y = true)
    (h' : ∀ key y, w.get? key = some y → ∃ x, v.get? key = some x) : v.same w = true := by
  cases v with
  | object ms =>
    cases w with
    | object ns =>
      refine Value.same_object_of_get? hv.1 hw.1 (fun key hkey => ?_) h
      obtain ⟨n, hn, rfl⟩ := List.mem_map.1 hkey
      obtain ⟨x, hx⟩ := h' n.1 n.2 (Entries.get?_of_mem hw.1 hn)
      exact List.mem_map.2 ⟨(n.1, x), Entries.mem_of_get? hx, rfl⟩
    | _ => contradiction
  | _ => contradiction

theorem isObject_of_get? {key : String} (h : v.get? key = some w) : v.isObject = true := by
  cases v with
  | object members => rfl
  | _ => contradiction

theorem same_self_of_isScalar (h : IsScalar v) : v.same v = true := by
  obtain ⟨hobject, harray⟩ := h
  cases v with
  | object members => contradiction
  | array items => contradiction
  | _ => exact same_self _ trivial

/-- What the group of one of two attributes with the same id, type and value holds, that of the
other holds, too. -/
theorem exists_same_of_holdsAttribute {own own' x : Value} {id type key : String} {u : Value}
    (h : Schema.HoldsAttribute v own id type x) (h' : Schema.HoldsAttribute w own' id type x)
    (hx : IsScalar x) (hu : own.get? key = some u) :
    ∃ u', own'.get? key = some u' ∧ u.same u' = true := by
  have hkey := h.keys key u hu
  simp only [List.mem_cons, List.not_mem_nil, or_false] at hkey
  rcases hkey with rfl | rfl | rfl
  · obtain rfl := Option.some.inj (h.id.symm.trans hu)
    exact ⟨_, h'.id, same_self _ trivial⟩
  · obtain rfl := Option.some.inj (h.type.symm.trans hu)
    exact ⟨_, h'.type, same_self _ trivial⟩
  · obtain rfl := Option.some.inj (h.value.symm.trans hu)
    exact ⟨_, h'.value, same_self_of_isScalar hx⟩

/-- Attributes with the same id, type and text as value are equal, in whatever order they hold
these. -/
theorem same_of_holdsAttribute {convert : Bool} {own own' x y : Value} {id type : String}
    (h : Schema.HoldsAttribute v own id type x) (h' : Schema.HoldsAttribute w own' id type y)
    (hv : Regular convert v) (hw : Regular convert w) (hx : IsScalar x) (hy : IsScalar y)
    (hrender : Scalar.render x = Scalar.render y) : v.same w = true := by
  have hown := regular_get? hv h.group
  have hown' := regular_get? hw h'.group
  obtain rfl : x = y :=
    eq_of_render_eq (regular_get? hown h.value) (regular_get? hown' h'.value) hx hy hrender
  have hsame : own.same own' = true := by
    refine same_of_get? hown hown' (isObject_of_get? h.id) (isObject_of_get? h'.id)
      (fun key u hu => exists_same_of_holdsAttribute h h' hx hu) fun key u hu => ?_
    obtain ⟨u', hu', -⟩ := exists_same_of_holdsAttribute h' h hx hu
    exact ⟨u', hu'⟩
  refine same_of_get? hv hw (isObject_of_get? h.group) (isObject_of_get? h'.group) ?_ ?_
  · intro key u hu
    obtain rfl := h.only key u hu
    obtain rfl := Option.some.inj (h.group.symm.trans hu)
    exact ⟨own', h'.group, hsame⟩
  · intro key u hu
    obtain rfl := h'.only key u hu
    exact ⟨own, h.group⟩

/-! ## The list of attributes -/

/-- The group of an entry says which attribute it is, and its value. -/
theorem group_of_entry {entry p : Place} {own x : Value} {id type : String}
    (hentry : entry.value = plain v) (h : Schema.HoldsAttribute v own id type x) (hx : IsScalar x)
    (hp : entry.member? attributesGroup = some p) :
    attributeId? p = some id ∧ attributeValue p = Scalar.render x := by
  obtain ⟨u, hu, rfl⟩ := Option.map_eq_some_iff.1 hp
  rw [hentry, get?_plain, h.group, Option.map_some] at hu
  obtain rfl := Option.some.inj hu
  simp [attributeId?, attributeValue, get?_plain, h.id, h.value, plain, plain_of_isScalar hx,
    Scalar.render, Value.asString?]

theorem exists_group_of_entry {entry : Place} {own x : Value} {id type : String}
    (hentry : entry.value = plain v) (h : Schema.HoldsAttribute v own id type x) :
    ∃ p, entry.member? attributesGroup = some p := by
  rw [Place.member?, hentry, get?_plain, h.group]
  exact ⟨_, rfl⟩

theorem id_inj {field field' : ModuleField} (h : field.id = field'.id) : field = field' := by
  have hfound := ModuleField.ofId?_id field
  rw [h, ModuleField.ofId?_id] at hfound
  exact (Option.some.inj hfound).symm

/-- Whether no two entries have the same id and the same value. -/
def NoEntryTwice (node : Place) : Prop :=
  (attributePlaces node).Pairwise fun p q =>
    attributeId? p = attributeId? q → attributeValue p ≠ attributeValue q

/-- Two different elements of the list have different values if they have the same id. -/
theorem attributeValue_ne_of_not_same {convert : Bool} {elements : List Value}
    (h : Schema.Satisfies limit Schema.moduleAttributes (.array elements))
    (hregular : ∀ v ∈ elements, Regular convert v) (hv : v ∈ elements) (hw : w ∈ elements)
    (hvw : w.same v = false) {entry entry' p q : Place} (hentry : entry.value = plain v)
    (hentry' : entry'.value = plain w) (hp : entry.member? attributesGroup = some p)
    (hq : entry'.member? attributesGroup = some q) (hid : attributeId? p = attributeId? q) :
    attributeValue p ≠ attributeValue q := by
  intro hvalue
  obtain ⟨own, field, x, hholds, hx⟩ := holdsAttribute_of_moduleAttributes h hv
  obtain ⟨own', field', y, hholds', hy⟩ := holdsAttribute_of_moduleAttributes h hw
  obtain ⟨hpid, hpvalue⟩ := group_of_entry hentry hholds hx hp
  obtain ⟨hqid, hqvalue⟩ := group_of_entry hentry' hholds' hy hq
  obtain rfl : field = field' := id_inj (Option.some.inj (hpid.symm.trans (hid.trans hqid)))
  have hsame : w.same v = true := same_of_holdsAttribute hholds' hholds (hregular w hw)
    (hregular v hv) hy hx (by rw [← hqvalue, ← hvalue, hpvalue])
  exact Bool.false_ne_true (hvw.symm.trans hsame)

/-- The entries of a node that satisfies the schema. -/
theorem entries_of_satisfies {convert : Bool} {node : Place} (hnode : node.value = plain w)
    (hregular : Regular convert w) (h : Schema.Satisfies limit Schema.moduleNode w) :
    (∀ entry ∈ node.members "attribute", ∃ p field, entry.member? attributesGroup = some p ∧
      attributeId? p = some (ModuleField.id field)) ∧ NoEntryTwice node := by
  obtain ⟨attributes, hattributes, h⟩ := Schema.member_of_satisfies "attribute"
    Schema.moduleAttributes rfl (by decide) (List.mem_cons_of_mem _ List.mem_cons_self) h
  obtain ⟨elements, rfl⟩ := Schema.array_of_satisfies rfl h
  have hvalues := values_entries hnode hattributes
  have hregular' : ∀ v ∈ elements, Regular convert v := fun v hv =>
    (allRegular_iff.1 (regular_get? hregular hattributes) v hv).2
  constructor
  · intro entry hentry
    obtain ⟨v, hv, hvalue⟩ := List.mem_map.1 (hvalues ▸ List.mem_map_of_mem hentry)
    obtain ⟨own, field, x, hholds, hx⟩ := holdsAttribute_of_moduleAttributes h hv
    obtain ⟨p, hp⟩ := exists_group_of_entry hvalue.symm hholds
    exact ⟨p, field, hp, (group_of_entry hvalue.symm hholds hx hp).1⟩
  · -- entries are compared by their values alone, so those of which they are written out decide
    have hdistinct : elements.Pairwise fun v w => w.same v = false :=
      (Schema.meets_of_satisfies h).kind rfl
    have hpairs : (elements.map plain).Pairwise fun a b => ∀ entry entry' : Place,
        entry.value = a → entry'.value = b → ∀ p, entry.member? attributesGroup = some p →
        ∀ q, entry'.member? attributesGroup = some q →
          attributeId? p = attributeId? q → attributeValue p ≠ attributeValue q := by
      refine List.pairwise_map.2 (hdistinct.imp_of_mem fun {v w} hv hw hvw => ?_)
      intro entry entry' hentry hentry' p hp q hq
      exact attributeValue_ne_of_not_same h hregular' hv hw hvw hentry hentry' hp hq
    rw [← hvalues, List.pairwise_map] at hpairs
    refine List.pairwise_filterMap.2 (hpairs.imp fun hpair p hp q hq => ?_)
    exact hpair _ _ rfl rfl p hp q hq

/-! ## Descriptors without problems -/

/-- What is known of a field, and what is written for it, is the only attribute with its id. -/
theorem address_of_single {node p : Place} {field : ModuleField} (hmem : p ∈ attributePlaces node)
    (hid : attributeId? p = some field.id)
    (honly : ∀ q ∈ attributePlaces node, attributeId? q = some field.id → q = p) :
    lastValue? node field.id = some (attributeValue p) ∧ attribute? node field.id = some p := by
  have hfind : ∀ ps : List Place, (∀ q, q ∈ ps ↔ q ∈ attributePlaces node) →
      ps.find? (attributeId? · = some field.id) = some p := by
    intro ps hps
    have hsome : (ps.find? (attributeId? · = some field.id)).isSome := by
      rw [List.find?_isSome]
      exact ⟨p, (hps p).2 hmem, by simpa using hid⟩
    obtain ⟨q, hq⟩ := Option.isSome_iff_exists.1 hsome
    have hqid : attributeId? q = some field.id := by simpa using List.find?_some hq
    rw [hq, honly q ((hps q).1 (List.mem_of_find?_eq_some hq)) hqid]
  rw [lastValue?, attribute?, hfind _ fun _ => List.mem_reverse, hfind _ fun _ => Iff.rfl]
  exact ⟨rfl, rfl⟩

/-- In a descriptor without problems, every entry of the list of attributes of the module has a
known id, and no two entries have the same id and the same value. If there is a single entry with
the id of a field, its value is what is known of the field, and this entry is the one that is
changed. -/
theorem entries_of_clean {e : Engine} (he : Engine.descriptor = .ok e) {d : TextDocument}
    (hclean : e.problems d = []) :
    ∃ tree, Tree.parse .descriptor d.text = .ok tree ∧
      ∀ node, node? tree .moduleInfo = some node →
        (∀ entry ∈ node.members "attribute", ∃ p field,
          entry.member? attributesGroup = some p ∧
            attributeId? p = some (ModuleField.id field)) ∧
        NoEntryTwice node ∧
        ∀ m, Descriptor.parse d.text = .ok m → ∀ field p, p ∈ attributePlaces node →
          attributeId? p = some (ModuleField.id field) →
          (∀ q ∈ attributePlaces node, attributeId? q = some field.id → q = p) →
            m.get? field = some (attributeValue p) ∧ attribute? node field.id = some p := by
  obtain ⟨hvalidator, hoptions⟩ := Engine.descriptor_eq_ok he
  obtain ⟨-, tree, hparse, hsatisfies⟩ := Engine.satisfies_of_clean hvalidator hclean
  have htree : Tree.parse .descriptor d.text = .ok (plain tree) := by
    rw [← hoptions, parse_plain, hparse]
    rfl
  refine ⟨plain tree, htree, fun node hnode => ?_⟩
  obtain ⟨w, hat, hw, hmodule⟩ := (moduleNode_of_satisfies hsatisfies).2 node hnode
  have hregular : Regular e.options.convert w := regular_of_parse hparse (by decide) hat
  obtain ⟨hentries, hnoTwice⟩ := entries_of_satisfies hw hregular hmodule
  refine ⟨hentries, hnoTwice, fun m hm field p hmem hid honly => ?_⟩
  obtain ⟨hvalue, hchanged⟩ := address_of_single hmem hid honly
  obtain ⟨node', hnode', hget⟩ := get?_of_parse hm
  have hm' : m.tree = plain tree := Except.ok.inj ((parse_eq_ok hm).1.symm.trans htree)
  obtain rfl : node' = node := Option.some.inj (hnode'.symm.trans (hm' ▸ hnode))
  exact ⟨(hget field).trans hvalue, hchanged⟩

/-- A module with two names and one version. -/
def moduleWithNames : List String := [
  "<node id=\"ModuleInfo\"><attribute id=\"Name\" ", "type=\"FixedString\" value=\"a\"/>",
  "<attribute id=\"Name\" type=\"FixedString\" ", "value=\"b\"/>",
  "<attribute id=\"Version64\" type=\"int64\" ", "value=\"36028797018963968\"/><children>",
  "<node id=\"PublishVersion\"><attribute ", "id=\"Version64\" type=\"int64\" value=\"1\"/>",
  "</node></children></node>"]

/-- Two different names are no problem. -/
theorem exists_clean_names : ∃ e, Engine.descriptor = .ok e ∧
    e.problems ⟨"meta.lsx", "xml", 1, textWithNodes moduleWithNames⟩ = [] := by
  have hcheck : Xml.checkWellFormed (textWithNodes moduleWithNames) = .ok () := by
    simp only [Xml.checkWellFormed, textWithNodes, String.toList_ofList]
    decide +kernel
  have hchecked : (Schema.Validator.ofSchema Schema.descriptor).toOption.bind (fun validator =>
      (Tree.parse { Options.descriptor with convert := true }
        (textWithNodes moduleWithNames)).toOption.map fun tree =>
          (validator.violations tree).isEmpty) = some true := by
    simp only [Tree.parse, Xml.Document.read, textWithNodes, String.toList_ofList]
    decide +kernel
  obtain ⟨validator, hvalidator, -⟩ := Option.bind_eq_some_iff.1 hchecked
  have hvalidator := ok_of_toOption hvalidator
  exact ⟨engineOf validator, descriptor_engineOf hvalidator,
    Engine.clean_of_checked hvalidator hcheck hchecked⟩

/-- The ids of the entries. -/
theorem ids_names : ∃ m node, Descriptor.parse (textWithNodes moduleWithNames) = .ok m ∧
    node? m.tree .moduleInfo = some node ∧
      (attributePlaces node).map attributeId? = [some "Name", some "Name", some "Version64"] := by
  have hread : (Descriptor.parse (textWithNodes moduleWithNames)).toOption.bind (fun m =>
      (node? m.tree .moduleInfo).map fun node => (attributePlaces node).map attributeId?) =
        some [some "Name", some "Name", some "Version64"] := by
    simp only [Descriptor.parse, Tree.parse, Xml.Document.read, textWithNodes,
      String.toList_ofList]
    decide +kernel
  obtain ⟨m, hm, hnode⟩ := Option.bind_eq_some_iff.1 hread
  obtain ⟨node, hnode, hids⟩ := Option.map_eq_some_iff.1 hnode
  exact ⟨m, node, ok_of_toOption hm, hnode, hids⟩

/-- Of the names none is there twice, and the version is addressed by its only entry. -/
theorem entries_of_clean_names :
    ∃ e, Engine.descriptor = .ok e ∧
      e.problems ⟨"meta.lsx", "xml", 1, textWithNodes moduleWithNames⟩ = [] ∧
      ∃ m node, Descriptor.parse (textWithNodes moduleWithNames) = .ok m ∧
        node? m.tree .moduleInfo = some node ∧ NoEntryTwice node ∧
          ∃ p, m.get? .version = some (attributeValue p) ∧
            attribute? node "Version64" = some p := by
  obtain ⟨e, hengine, hclean⟩ := exists_clean_names
  obtain ⟨m, node, hm, hnode, hids⟩ := ids_names
  obtain ⟨tree, htree, hall⟩ := entries_of_clean hengine hclean
  obtain rfl : m.tree = tree := Except.ok.inj ((parse_eq_ok hm).1.symm.trans htree)
  obtain ⟨-, hnoTwice, haddress⟩ := hall node hnode
  obtain ⟨p, ps, hplaces, hp, hps⟩ := List.map_eq_cons_iff.1 hids
  obtain ⟨p', ps', rfl, hp', hps'⟩ := List.map_eq_cons_iff.1 hps
  obtain ⟨q, qs, rfl, hq, hqs⟩ := List.map_eq_cons_iff.1 hps'
  obtain rfl := List.map_eq_nil_iff.1 hqs
  have honly : ∀ r ∈ attributePlaces node,
      attributeId? r = some ModuleField.version.id → r = q := by
    intro r hr hrid
    rw [hplaces, List.mem_cons, List.mem_cons, List.mem_singleton] at hr
    rcases hr with rfl | rfl | rfl
    · exact absurd (hp.symm.trans hrid) (by decide)
    · exact absurd (hp'.symm.trans hrid) (by decide)
    · rfl
  exact ⟨e, hengine, hclean, m, node, hm, hnode, hnoTwice, q,
    haddress m hm .version q (by simp [hplaces]) hq honly⟩

/-- Ids may be repeated in a descriptor without problems. -/
theorem not_nodup_ids_of_clean :
    ¬ ∀ e, Engine.descriptor = .ok e → ∀ d, e.problems d = [] →
      ∀ tree, Tree.parse .descriptor d.text = .ok tree →
        ∀ node, node? tree .moduleInfo = some node →
          ((attributePlaces node).map attributeId?).Nodup := by
  intro hall
  obtain ⟨e, hengine, hclean⟩ := exists_clean_names
  obtain ⟨m, node, hm, hnode, hids⟩ := ids_names
  have hnodup := hall e hengine _ hclean m.tree (parse_eq_ok hm).1 node hnode
  rw [hids] at hnodup
  exact absurd hnodup (by decide)

end LsxKit.Descriptor
