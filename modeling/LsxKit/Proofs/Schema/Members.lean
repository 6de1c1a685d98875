import LsxKit.Proofs.Entries
import LsxKit.Proofs.Schema.Satisfies
import LsxKit.Schema.Documents
import LsxKit.Tree.Place

/-!
# Members of values that satisfy a schema

What a value holds that satisfies a schema, for the keywords and for the parts of which the schemas
of documents are built.

* `member_of_satisfies`: a required member is there and satisfies its sub-schema.
* `element_of_satisfies`: an element of an array satisfies the schema at its place.
* `node_of_satisfies`, `childNodes_of_satisfies`, `nodeAttribute_of_satisfies`: nodes of
  descriptors, their children and their attributes.
* `attribute_of_moduleAttributes`: the attributes of the module.
-/

namespace LsxKit.Schema

open Json LsxKit.Tree

variable {limit : Bound → Number → Prop} {s sub : Schema} {v : Value}

/-! ## Keywords -/

theorem object_of_satisfies (htype : s.own.types = some (.single .object))
    (h : Satisfies limit s v) : ∃ members, v = .object members := by
  obtain ⟨t, ht, hholds⟩ := (meets_of_satisfies h).types _ htype
  obtain rfl := List.mem_singleton.1 ht
  exact hholds

theorem array_of_satisfies (htype : s.own.types = some (.single .array))
    (h : Satisfies limit s v) : ∃ elements, v = .array elements := by
  obtain ⟨t, ht, hholds⟩ := (meets_of_satisfies h).types _ htype
  obtain rfl := List.mem_singleton.1 ht
  exact hholds

/-- A member with a sub-schema satisfies it. -/
theorem property_of_satisfies {key : String} {w : Value} (hproperty : (key, sub) ∈ s.properties)
    (h : Satisfies limit s v) (hget : v.get? key = some w) : Satisfies limit sub w := by
  obtain ⟨own, properties, items, anyOf⟩ := s
  cases v with
  | object members => exact membersSatisfy_iff.1 h.2.1.1 _ hproperty w hget
  | _ => contradiction

/-- With a closed schema, only the members with a sub-schema are there. -/
theorem key_of_satisfies {key : String} {w : Value} (hclosed : s.own.additional = some false)
    (h : Satisfies limit s v) (hget : v.get? key = some w) : key ∈ s.properties.map Prod.fst := by
  obtain ⟨own, properties, items, anyOf⟩ := s
  cases v with
  | object members => exact h.2.1.2 hclosed key (List.mem_map_of_mem (Entries.mem_of_get? hget))
  | _ => contradiction

/-- A required member is there, and satisfies its sub-schema. -/
theorem member_of_satisfies (key : String) (sub : Schema)
    (htype : s.own.types = some (.single .object)) (hrequired : key ∈ s.own.required)
    (hproperty : (key, sub) ∈ s.properties) (h : Satisfies limit s v) :
    ∃ w, v.get? key = some w ∧ Satisfies limit sub w := by
  obtain ⟨members, rfl⟩ := object_of_satisfies htype h
  have hkey : key ∈ Entries.keys members := (meets_of_satisfies h).kind key hrequired
  have hget : Entries.get? key members ≠ none := by
    rw [ne_eq, Entries.get?_eq_none_iff, not_not]
    exact hkey
  obtain ⟨w, hw⟩ := Option.ne_none_iff_exists'.1 hget
  exact ⟨w, hw, property_of_satisfies hproperty h hw⟩

/-- An element with a schema at its place satisfies it. -/
theorem place_of_satisfies {ss : List Schema} {elements : List Value} {i : Nat} {w : Value}
    (hitems : s.items = .tuple ss) (h : Satisfies limit s (.array elements))
    (hsub : ss[i]? = some sub) (hget : elements[i]? = some w) : Satisfies limit sub w := by
  obtain ⟨own, properties, items, anyOf⟩ := s
  obtain rfl : items = .tuple ss := hitems
  exact tupleSatisfies_iff.1 h.2.1 i sub w hsub hget

/-- With one schema for all elements, each of them satisfies it. -/
theorem element_of_satisfies {elements : List Value} {w : Value} (hitems : s.items = .each sub)
    (h : Satisfies limit s (.array elements)) (hw : w ∈ elements) : Satisfies limit sub w := by
  obtain ⟨own, properties, items, anyOf⟩ := s
  obtain rfl : items = .each sub := hitems
  exact h.2.1 w hw

/-- A value satisfies one of the alternatives. -/
theorem alternative_of_satisfies (hne : s.anyOf ≠ []) (h : Satisfies limit s v) :
    ∃ t ∈ s.anyOf, Satisfies limit t v := by
  obtain ⟨own, properties, items, anyOf⟩ := s
  cases v <;> exact satisfiesSome_iff.1 (h.2.2 hne)

/-- Only the text itself equals a constant text. -/
theorem eq_of_satisfies_constantString {text : String}
    (h : Satisfies limit (constantString text) v) : v = .string text := by
  have hsame := (meets_of_satisfies h).constant (.string text) rfl
  cases v <;> simp_all [Value.same]

/-! ## Nodes of descriptors -/

/-- A node has its id. -/
theorem id?_of_satisfies {name : String} (htype : s.own.types = some (.single .object))
    (hrequired : attributesGroup ∈ s.own.required)
    (hproperty : (attributesGroup, idAttributes name) ∈ s.properties) (h : Satisfies limit s v)
    (path : List Step) : Place.id? ⟨path, v⟩ = some name := by
  obtain ⟨own, hown, hattributes⟩ := member_of_satisfies _ _ htype hrequired hproperty h
  obtain ⟨w, hid, hw⟩ := member_of_satisfies "id" (constantString name) rfl
    List.mem_cons_self List.mem_cons_self hattributes
  obtain rfl := eq_of_satisfies_constantString hw
  simp [Place.id?, hown, hid, Value.asString?]

/-- A closed node is no array, has its id and the member. -/
theorem node_of_satisfies {name key : String} (hkey : key ≠ attributesGroup)
    (h : Satisfies limit (nodeWith name key sub) v) :
    v.isArray = false ∧ (∀ path, Place.id? ⟨path, v⟩ = some name) ∧
      ∃ w, v.get? key = some w ∧ Satisfies limit sub w := by
  have hproperties : (nodeWith name key sub).properties =
      [(attributesGroup, idAttributes name), (key, sub)] := by
    show Entries.insert key sub [(attributesGroup, idAttributes name)] = _
    rw [Entries.insert_of_not_mem (by simpa using hkey)]
    rfl
  refine ⟨?_, id?_of_satisfies rfl List.mem_cons_self (by simp [hproperties]) h,
    member_of_satisfies key sub rfl (List.mem_cons_of_mem _ List.mem_cons_self)
      (by simp [hproperties]) h⟩
  obtain ⟨members, rfl⟩ := object_of_satisfies rfl h
  rfl

/-- The children of a node are the elements of the member `node`. -/
theorem childNodes_of_satisfies {nodes : Schema} (h : Satisfies limit (childNodes nodes) v) :
    ∃ w, v.get? "node" = some w ∧ Satisfies limit nodes w :=
  member_of_satisfies "node" nodes rfl List.mem_cons_self List.mem_cons_self h

theorem array_of_satisfies_tupleOf {ss : List Schema} (h : Satisfies limit (tupleOf ss) v) :
    ∃ elements, v = .array elements ∧ ∀ (i : Nat) t w, ss[i]? = some t → elements[i]? = some w →
      Satisfies limit t w := by
  obtain ⟨elements, rfl⟩ := array_of_satisfies rfl h
  exact ⟨elements, rfl, fun i t w => place_of_satisfies rfl h⟩

/-- Whether a value is an attribute of a node: it holds its group `own` and nothing else, and this
the id, the type and the value. -/
structure HoldsAttribute (v own : Value) (id type : String) (w : Value) : Prop where
  group : v.get? attributesGroup = some own
  only : ∀ key x, v.get? key = some x → key = attributesGroup
  id : own.get? "id" = some (.string id)
  type : own.get? "type" = some (.string type)
  value : own.get? "value" = some w
  keys : ∀ key x, own.get? key = some x → key ∈ ["id", "type", "value"]

/-- An attribute of a node has its id, its type and its value, and nothing else. -/
theorem nodeAttribute_of_satisfies {id type : String} {value : Schema}
    (h : Satisfies limit (nodeAttribute id type value) v) :
    ∃ own w, HoldsAttribute v own id type w ∧ Satisfies limit value w := by
  obtain ⟨own, hown, hexactly⟩ := member_of_satisfies attributesGroup
    (exactly [("id", constantString id), ("type", constantString type), ("value", value)]) rfl
    List.mem_cons_self List.mem_cons_self h
  have hproperties : (exactly [("id", constantString id), ("type", constantString type),
      ("value", value)]).properties =
        [("id", constantString id), ("type", constantString type), ("value", value)] := rfl
  have hrequired : (exactly [("id", constantString id), ("type", constantString type),
      ("value", value)]).own.required = ["id", "type", "value"] := rfl
  obtain ⟨i, hi, hid⟩ := member_of_satisfies "id" (constantString id) rfl
    (by simp [hrequired]) (by simp [hproperties]) hexactly
  obtain ⟨t, ht, htype⟩ := member_of_satisfies "type" (constantString type) rfl
    (by simp [hrequired]) (by simp [hproperties]) hexactly
  obtain ⟨w, hw, hvalue⟩ := member_of_satisfies "value" value rfl
    (by simp [hrequired]) (by simp [hproperties]) hexactly
  exact ⟨own, w, {
    group := hown
    only := fun key x hx => List.mem_singleton.1 (key_of_satisfies rfl h hx)
    id := by rw [hi, eq_of_satisfies_constantString hid]
    type := by rw [ht, eq_of_satisfies_constantString htype]
    value := hw
    keys := fun key x hx => key_of_satisfies rfl hexactly hx }, hvalue⟩

end LsxKit.Schema
