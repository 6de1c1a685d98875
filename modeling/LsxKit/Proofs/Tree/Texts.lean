import LsxKit.Proofs.Tree.Change
import LsxKit.Proofs.Tree.Distinct
import LsxKit.Proofs.Tree.Elements

/-!
# The texts of trees

Trees whose scalars are all texts, and the same change made to each of these texts.

* `texts`, `mapText`: the texts of a tree, and a tree with a function applied to them.
* `same_mapText_iff`: the tree stays the same exactly if each text does.
* `KeepsShape`, `shapedDocument_mapText`: changes of texts that keep the shape of trees.
* `marks_mapText`: what is written for the changed tree.
-/

namespace LsxKit.Tree

open Json Xml

mutual

/-- The texts of a tree, keys apart. -/
def texts : Value → List String
  | .string s => [s]
  | .array items => itemTexts items
  | .object members => memberTexts members
  | _ => []
  termination_by structural v => v

/-- The texts of several trees. -/
def itemTexts : List Value → List String
  | [] => []
  | v :: vs => texts v ++ itemTexts vs
  termination_by structural vs => vs

/-- The texts of the values of members. -/
def memberTexts : List (String × Value) → List String
  | [] => []
  | (_, v) :: members => texts v ++ memberTexts members
  termination_by structural members => members

end

mutual

/-- A tree with a function applied to its texts. -/
def mapText (f : String → String) : Value → Value
  | .string s => .string (f s)
  | .array items => .array (mapItems f items)
  | .object members => .object (mapMembers f members)
  | v => v
  termination_by structural v => v

/-- Trees with a function applied to their texts. -/
def mapItems (f : String → String) : List Value → List Value
  | [] => []
  | v :: vs => mapText f v :: mapItems f vs
  termination_by structural vs => vs

/-- Members with a function applied to the texts of their values. -/
def mapMembers (f : String → String) : List (String × Value) → List (String × Value)
  | [] => []
  | (key, v) :: members => (key, mapText f v) :: mapMembers f members
  termination_by structural members => members

end

variable {f : String → String}

theorem mapItems_eq (vs : List Value) : mapItems f vs = vs.map (mapText f) := by
  induction vs with
  | nil => rfl
  | cons v vs ih => rw [mapItems, ih, List.map_cons]

theorem mapMembers_eq (members : List (String × Value)) :
    mapMembers f members = members.map fun m => (m.1, mapText f m.2) := by
  induction members with
  | nil => rfl
  | cons m members ih => rw [mapMembers, ih, List.map_cons]

theorem isArray_mapText (v : Value) : (mapText f v).isArray = v.isArray := by
  cases v <;> rfl

theorem get?_mapMembers (key : String) (members : Entries String Value) :
    Entries.get? key (mapMembers f members) = (Entries.get? key members).map (mapText f) := by
  induction members with
  | nil => rfl
  | cons m members ih =>
    obtain ⟨k, v⟩ := m
    rw [mapMembers, Entries.get?, Entries.get?, ih]
    split_ifs <;> rfl

theorem get?_mapText (key : String) (v : Value) :
    (mapText f v).get? key = (v.get? key).map (mapText f) := by
  cases v with
  | object members => exact get?_mapMembers key members
  | _ => rfl

mutual

/-- A function that keeps the texts of a tree keeps the tree. -/
theorem mapText_eq_self (v : Value) (h : ∀ s ∈ texts v, f s = s) : mapText f v = v := by
  match v with
  | .string s => rw [mapText, h s List.mem_cons_self]
  | .array items => rw [mapText, mapItems_eq_self items h]
  | .object members => rw [mapText, mapMembers_eq_self members h]
  | .null | .bool _ | .number _ => rfl
  termination_by structural v

theorem mapItems_eq_self (vs : List Value) (h : ∀ s ∈ itemTexts vs, f s = s) :
    mapItems f vs = vs := by
  match vs with
  | [] => rfl
  | v :: vs =>
    rw [itemTexts, List.forall_mem_append] at h
    rw [mapItems, mapText_eq_self v h.1, mapItems_eq_self vs h.2]
  termination_by structural vs

theorem mapMembers_eq_self (members : List (String × Value))
    (h : ∀ s ∈ memberTexts members, f s = s) : mapMembers f members = members := by
  match members with
  | [] => rfl
  | (key, v) :: members =>
    rw [memberTexts, List.forall_mem_append] at h
    rw [mapMembers, mapText_eq_self v h.1, mapMembers_eq_self members h.2]
  termination_by structural members

end

/-! ## Trees that stay the same -/

mutual

/-- If a tree stays the same when a function is applied to its texts, each text stays the same. -/
theorem texts_of_same (v : Value) (hv : Distinct v) (h : (mapText f v).same v = true) :
    ∀ s ∈ texts v, f s = s := by
  match v with
  | .string s =>
    simp only [texts, List.mem_singleton, forall_eq]
    simpa [mapText, Value.same] using h
  | .array items => exact itemTexts_of_same items hv h
  | .object members =>
    rw [mapText, Value.same, Bool.and_eq_true] at h
    exact memberTexts_of_same members members hv.1 (fun _ hm => hm) hv.2 h.2
  | .null | .bool _ | .number _ => simp [texts]
  termination_by structural v

theorem itemTexts_of_same (vs : List Value) (hvs : AllDistinct vs)
    (h : Value.sameItems (mapItems f vs) vs = true) : ∀ s ∈ itemTexts vs, f s = s := by
  match vs with
  | [] => simp [itemTexts]
  | v :: vs =>
    rw [mapItems, Value.sameItems, Bool.and_eq_true] at h
    rw [itemTexts, List.forall_mem_append]
    exact ⟨texts_of_same v hvs.1 h.1, itemTexts_of_same vs hvs.2 h.2⟩
  termination_by structural vs

/-- With distinct keys, a changed member can be equal only to itself. -/
theorem memberTexts_of_same (all : Entries String Value) (members : List (String × Value))
    (hnodup : (Entries.keys all).Nodup) (hsub : ∀ m ∈ members, m ∈ all)
    (hmembers : MembersDistinct members)
    (h : Value.sameMembers (mapMembers f members) all = true) :
    ∀ s ∈ memberTexts members, f s = s := by
  match members with
  | [] => simp [memberTexts]
  | (key, v) :: members =>
    rw [List.forall_mem_cons] at hsub
    rw [mapMembers, Value.sameMembers, Entries.get?_of_mem hnodup hsub.1, Bool.and_eq_true] at h
    rw [memberTexts, List.forall_mem_append]
    exact ⟨texts_of_same v hmembers.1 h.1,
      memberTexts_of_same all members hnodup hsub.2 hmembers.2 h.2⟩
  termination_by structural members

end

/-- A tree stays the same exactly if each of its texts does. -/
theorem same_mapText_iff {v : Value} (hv : Distinct v) :
    (mapText f v).same v = true ↔ ∀ s ∈ texts v, f s = s := by
  refine ⟨texts_of_same v hv, fun h => ?_⟩
  rw [mapText_eq_self v h]
  exact same_self v hv

variable {o : Options} {path : String}

/-! ## The shape of changed trees -/

/-- What a function on texts must keep: whether a text is empty, that it has no blanks at its
ends, and that nothing in it would end a value of a declaration. -/
structure KeepsShape (f : String → String) : Prop where
  empty : ∀ s, f s = "" ↔ s = ""
  trimmed : ∀ s : String, Text.Trimmed Text.isBlank s.toList →
    Text.Trimmed Text.isBlank (f s).toList
  mem : ∀ s : String, ∀ c ∈ ['"', '>'], c ∈ (f s).toList → c ∈ s.toList

/-- A declaration with a function applied to its values. -/
def mapDeclaration (f : String → String) (d : Declaration) : Declaration :=
  ⟨f d.version, d.encoding.map f, d.standalone.map f⟩

theorem counted_mapText {tag inner : String} {v : Value} (h : Counted o tag inner v) :
    Counted o tag inner (mapText f v) := by
  cases v with
  | array items =>
    rw [mapText, mapItems_eq]
    refine ⟨?_, ?_⟩
    · rw [ne_eq, List.map_eq_nil_iff]
      exact h.1
    · rw [List.length_map]
      exact h.2
  | _ => exact h

theorem mapText_ofText (hconvert : o.convert = false) (s : String) :
    mapText f (Scalar.ofText o.convert s) = Scalar.ofText o.convert (f s) := by
  rw [hconvert]
  rfl

theorem attributesShaped_mapText (hconvert : o.convert = false) {v : Value}
    (h : AttributesShaped o v) : AttributesShaped o (mapText f v) := by
  obtain ⟨own, rfl, hnil, hnodup, hvalues⟩ := h
  rw [mapText, mapMembers_eq]
  refine ⟨_, rfl, ?_, ?_, fun a ha => ?_⟩
  · rw [ne_eq, List.map_eq_nil_iff]
    exact hnil
  · rwa [Entries.keys, List.map_map]
  · obtain ⟨b, hb, rfl⟩ := List.mem_map.1 ha
    obtain ⟨hgood, s, hs⟩ := hvalues b hb
    exact ⟨hgood, f s, by rw [hs, mapText_ofText hconvert]⟩

theorem mapText_declarationValue (hconvert : o.convert = false) (d : Declaration) :
    mapText f (declarationValue o d) = declarationValue o (mapDeclaration f d) := by
  obtain ⟨version, encoding, standalone⟩ := d
  cases hgroup : o.group <;> cases encoding <;> cases standalone <;>
    simp [declarationValue, declarationMembers, mapDeclaration, hgroup, mapText, mapMembers,
      mapText_ofText hconvert]

theorem declarationWritable_map (hf : KeepsShape f) {d : Declaration}
    (h : DeclarationWritable d) : DeclarationWritable (mapDeclaration f d) := by
  have hkeep : ∀ s : String, '"' ∉ s.toList ∧ '>' ∉ s.toList →
      '"' ∉ (f s).toList ∧ '>' ∉ (f s).toList := fun s hs =>
    ⟨fun hmem => hs.1 (hf.mem s _ (by simp) hmem), fun hmem => hs.2 (hf.mem s _ (by simp) hmem)⟩
  obtain ⟨version, encoding, standalone⟩ := d
  intro v hv
  simp only [mapDeclaration, List.cons_append, List.mem_cons, List.mem_append, Option.mem_toList,
    Option.map_eq_some_iff] at hv
  rcases hv with rfl | ⟨s, rfl, rfl⟩ | ⟨s, rfl, rfl⟩
  · exact hkeep version (h version (by simp))
  · exact hkeep s (h s (by simp))
  · exact hkeep s (h s (by simp))

variable {group : String}

mutual

/-- The tree of an element stays in shape. -/
theorem shaped_mapText (hg : o.group = some group) (hconvert : o.convert = false)
    (hf : KeepsShape f) (path : String) (v : Value) (h : Shaped o path v) :
    Shaped o path (mapText f v) := by
  match v with
  | .array items => exact allShaped_mapText hg hconvert hf path items h
  | .object members =>
    have hmembers := membersShaped_mapText hg hconvert hf path members h.2.2.2
    rw [mapText, mapMembers_eq] at *
    refine shaped_map hg (fun _ => rfl) h fun m hm => ?_
    exact membersShaped_iff.1 hmembers _ (List.mem_map_of_mem hm)
  | .string s =>
    obtain ⟨s', hs, htrimmed⟩ := h
    rw [hconvert] at hs
    obtain rfl : s = s' := by simpa [Scalar.ofText] using hs
    have hshaped : Shaped o path (Scalar.ofText o.convert (f s)) :=
      shaped_ofText (hf.trimmed s htrimmed)
    rwa [hconvert] at hshaped
  | .null | .bool _ | .number _ => exact h
  termination_by structural v

theorem allShaped_mapText (hg : o.group = some group) (hconvert : o.convert = false)
    (hf : KeepsShape f) (path : String) (vs : List Value) (h : AllShaped o path vs) :
    AllShaped o path (mapItems f vs) := by
  match vs with
  | [] => trivial
  | v :: vs =>
    exact ⟨⟨(isArray_mapText v).trans h.1.1, shaped_mapText hg hconvert hf path v h.1.2⟩,
      allShaped_mapText hg hconvert hf path vs h.2⟩
  termination_by structural vs

theorem membersShaped_mapText (hg : o.group = some group) (hconvert : o.convert = false)
    (hf : KeepsShape f) (path : String) (members : List (String × Value))
    (h : MembersShaped o path members) : MembersShaped o path (mapMembers f members) := by
  match members with
  | [] => trivial
  | (key, v) :: members =>
    obtain ⟨hm, hmembers⟩ := h
    refine ⟨?_, membersShaped_mapText hg hconvert hf path members hmembers⟩
    unfold MemberShaped at hm ⊢
    rw [role_congr hg key (mapText f v) v]
    cases hrole : role o key v with
    | child =>
      rw [hrole] at hm
      exact ⟨hm.1, counted_mapText hm.2.1, shaped_mapText hg hconvert hf _ v hm.2.2⟩
    | group =>
      rw [hrole] at hm
      exact attributesShaped_mapText hconvert hm
    | text =>
      rw [hrole] at hm
      obtain ⟨s, hs, hnil, htrimmed⟩ := hm
      obtain rfl : v = _ := hs
      exact ⟨f s, mapText_ofText hconvert s, fun h => hnil ((hf.empty s).1 h),
        hf.trimmed s htrimmed⟩
    | _ =>
      rw [hrole] at hm
      obtain ⟨hgood, s, hs⟩ := hm
      obtain rfl : v = _ := hs
      exact ⟨hgood, f s, mapText_ofText hconvert s⟩
  termination_by structural members

end

/-- The tree of a document stays in shape. -/
theorem shapedDocument_mapText (hg : o.group = some group) (hconvert : o.convert = false)
    (hf : KeepsShape f) {tree : Value} (h : ShapedDocument o tree) :
    ShapedDocument o (mapText f tree) := by
  obtain ⟨members, rfl, hnodup, hmembers⟩ := h
  rw [mapText, mapMembers_eq]
  refine ⟨_, rfl, ?_, fun m hm => ?_⟩
  · rwa [Entries.keys, List.map_map]
  · obtain ⟨⟨key, v⟩, hmem, rfl⟩ := List.mem_map.1 hm
    have hroot := hmembers _ hmem
    unfold RootShaped at hroot ⊢
    split_ifs at hroot ⊢
    · obtain ⟨hkeep, d, hd, hwritable⟩ := hroot
      obtain rfl : v = _ := hd
      exact ⟨hkeep, mapDeclaration f d, mapText_declarationValue hconvert d,
        declarationWritable_map hf hwritable⟩
    · exact ⟨hroot.1, counted_mapText hroot.2.1, shaped_mapText hg hconvert hf key v hroot.2.2⟩

/-! ## Marks of changed trees -/

/-- A mark with a function applied to its texts. -/
def mapMark (f : String → String) : Mark → Mark
  | .declaration version encoding standalone =>
    .declaration (f version) (encoding.map f) (standalone.map f)
  | .start name attributes => .start name (attributes.map fun a => (a.1, f a.2))
  | .empty name attributes => .empty name (attributes.map fun a => (a.1, f a.2))
  | .close name => .close name
  | .text s => .text (f s)

theorem render_mapText (hconvert : o.convert = false) {v : Value}
    (h : ∃ s, v = Scalar.ofText o.convert s) :
    Scalar.render (mapText f v) = f (Scalar.render v) := by
  obtain ⟨s, rfl⟩ := h
  rw [mapText_ofText hconvert, Scalar.render_ofText, Scalar.render_ofText]

theorem groupAttributes_mapText (hconvert : o.convert = false) {v : Value}
    (h : AttributesShaped o v) :
    groupAttributes (mapText f v) = (groupAttributes v).map fun a => (a.1, f a.2) := by
  obtain ⟨own, rfl, -, -, hvalues⟩ := h
  rw [mapText, mapMembers_eq, groupAttributes_object, groupAttributes_object, List.map_map,
    List.map_map]
  refine List.map_congr_left fun a ha => ?_
  simp only [Function.comp_apply, render_mapText hconvert (hvalues a ha).2]

theorem attributesOf_mapText (hg : o.group = some group) (hconvert : o.convert = false)
    {members : List (String × Value)} (h : MembersShaped o path members) :
    attributesOf o (mapMembers f members) =
      (attributesOf o members).map fun a => (a.1, f a.2) := by
  induction members with
  | nil => rfl
  | cons m members ih =>
    obtain ⟨key, v⟩ := m
    obtain ⟨hm, hmembers⟩ := h
    unfold MemberShaped at hm
    rw [mapMembers, attributesOf, attributesOf, role_congr hg key (mapText f v) v, ih hmembers]
    cases hrole : role o key v with
    | group =>
      rw [hrole] at hm
      simp only [groupAttributes_mapText hconvert hm, List.map_append]
    | text => rfl
    | child => rfl
    | _ =>
      rw [hrole] at hm
      simp only [render_mapText hconvert hm.2, List.map_cons]

theorem memberText_mapText (hconvert : o.convert = false) (hf : KeepsShape f)
    {members : List (String × Value)} (h : MembersShaped o path members) :
    memberText (mapMembers f members) = f (memberText members) := by
  unfold memberText
  rw [get?_mapMembers]
  cases hget : Entries.get? textKey members with
  | none => exact ((hf.empty "").2 rfl).symm
  | some v =>
    have hm := membersShaped_iff.1 h _ (Entries.mem_of_get? hget)
    rw [MemberShaped, role_textKey] at hm
    obtain ⟨s, hs, -⟩ := hm
    simpa using render_mapText hconvert ⟨s, hs⟩

theorem elementMarks_map (hf : KeepsShape f) (tag : String) (attributes : List (String × String))
    (text : String) (noChildren : Bool) (children : List Mark) :
    elementMarks tag (attributes.map fun a => (a.1, f a.2)) (f text) noChildren
        (children.map (mapMark f)) =
      (elementMarks tag attributes text noChildren children).map (mapMark f) := by
  unfold elementMarks
  simp only [hf.empty]
  split_ifs <;> simp [mapMark]

mutual

/-- The marks of a changed value under a tag. -/
theorem valueMarks_mapText (hg : o.group = some group) (hconvert : o.convert = false)
    (hf : KeepsShape f) (tag path : String) (v : Value) (h : Shaped o path v) :
    valueMarks o tag (mapText f v) = (valueMarks o tag v).map (List.map (mapMark f)) := by
  match v with
  | .array items => exact itemMarks_mapText hg hconvert hf tag path items h
  | .object members =>
    have hmembers := h.2.2.2
    have hmapped := membersShaped_mapText hg hconvert hf path members hmembers
    have hall : (mapMembers f members).all (fun (key, v) => role o key v ≠ .child) =
        members.all fun (key, v) => role o key v ≠ .child := by
      rw [mapMembers_eq, List.all_map]
      refine congrArg members.all (funext fun m => ?_)
      simp only [Function.comp_apply, role_congr hg m.1 (mapText f m.2) m.2]
    rw [mapText, valueMarks, valueMarks, memberAttributes_eq hmapped, memberAttributes_eq hmembers,
      attributesOf_mapText hg hconvert hmembers, memberText_mapText hconvert hf hmembers, hall,
      childMarks_mapText hg hconvert hf path members hmembers, childMarks_eq path members hmembers]
    simp only [bind, Except.bind, pure, Except.pure, Except.map, elementMarks_map hf]
  | .string s =>
    exact congrArg Except.ok (elementMarks_map hf tag [] s true [])
  | .null | .bool _ | .number _ =>
    obtain ⟨s, hs, -⟩ := h
    rw [hconvert] at hs
    contradiction
  termination_by structural v

theorem itemMarks_mapText (hg : o.group = some group) (hconvert : o.convert = false)
    (hf : KeepsShape f) (tag path : String) (vs : List Value) (h : AllShaped o path vs) :
    itemMarks o tag (mapItems f vs) = (itemMarks o tag vs).map (List.map (mapMark f)) := by
  match vs with
  | [] => rfl
  | v :: vs =>
    obtain ⟨⟨harray, hv⟩, hvs⟩ := h
    rw [mapItems, itemMarks, itemMarks, isArray_mapText, harray,
      valueMarks_mapText hg hconvert hf tag path v hv,
      itemMarks_mapText hg hconvert hf tag path vs hvs, valueMarks_eq tag path v hv,
      itemMarks_eq tag path vs hvs]
    simp [bind, Except.bind, pure, Except.pure, Except.map]
  termination_by structural vs

theorem childMarks_mapText (hg : o.group = some group) (hconvert : o.convert = false)
    (hf : KeepsShape f) (path : String) (members : List (String × Value))
    (h : MembersShaped o path members) :
    childMarks o (mapMembers f members) = (childMarks o members).map (List.map (mapMark f)) := by
  match members with
  | [] => rfl
  | (key, v) :: members =>
    obtain ⟨hm, hmembers⟩ := h
    rw [mapMembers, childMarks, childMarks, childMarks_mapText hg hconvert hf path members hmembers,
      role_congr hg key (mapText f v) v, childMarks_eq path members hmembers]
    by_cases hrole : role o key v = .child
    · unfold MemberShaped at hm
      rw [hrole] at hm
      rw [if_pos hrole, if_pos hrole, valueMarks_mapText hg hconvert hf key _ v hm.2.2,
        valueMarks_eq key _ v hm.2.2]
      simp [bind, Except.bind, pure, Except.pure, Except.map]
    · rw [if_neg hrole, if_neg hrole]
      simp [bind, Except.bind, pure, Except.pure, Except.map]
  termination_by structural members

end

theorem declarationMark_eq (v : Value) :
    declarationMark o v = .declaration (declarationOf o v).version (declarationOf o v).encoding
      (declarationOf o v).standalone := rfl

/-- What is written for a changed tree of a document. -/
theorem marks_mapText (hg : o.group = some group) (hconvert : o.convert = false)
    (hf : KeepsShape f) {tree : Value} (h : ShapedDocument o tree) :
    marks o (mapText f tree) = (marks o tree).map (List.map (mapMark f)) := by
  obtain ⟨members, rfl, -, hmembers⟩ := h
  rw [mapText, marks, marks]
  induction members with
  | nil => rfl
  | cons m members ih =>
    obtain ⟨key, v⟩ := m
    have hroot := hmembers _ List.mem_cons_self
    have hrest := fun m hm => hmembers m (List.mem_cons_of_mem _ hm)
    unfold RootShaped at hroot
    rw [mapMembers, documentMarks, documentMarks, ih hrest, documentMarks_eq hrest]
    split_ifs at hroot ⊢
    · obtain ⟨-, d, hd, -⟩ := hroot
      obtain rfl : v = _ := hd
      rw [mapText_declarationValue hconvert, declarationMark_eq, declarationMark_eq,
        declarationOf_declarationValue, declarationOf_declarationValue]
      simp [bind, Except.bind, pure, Except.pure, Except.map, mapMark, mapDeclaration]
    · rw [valueMarks_mapText hg hconvert hf key key v hroot.2.2, valueMarks_eq key key v hroot.2.2]
      simp [bind, Except.bind, pure, Except.pure, Except.map]

end LsxKit.Tree
