import LsxKit.Proofs.Tree.Shape

/-!
# The elements that a tree stands for

What is written for a tree are the marks of elements.

* `elementsOf`, `rootsOf`: the elements of a value under a tag, and the roots of a document.
* `valueMarks_eq`, `marks_eq`: their marks are what is written.
* `writable_elementsOf`, `writable_rootsOf`: they can be read back.
-/

namespace LsxKit.Tree

open Json Xml

/-! ## Elements -/

/-- The attributes of a group; none of a value that is no group. -/
def groupAttributes : Value → List (String × String)
  | .object own => own.map fun (k, v) => (k, Scalar.render v)
  | _ => []

/-- The attributes among the members of an element. -/
def attributesOf (o : Options) : List (String × Value) → List (String × String)
  | [] => []
  | (key, v) :: members =>
    match role o key v with
    | .group => groupAttributes v ++ attributesOf o members
    | .attribute => (key, Scalar.render v) :: attributesOf o members
    | .text | .child => attributesOf o members

mutual

/-- The elements that a value under a tag stands for. -/
def elementsOf (o : Options) (tag : String) : Value → List Element
  | .array items => itemElements o tag items
  | .object members =>
    [.mk tag (attributesOf o members) (memberText members) (childElements o members)]
  | v => [.mk tag [] (Scalar.render v) []]
  termination_by structural v => v

/-- The elements that values under a tag stand for. -/
def itemElements (o : Options) (tag : String) : List Value → List Element
  | [] => []
  | v :: vs => elementsOf o tag v ++ itemElements o tag vs
  termination_by structural vs => vs

/-- The elements that the children among the members of an element stand for. -/
def childElements (o : Options) : List (String × Value) → List Element
  | [] => []
  | (key, v) :: members =>
    (if role o key v = .child then elementsOf o key v else []) ++ childElements o members
  termination_by structural members => members

end

variable {o : Options} {path tag : String}

/-! ## Marks -/

theorem memberAttributes_eq {members : List (String × Value)}
    (h : MembersShaped o path members) :
    memberAttributes o tag members = .ok (attributesOf o members) := by
  induction members with
  | nil => rfl
  | cons m members ih =>
    obtain ⟨key, v⟩ := m
    obtain ⟨hm, hmembers⟩ := h
    have ih := ih hmembers
    unfold MemberShaped at hm
    cases hrole : role o key v with
    | group =>
      rw [hrole] at hm
      obtain ⟨own, rfl, -⟩ := hm
      simp [memberAttributes, attributesOf, groupAttributes, hrole, ih, bind, Except.bind, pure,
        Except.pure]
    | _ => simp [memberAttributes, attributesOf, hrole, ih, bind, Except.bind, pure, Except.pure]

theorem elementsOf_ne_nil_of_single {v : Value} (h : v.isArray = false) :
    elementsOf o tag v ≠ [] := by
  cases v with
  | array items => contradiction
  | _ => simp [elementsOf]

/-- A value under a tag stands for at least one element. -/
theorem elementsOf_ne_nil {v : Value} (hcounted : Counted o tag path v) (h : Shaped o path v) :
    elementsOf o tag v ≠ [] := by
  cases v with
  | array items =>
    obtain ⟨v, vs, rfl⟩ := List.exists_cons_of_ne_nil hcounted.1
    rw [elementsOf, itemElements]
    intro hnil
    exact elementsOf_ne_nil_of_single h.1.1 (List.append_eq_nil_iff.1 hnil).1
  | _ => exact elementsOf_ne_nil_of_single rfl

/-- An element is written as having no children exactly if it has none. -/
theorem all_not_child_iff {members : List (String × Value)} (h : MembersShaped o path members) :
    (members.all fun (key, v) => role o key v ≠ .child) = true ↔ childElements o members = [] := by
  induction members with
  | nil => simp [childElements]
  | cons m members ih =>
    obtain ⟨key, v⟩ := m
    obtain ⟨hm, hmembers⟩ := h
    rw [List.all_cons, Bool.and_eq_true, ih hmembers, childElements, List.append_eq_nil_iff]
    refine and_congr_left fun _ => ?_
    by_cases hrole : role o key v = .child
    · unfold MemberShaped at hm
      rw [hrole] at hm
      simp [hrole, elementsOf_ne_nil hm.2.1 hm.2.2]
    · simp [hrole]

theorem elementMarks_eq (attributes : List (String × String)) (text : String)
    (children : List Element) (noChildren : Bool)
    (h : noChildren = true ↔ children = []) :
    elementMarks tag attributes text noChildren (marksOf children) =
      (Element.mk tag attributes text children).marks := by
  unfold elementMarks Element.marks
  by_cases htext : text = "" <;> by_cases hchildren : children = [] <;>
    simp_all [textMarks]

mutual

/-- The marks of a value under a tag are those of its elements. -/
theorem valueMarks_eq (tag path : String) (v : Value) (h : Shaped o path v) :
    valueMarks o tag v = .ok (marksOf (elementsOf o tag v)) := by
  match v with
  | .array items => exact itemMarks_eq tag path items h
  | .object members =>
    obtain ⟨-, -, -, hmembers⟩ := h
    rw [valueMarks, memberAttributes_eq hmembers, childMarks_eq path members hmembers]
    simp only [bind, Except.bind, pure, Except.pure, elementsOf, marksOf, List.append_nil]
    rw [elementMarks_eq _ _ _ _ (all_not_child_iff hmembers)]
  | .null | .bool _ | .number _ | .string _ =>
    simp only [valueMarks, elementsOf, marksOf, List.append_nil]
    rw [← elementMarks_eq _ _ [] true (by simp)]
    rfl
  termination_by structural v

/-- So are those of values under a tag. -/
theorem itemMarks_eq (tag path : String) (vs : List Value) (h : AllShaped o path vs) :
    itemMarks o tag vs = .ok (marksOf (itemElements o tag vs)) := by
  match vs with
  | [] => rfl
  | v :: vs =>
    obtain ⟨⟨harray, hv⟩, hvs⟩ := h
    rw [itemMarks, valueMarks_eq tag path v hv, itemMarks_eq tag path vs hvs, itemElements,
      marksOf_append]
    simp [harray, bind, Except.bind, pure, Except.pure]
  termination_by structural vs

/-- So are those of the children among members. -/
theorem childMarks_eq (path : String) (members : List (String × Value))
    (h : MembersShaped o path members) :
    childMarks o members = .ok (marksOf (childElements o members)) := by
  match members with
  | [] => rfl
  | (key, v) :: members =>
    obtain ⟨hm, hmembers⟩ := h
    rw [childMarks, childMarks_eq path members hmembers, childElements, marksOf_append]
    by_cases hrole : role o key v = .child
    · unfold MemberShaped at hm
      rw [hrole] at hm
      rw [if_pos hrole, if_pos hrole, valueMarks_eq key _ v hm.2.2]
      rfl
    · rw [if_neg hrole, if_neg hrole]
      rfl
  termination_by structural members

end

/-! ## Names, attributes and text -/

theorem groupAttributes_object (own : Entries String Value) :
    groupAttributes (.object own) = own.map fun a => (a.1, Scalar.render a.2) := rfl

theorem role_ne_group (hg : o.group = none) (key : String) (v : Value) :
    role o key v ≠ .group := by
  simp only [role, hg, Option.isNone_none, Bool.true_and]
  split_ifs <;> simp_all

/-- Without a group, the attributes are the first members, as text. -/
theorem attributesOf_none (hg : o.group = none) (members : List (String × Value)) :
    attributesOf o members =
      (members.filter (isLeading o)).map fun m => (m.1, Scalar.render m.2) := by
  induction members with
  | nil => rfl
  | cons m members ih =>
    obtain ⟨key, v⟩ := m
    have hrole := role_ne_group hg key v
    rw [attributesOf, List.filter_cons, ih]
    cases h : role o key v with
    | group => contradiction
    | _ => simp [isLeading, h]

theorem isLeading_iff {group : String} (hg : o.group = some group) (hne : group ≠ textKey)
    (m : String × Value) : isLeading o m = decide (m.1 = group) := by
  unfold isLeading
  by_cases hkey : m.1 = group
  · rw [hkey, role_group hg hne]
    simp
  · have hgroup : ¬ group = m.1 := fun h => hkey h.symm
    have hrole : role o m.1 m.2 = .text ∨ role o m.1 m.2 = .child := by
      simp only [role, hg, Option.some.injEq, hgroup, if_false, Option.isNone_some,
        Bool.false_and, Bool.false_eq_true]
      split_ifs <;> simp
    rcases hrole with h | h <;> simp [h, hkey]

/-- With a group, it is the only one of the first members. -/
theorem attributesOf_some {group : String} (hg : o.group = some group) (hne : group ≠ textKey)
    {members : Entries String Value} (hnodup : (Entries.keys members).Nodup) :
    attributesOf o members = ((Entries.get? group members).map groupAttributes).getD [] := by
  induction members with
  | nil => rfl
  | cons m members ih =>
    obtain ⟨key, v⟩ := m
    rw [Entries.keys_cons, List.nodup_cons] at hnodup
    have hleading := isLeading_iff hg hne (key, v)
    rw [attributesOf, Entries.get?, ih hnodup.2]
    by_cases hkey : key = group
    · subst hkey
      rw [role_group hg hne, (Entries.get?_eq_none_iff _ _).2 hnodup.1]
      simp
    · rw [if_neg hkey]
      cases hrole : role o key v with
      | text => rfl
      | child => rfl
      | _ => simp [isLeading, hrole, hkey] at hleading

/-- The attributes of the tree of an element can be written. -/
theorem attributesGood_attributesOf (hgroup : o.group ≠ some textKey)
    {members : Entries String Value} (hnodup : (Entries.keys members).Nodup)
    (h : MembersShaped o path members) : AttributesGood o.Good (attributesOf o members) := by
  rw [membersShaped_iff] at h
  cases hg : o.group with
  | none =>
    rw [attributesOf_none hg]
    constructor
    · intro a ha
      obtain ⟨m, hm, rfl⟩ := List.mem_map.1 ha
      obtain ⟨hmem, hleading⟩ := List.mem_filter.1 hm
      have hrole : role o m.1 m.2 = .attribute := by
        simpa [isLeading, role_ne_group hg] using hleading
      have hshaped := h m hmem
      rw [MemberShaped, hrole] at hshaped
      exact hshaped.1
    · rw [List.map_map]
      exact hnodup.sublist (List.filter_sublist.map _)
  | some group =>
    rw [attributesOf_some hg (fun he => hgroup (by rw [hg, he])) hnodup]
    cases hget : Entries.get? group members with
    | none => exact ⟨by simp, by simp⟩
    | some v =>
      have hshaped := h _ (Entries.mem_of_get? hget)
      rw [MemberShaped, role_group hg fun he => hgroup (by rw [hg, he])] at hshaped
      obtain ⟨own, hown, -, hkeys, hvalues⟩ := hshaped
      obtain rfl : v = _ := hown
      rw [Option.map_some, Option.getD_some, groupAttributes_object]
      constructor
      · intro a ha
        obtain ⟨b, hb, rfl⟩ := List.mem_map.1 ha
        exact (hvalues b hb).1
      · rw [List.map_map]
        exact hkeys

/-- The text of the tree of an element has no blanks at its ends. -/
theorem trimmed_memberText {members : List (String × Value)} (h : MembersShaped o path members) :
    Text.Trimmed Text.isBlank (memberText members).toList := by
  unfold memberText
  cases hget : Entries.get? textKey members with
  | none => simp
  | some v =>
    have hm := membersShaped_iff.1 h _ (Entries.mem_of_get? hget)
    rw [MemberShaped, role_textKey] at hm
    obtain ⟨s, hs, -, htrimmed⟩ := hm
    obtain rfl : v = _ := hs
    simpa [Scalar.render_ofText] using htrimmed

theorem attributesNamed_of_good {attributes : List (String × String)}
    (h : AttributesGood o.Good attributes) : AttributesNamed attributes :=
  ⟨fun a ha => (h.1 a ha).1, h.2⟩

mutual

/-- The elements of a value under a tag can be read back. -/
theorem writable_elementsOf (hgroup : o.group ≠ some textKey) (tag path : String)
    (htag : isName tag = true) (v : Value) (h : Shaped o path v) :
    AllWritable (elementsOf o tag v) := by
  match v with
  | .array items => exact writable_itemElements hgroup tag path htag items h
  | .object members =>
    obtain ⟨hnodup, -, -, hmembers⟩ := h
    have hattributes := attributesGood_attributesOf hgroup hnodup hmembers
    exact ⟨⟨htag, attributesNamed_of_good hattributes, trimmed_memberText hmembers,
      writable_childElements hgroup path members hmembers⟩, trivial⟩
  | .null | .bool _ | .number _ | .string _ =>
    obtain ⟨s, hs, htrimmed⟩ := h
    refine ⟨⟨htag, ⟨by simp, by simp⟩, ?_, trivial⟩, trivial⟩
    rw [hs, Scalar.render_ofText]
    exact htrimmed
  termination_by structural v

/-- So can those of values under a tag. -/
theorem writable_itemElements (hgroup : o.group ≠ some textKey) (tag path : String)
    (htag : isName tag = true) (vs : List Value) (h : AllShaped o path vs) :
    AllWritable (itemElements o tag vs) := by
  match vs with
  | [] => trivial
  | v :: vs =>
    obtain ⟨⟨-, hv⟩, hvs⟩ := h
    rw [itemElements, allWritable_append]
    exact ⟨writable_elementsOf hgroup tag path htag v hv,
      writable_itemElements hgroup tag path htag vs hvs⟩
  termination_by structural vs

/-- So can those of the children among members. -/
theorem writable_childElements (hgroup : o.group ≠ some textKey) (path : String)
    (members : List (String × Value)) (h : MembersShaped o path members) :
    AllWritable (childElements o members) := by
  match members with
  | [] => trivial
  | (key, v) :: members =>
    obtain ⟨hm, hmembers⟩ := h
    rw [childElements, allWritable_append]
    refine ⟨?_, writable_childElements hgroup path members hmembers⟩
    by_cases hrole : role o key v = .child
    · unfold MemberShaped at hm
      rw [hrole] at hm
      rw [if_pos hrole]
      exact writable_elementsOf hgroup key _ hm.1.1 v hm.2.2
    · rw [if_neg hrole]
      trivial
  termination_by structural members

end

/-! ## Documents -/

/-- The declaration that a member of a document stands for. -/
def declarationOf (o : Options) (v : Value) : Declaration where
  version := (declared? o v "version").getD "1.0"
  encoding := declared? o v "encoding"
  standalone := declared? o v "standalone"

/-- The roots that a member of a document stands for. -/
def memberRoots (o : Options) (m : String × Value) : List Root :=
  if m.1 = declarationKey then [.declaration (declarationOf o m.2)]
  else (elementsOf o m.1 m.2).map .element

/-- The roots that the tree of a document stands for. -/
def rootsOf (o : Options) : Value → List Root
  | .object members => members.flatMap (memberRoots o)
  | _ => []

/-- A declaration is read from its tree as it was. -/
theorem declarationOf_declarationValue (d : Declaration) :
    declarationOf o (declarationValue o d) = d := by
  obtain ⟨version, encoding, standalone⟩ := d
  have hstring : ∀ s, Scalar.render (.string s) = s := fun _ => rfl
  cases hg : o.group <;> cases encoding <;> cases standalone <;>
    simp [declarationOf, declared?, declarationValue, declarationMembers, hg, Value.get?,
      Entries.get?, Scalar.render_ofText, hstring]

theorem flatMap_marks_elements (es : List Element) :
    (es.map Root.element).flatMap Root.marks = marksOf es := by
  induction es with
  | nil => rfl
  | cons e es ih =>
    rw [List.map_cons, List.flatMap_cons, ih]
    rfl

theorem documentMarks_eq {members : List (String × Value)} (h : ∀ m ∈ members, RootShaped o m) :
    documentMarks o members = .ok ((members.flatMap (memberRoots o)).flatMap Root.marks) := by
  induction members with
  | nil => rfl
  | cons m members ih =>
    obtain ⟨key, v⟩ := m
    have hm := h _ List.mem_cons_self
    rw [documentMarks, ih fun m hm => h m (List.mem_cons_of_mem _ hm), List.flatMap_cons,
      List.flatMap_append]
    by_cases hkey : key = declarationKey
    · simp [hkey, memberRoots, Root.marks, declarationMark, declarationOf, bind, Except.bind, pure,
        Except.pure]
    · rw [RootShaped, if_neg hkey] at hm
      rw [if_neg hkey, memberRoots, if_neg hkey, flatMap_marks_elements,
        valueMarks_eq key key v hm.2.2]
      rfl

/-- What is written for the tree of a document are the marks of its roots. -/
theorem marks_eq {tree : Value} (h : ShapedDocument o tree) :
    marks o tree = .ok ((rootsOf o tree).flatMap Root.marks) := by
  obtain ⟨members, rfl, -, hmembers⟩ := h
  exact documentMarks_eq hmembers

/-- The roots of the tree of a document can be read back. -/
theorem writable_rootsOf (hgroup : o.group ≠ some textKey) {tree : Value}
    (h : ShapedDocument o tree) :
    (∀ r ∈ rootsOf o tree, r.Writable) ∧
      (o.ignoreDeclaration = false ∨ ∀ r ∈ rootsOf o tree, ∃ e, r = .element e) := by
  obtain ⟨members, rfl, -, hmembers⟩ := h
  have hroot : ∀ m ∈ members, ∀ r ∈ memberRoots o m,
      r.Writable ∧ (o.ignoreDeclaration = false ∨ ∃ e, r = .element e) := by
    intro m hm r hr
    have hshaped := hmembers m hm
    unfold RootShaped at hshaped
    unfold memberRoots at hr
    split_ifs at hshaped hr
    · obtain ⟨hkeep, d, hd, hwritable⟩ := hshaped
      rw [List.mem_singleton] at hr
      subst hr
      rw [hd, declarationOf_declarationValue]
      exact ⟨hwritable, .inl hkeep⟩
    · obtain ⟨e, he, rfl⟩ := List.mem_map.1 hr
      have helements := writable_elementsOf hgroup m.1 m.1 hshaped.1.1 m.2 hshaped.2.2
      exact ⟨allWritable_iff.1 helements e he, .inr ⟨e, rfl⟩⟩
  constructor
  · intro r hr
    obtain ⟨m, hm, hr⟩ := List.mem_flatMap.1 hr
    exact (hroot m hm r hr).1
  · cases hkeep : o.ignoreDeclaration with
    | false => exact .inl rfl
    | true =>
      refine .inr fun r hr => ?_
      obtain ⟨m, hm, hr⟩ := List.mem_flatMap.1 hr
      exact (hroot m hm r hr).2.resolve_left (by simp [hkeep])

end LsxKit.Tree
