import LsxKit.Proofs.Entries
import LsxKit.Proofs.Xml.Names
import LsxKit.Tree.Read
import LsxKit.Tree.Write

/-!
# The shape of trees

What the tree of a document looks like when all names in the document are ordinary and none is
that of the attribute group.

* `Shaped`: the trees of elements; `ShapedDocument`: those of documents.
* `shaped_elementValue`, `childrenShaped_addContent`: reading an element gives such a tree.
* `shaped_parse`: so does reading a text.
-/

namespace LsxKit.Tree

open Json Xml

/-! ## Shapes -/

/-- The names that elements and attributes may have. -/
def Options.Good (o : Options) (name : String) : Prop := isName name = true ∧ o.group ≠ some name

/-- Whether elements of a tag are in an array only if there are several or it is asked for. -/
def Counted (o : Options) (tag path : String) : Value → Prop
  | .array items => items ≠ [] ∧ (items.length = 1 → o.alwaysArray tag path = true)
  | _ => o.alwaysArray tag path = false

/-- Whether a value is a group of attributes. -/
def AttributesShaped (o : Options) (v : Value) : Prop :=
  ∃ own, v = .object own ∧ own ≠ [] ∧ (Entries.keys own).Nodup ∧
    ∀ a ∈ own, o.Good a.1 ∧ ∃ s, a.2 = Scalar.ofText o.convert s

/-- Whether a member is an attribute or the group of attributes. -/
def isLeading (o : Options) (m : String × Value) : Bool :=
  role o m.1 m.2 = .group || role o m.1 m.2 = .attribute

/-- Whether a member is a child. -/
def isChild (o : Options) (m : String × Value) : Bool := role o m.1 m.2 = .child

/-- Whether a member is the text. -/
def isText (o : Options) (m : String × Value) : Bool := role o m.1 m.2 = .text

/-- Members in the order in which they are read: attributes, children, text. -/
def arranged (o : Options) (members : List (String × Value)) : List (String × Value) :=
  members.filter (isLeading o) ++ (members.filter (isChild o) ++ members.filter (isText o))

/-- Whether a member of an element at a dotted path is what its role asks for; `inner` says that a
child has the shape of a tree. -/
def MemberShaped (o : Options) (path : String) (m : String × Value) (inner : Prop) : Prop :=
  match role o m.1 m.2 with
  | .text => ∃ s, m.2 = Scalar.ofText o.convert s ∧ s ≠ "" ∧ Text.Trimmed Text.isBlank s.toList
  | .group => AttributesShaped o m.2
  | .attribute => o.Good m.1 ∧ ∃ s, m.2 = Scalar.ofText o.convert s
  | .child => o.Good m.1 ∧ Counted o m.1 (path ++ "." ++ m.1) m.2 ∧ inner

mutual

/-- Whether a value is the tree of an element at a dotted path, or an array of such trees. With a
group for attributes, members are in the order in which they are read. -/
def Shaped (o : Options) (path : String) : Value → Prop
  | .array items => AllShaped o path items
  | .object members =>
    (Entries.keys members).Nodup ∧ (∃ m ∈ members, role o m.1 m.2 ≠ .text) ∧
      (o.group.isSome = true → members = arranged o members) ∧ MembersShaped o path members
  | v => ∃ s, v = Scalar.ofText o.convert s ∧ Text.Trimmed Text.isBlank s.toList
  termination_by structural v => v

/-- Whether all values are trees of elements at a dotted path, none of them an array. -/
def AllShaped (o : Options) (path : String) : List Value → Prop
  | [] => True
  | v :: vs => (v.isArray = false ∧ Shaped o path v) ∧ AllShaped o path vs
  termination_by structural vs => vs

/-- Whether all members of an element at a dotted path are what their roles ask for. -/
def MembersShaped (o : Options) (path : String) : List (String × Value) → Prop
  | [] => True
  | (key, v) :: members =>
    MemberShaped o path (key, v) (Shaped o (path ++ "." ++ key) v) ∧
      MembersShaped o path members
  termination_by structural members => members

end

variable {o : Options} {path : String}

theorem allShaped_iff {vs : List Value} :
    AllShaped o path vs ↔ ∀ v ∈ vs, v.isArray = false ∧ Shaped o path v := by
  induction vs with
  | nil => simp [AllShaped]
  | cons v vs ih => simp [AllShaped, ih]

theorem membersShaped_iff {members : List (String × Value)} :
    MembersShaped o path members ↔
      ∀ m ∈ members, MemberShaped o path m (Shaped o (path ++ "." ++ m.1) m.2) := by
  induction members with
  | nil => simp [MembersShaped]
  | cons m members ih =>
    obtain ⟨key, v⟩ := m
    rw [MembersShaped, ih, List.forall_mem_cons]

/-- Whether a member of a document is a declaration or the tree of root elements. -/
def RootShaped (o : Options) (m : String × Value) : Prop :=
  if m.1 = declarationKey then
    o.ignoreDeclaration = false ∧ ∃ d, m.2 = declarationValue o d ∧ DeclarationWritable d
  else o.Good m.1 ∧ Counted o m.1 m.1 m.2 ∧ Shaped o m.1 m.2

/-- Whether members are those of a document, each tag once. -/
def RootsShaped (o : Options) (members : Entries String Value) : Prop :=
  (Entries.keys members).Nodup ∧ ∀ m ∈ members, RootShaped o m

/-- Whether a value is the tree of a document. -/
def ShapedDocument (o : Options) (tree : Value) : Prop :=
  ∃ members, tree = .object members ∧ RootsShaped o members

/-! ## Scalars -/

theorem isObject_ofText (convert : Bool) (s : String) :
    (Scalar.ofText convert s).isObject = false := by
  unfold Scalar.ofText Scalar.converted?
  split_ifs
  · rfl
  · rfl
  · cases Scalar.number? s <;> rfl
  · rfl

theorem isArray_ofText (convert : Bool) (s : String) :
    (Scalar.ofText convert s).isArray = false := by
  unfold Scalar.ofText Scalar.converted?
  split_ifs
  · rfl
  · rfl
  · cases Scalar.number? s <;> rfl
  · rfl

/-- A tree that is no object and no array is the value of a text. -/
theorem ofText_of_shaped {v : Value} (h : Shaped o path v) (hobject : v.isObject = false)
    (harray : v.isArray = false) :
    ∃ s, v = Scalar.ofText o.convert s ∧ Text.Trimmed Text.isBlank s.toList := by
  cases v with
  | array items => contradiction
  | object members => contradiction
  | _ => exact h

theorem shaped_ofText {s : String} (hs : Text.Trimmed Text.isBlank s.toList) :
    Shaped o path (Scalar.ofText o.convert s) := by
  have hobject := isObject_ofText o.convert s
  have harray := isArray_ofText o.convert s
  generalize hv : Scalar.ofText o.convert s = v at *
  cases v with
  | array items => contradiction
  | object members => contradiction
  | _ => exact ⟨s, hv.symm, hs⟩

/-! ## Children -/

/-- Whether members are children of an element at a dotted path, each tag once. -/
def ChildrenShaped (o : Options) (path : String) (members : Entries String Value) : Prop :=
  (Entries.keys members).Nodup ∧ ∀ m ∈ members, o.Good m.1 ∧
    Counted o m.1 (path ++ "." ++ m.1) m.2 ∧ Shaped o (path ++ "." ++ m.1) m.2

theorem mem_addChild {members : Entries String Value} {tag : String} {value : Value}
    (hold : ∀ v, (tag, v) ∈ members → Counted o tag path v ∧ Shaped o path v)
    (hvalue : Shaped o path value) (harray : value.isArray = false) :
    ∀ m ∈ addChild members tag value (o.alwaysArray tag path),
      m ∈ members ∨ m.1 = tag ∧ Counted o tag path m.2 ∧ Shaped o path m.2 := by
  intro m hm
  rw [addChild, Entries.alter_eq_insert] at hm
  rcases Entries.mem_insert hm with rfl | hm
  · refine .inr ⟨rfl, ?_⟩
    cases hget : Entries.get? tag members with
    | none =>
      simp only
      split_ifs with hforced
      · exact ⟨⟨by simp, fun _ => hforced⟩, ⟨harray, hvalue⟩, trivial⟩
      · refine ⟨?_, hvalue⟩
        rw [Bool.not_eq_true] at hforced
        cases value with
        | array items => contradiction
        | _ => exact hforced
    | some v =>
      obtain ⟨hcounted, hshaped⟩ := hold v (Entries.mem_of_get? hget)
      cases v with
      | array items =>
        refine ⟨⟨by simp, ?_⟩, ?_⟩
        · intro hlength
          have := List.length_pos_iff.2 hcounted.1
          simp only [List.length_append, List.length_singleton] at hlength
          omega
        · rw [Shaped, allShaped_iff] at hshaped ⊢
          intro v hv
          rcases List.mem_append.1 hv with hv | hv
          · exact hshaped v hv
          · rw [List.mem_singleton.1 hv]
            exact ⟨harray, hvalue⟩
      | _ => exact ⟨⟨by simp, by simp⟩, ⟨rfl, hshaped⟩, ⟨harray, hvalue⟩, trivial⟩
  · exact .inl hm

theorem childrenShaped_addChild {members : Entries String Value} {tag : String} {value : Value}
    (h : ChildrenShaped o path members) (htag : o.Good tag)
    (hvalue : Shaped o (path ++ "." ++ tag) value) (harray : value.isArray = false) :
    ChildrenShaped o path
      (addChild members tag value (o.alwaysArray tag (path ++ "." ++ tag))) := by
  constructor
  · rw [addChild, Entries.alter_eq_insert]
    exact Entries.nodup_keys_insert _ _ h.1
  · intro m hm
    have hold : ∀ v, (tag, v) ∈ members → Counted o tag (path ++ "." ++ tag) v ∧
        Shaped o (path ++ "." ++ tag) v := fun v hv => (h.2 _ hv).2
    rcases mem_addChild hold hvalue harray m hm with hm | ⟨rfl, hm⟩
    · exact h.2 m hm
    · exact ⟨htag, hm⟩

/-! ## Roles -/

theorem role_textKey (v : Value) : role o textKey v = .text := by simp [role]

theorem ne_textKey_of_good {name : String} (h : o.Good name) : name ≠ textKey := by
  rintro rfl
  exact absurd h.1 (by decide)

theorem role_of_some {group : String} (hgroup : o.group = some group) {name : String}
    (h : o.Good name) (v : Value) : role o name v = .child := by
  have hne : group ≠ name := by
    rintro rfl
    exact h.2 hgroup
  simp [role, ne_textKey_of_good h, hgroup, hne]

theorem role_of_none (hgroup : o.group = none) {name : String} (h : o.Good name) (v : Value) :
    role o name v = if v.isObject || v.isArray then .child else .attribute := by
  simp only [role, ne_textKey_of_good h, hgroup, if_false]
  cases v.isObject || v.isArray <;> simp

theorem role_group {group : String} (hgroup : o.group = some group) (hne : group ≠ textKey)
    (v : Value) : role o group v = .group := by
  simp [role, hne, hgroup]

/-! ## Elements -/

/-- A child keeps to its role, whether it is written as one or as an attribute. -/
theorem memberShaped_child {m : String × Value} (hgood : o.Good m.1)
    (hcounted : Counted o m.1 (path ++ "." ++ m.1) m.2)
    (hshaped : Shaped o (path ++ "." ++ m.1) m.2) :
    MemberShaped o path m (Shaped o (path ++ "." ++ m.1) m.2) := by
  cases hgroup : o.group with
  | some group =>
    rw [MemberShaped, role_of_some hgroup hgood]
    exact ⟨hgood, hcounted, hshaped⟩
  | none =>
    rw [MemberShaped, role_of_none hgroup hgood]
    by_cases hinner : (m.2.isObject || m.2.isArray) = true
    · rw [if_pos hinner]
      exact ⟨hgood, hcounted, hshaped⟩
    · rw [if_neg hinner]
      rw [Bool.or_eq_true, not_or, Bool.not_eq_true, Bool.not_eq_true] at hinner
      obtain ⟨s, hs, -⟩ := ofText_of_shaped hshaped hinner.1 hinner.2
      exact ⟨hgood, s, hs⟩

/-- The attributes that an element is read with. -/
def attributeValues (o : Options) (attributes : List (String × String)) : Entries String Value :=
  Entries.extend [] (attributes.map fun (k, v) => (k, Scalar.ofText o.convert v))

theorem attributeValues_shaped {attributes : List (String × String)}
    (h : AttributesGood o.Good attributes) :
    (Entries.keys (attributeValues o attributes)).Nodup ∧
      ∀ a ∈ attributeValues o attributes, o.Good a.1 ∧ ∃ s, a.2 = Scalar.ofText o.convert s := by
  refine ⟨Entries.nodup_keys_extend (by simp) _, ?_⟩
  intro a ha
  rcases Entries.mem_extend ha with ha | ha
  · contradiction
  · obtain ⟨⟨k, s⟩, hmem, rfl⟩ := List.mem_map.1 ha
    have hgood : o.Good k := h.1 (k, s) hmem
    exact ⟨hgood, s, rfl⟩

theorem attributeValues_ne_nil {attributes : List (String × String)} (h : attributes ≠ []) :
    attributeValues o attributes ≠ [] := by
  obtain ⟨a, as, rfl⟩ := List.exists_cons_of_ne_nil h
  intro hnil
  have hmem : a.1 ∈ Entries.keys (attributeValues o (a :: as)) := by
    rw [attributeValues, Entries.mem_keys_extend]
    exact .inr (by simp)
  rw [hnil] at hmem
  contradiction

/-- The members that come first in the tree of an element with the given attributes. -/
def leadingMembers (o : Options) (attributes : List (String × String)) : Entries String Value :=
  if attributes.isEmpty then [] else attributeMembers o attributes

theorem leadingMembers_ne_nil {attributes : List (String × String)} (h : attributes ≠ []) :
    leadingMembers o attributes ≠ [] := by
  have hempty : attributes.isEmpty = false := by simpa using h
  rw [leadingMembers, hempty, attributeMembers]
  cases o.group with
  | some group => simp
  | none => exact attributeValues_ne_nil h

/-- The first members are attributes or their group. -/
theorem leadingMembers_shaped (path : String) (hgroup : o.group ≠ some textKey)
    {attributes : List (String × String)} (h : AttributesGood o.Good attributes) (inner : Prop) :
    (Entries.keys (leadingMembers o attributes)).Nodup ∧
      ∀ m ∈ leadingMembers o attributes, isLeading o m = true ∧ MemberShaped o path m inner := by
  obtain ⟨hnodup, hvalues⟩ := attributeValues_shaped h
  by_cases hempty : attributes.isEmpty
  · simp [leadingMembers, hempty]
  · rw [leadingMembers, if_neg hempty, attributeMembers]
    cases hg : o.group with
    | some group =>
      have hrole : ∀ v, role o group v = .group :=
        role_group hg fun he => hgroup (by rw [hg, he])
      refine ⟨by simp, ?_⟩
      simp only [List.mem_singleton, forall_eq]
      refine ⟨by simp [isLeading, hrole], ?_⟩
      rw [MemberShaped, hrole]
      exact ⟨_, rfl, attributeValues_ne_nil (by simpa using hempty), hnodup, hvalues⟩
    | none =>
      refine ⟨hnodup, fun m hm => ?_⟩
      obtain ⟨hgood, s, hs⟩ := hvalues m hm
      have hrole : role o m.1 m.2 = .attribute := by
        rw [role_of_none hg hgood, hs, isObject_ofText, isArray_ofText]
        rfl
      refine ⟨by simp [isLeading, hrole], ?_⟩
      rw [MemberShaped, hrole]
      exact ⟨hgood, s, hs⟩

theorem role_ne_text_of_leading {m : String × Value} (h : isLeading o m = true) :
    role o m.1 m.2 ≠ .text := by
  intro hrole
  simp [isLeading, hrole] at h

/-- The members of an element before its text. -/
theorem elementMembers_eq {attributes : List (String × String)} {children : Entries String Value}
    (hchildren : (Entries.keys children).Nodup) :
    (if attributes.isEmpty then children
      else Entries.extend (attributeMembers o attributes) children) =
        Entries.extend (leadingMembers o attributes) children := by
  unfold leadingMembers
  split_ifs with hempty
  · exact (Entries.extend_of_nodup [] hchildren).symm
  · rfl

/-- With a group, the attributes come before the children. -/
theorem extend_leadingMembers {group : String} (hg : o.group = some group)
    {attributes : List (String × String)} {children : Entries String Value}
    (hchildren : ChildrenShaped o path children) :
    Entries.extend (leadingMembers o attributes) children =
      leadingMembers o attributes ++ children := by
  apply Entries.extend_of_nodup
  rw [leadingMembers, attributeMembers, hg]
  split_ifs
  · exact hchildren.1
  · rw [Entries.keys_append, Entries.keys_cons, Entries.keys_nil, List.singleton_append,
      List.nodup_cons]
    refine ⟨fun hmem => ?_, hchildren.1⟩
    obtain ⟨m, hm, hk⟩ := List.mem_map.1 hmem
    exact (hchildren.2 m hm).1.2 (by rw [hg, hk])

/-- Every member belongs to one of the three classes, and to no other. -/
theorem classes (o : Options) (m : String × Value) :
    (isLeading o m = true ∧ isChild o m = false ∧ isText o m = false) ∨
      (isLeading o m = false ∧ isChild o m = true ∧ isText o m = false) ∨
        (isLeading o m = false ∧ isChild o m = false ∧ isText o m = true) := by
  unfold isLeading isChild isText
  cases role o m.1 m.2 <;> decide

theorem arranged_append {a b c : List (String × Value)} (ha : ∀ m ∈ a, isLeading o m = true)
    (hb : ∀ m ∈ b, isChild o m = true) (hc : ∀ m ∈ c, isText o m = true) :
    arranged o (a ++ (b ++ c)) = a ++ (b ++ c) := by
  have hleading : ∀ m, isLeading o m = true → isChild o m = false ∧ isText o m = false := by
    intro m hm
    rcases classes o m with h | h | h <;> simp_all
  have hchild : ∀ m, isChild o m = true → isLeading o m = false ∧ isText o m = false := by
    intro m hm
    rcases classes o m with h | h | h <;> simp_all
  have htext : ∀ m, isText o m = true → isLeading o m = false ∧ isChild o m = false := by
    intro m hm
    rcases classes o m with h | h | h <;> simp_all
  have hself : ∀ (l : List (String × Value)) (q : String × Value → Bool), (∀ m ∈ l, q m = true) →
      l.filter q = l := fun l q h => List.filter_eq_self.2 h
  have hnil : ∀ (l : List (String × Value)) (q : String × Value → Bool), (∀ m ∈ l, q m = false) →
      l.filter q = [] := by
    intro l q h
    rw [List.filter_eq_nil_iff]
    intro m hm
    simp [h m hm]
  simp only [arranged, List.filter_append]
  rw [hself a _ ha, hnil b (isLeading o) fun m hm => (hchild m (hb m hm)).1,
    hnil c (isLeading o) fun m hm => (htext m (hc m hm)).1,
    hnil a (isChild o) fun m hm => (hleading m (ha m hm)).1, hself b _ hb,
    hnil c (isChild o) fun m hm => (htext m (hc m hm)).2,
    hnil a (isText o) fun m hm => (hleading m (ha m hm)).2,
    hnil b (isText o) fun m hm => (hchild m (hb m hm)).2, hself c _ hc]
  simp

theorem role_ne_text_of_good {name : String} (h : o.Good name) (v : Value) :
    role o name v ≠ .text := by
  cases hg : o.group with
  | some group => simp [role_of_some hg h]
  | none =>
    rw [role_of_none hg h]
    split_ifs <;> simp

/-- Attributes and children side by side are members of the tree of an element. -/
theorem extend_shaped (hgroup : o.group ≠ some textKey) {attributes : List (String × String)}
    (hattributes : AttributesGood o.Good attributes) {children : Entries String Value}
    (hchildren : ChildrenShaped o path children) :
    (Entries.keys (Entries.extend (leadingMembers o attributes) children)).Nodup ∧
      ∀ m ∈ Entries.extend (leadingMembers o attributes) children, role o m.1 m.2 ≠ .text ∧
        MemberShaped o path m (Shaped o (path ++ "." ++ m.1) m.2) := by
  have hleading := leadingMembers_shaped path hgroup hattributes
  refine ⟨Entries.nodup_keys_extend (hleading True).1 _, ?_⟩
  intro m hm
  rcases Entries.mem_extend hm with hm | hm
  · have hmember := (hleading (Shaped o (path ++ "." ++ m.1) m.2)).2 m hm
    exact ⟨role_ne_text_of_leading hmember.1, hmember.2⟩
  · obtain ⟨hgood, hcounted, hshaped⟩ := hchildren.2 m hm
    exact ⟨role_ne_text_of_good hgood m.2, memberShaped_child hgood hcounted hshaped⟩

theorem exists_mem_extend {attributes : List (String × String)} {children : Entries String Value}
    (h : attributes ≠ [] ∨ children ≠ []) :
    ∃ m, m ∈ Entries.extend (leadingMembers o attributes) children := by
  have hkey : ∃ k, k ∈ Entries.keys (leadingMembers o attributes) ∨
      k ∈ Entries.keys children := by
    rcases h with h | h
    · obtain ⟨m, ms, hm⟩ := List.exists_cons_of_ne_nil (leadingMembers_ne_nil (o := o) h)
      exact ⟨m.1, .inl (by simp [hm])⟩
    · obtain ⟨m, ms, rfl⟩ := List.exists_cons_of_ne_nil h
      exact ⟨m.1, .inr (by simp)⟩
  obtain ⟨k, hk⟩ := hkey
  obtain ⟨m, hm, -⟩ := List.mem_map.1 (Entries.mem_keys_extend.2 hk)
  exact ⟨m, hm⟩

/-- The member of a text: none if it is empty. -/
def textMembers (o : Options) (text : String) : Entries String Value :=
  if text = "" then [] else [(textKey, Scalar.ofText o.convert text)]

/-- The text comes last in the tree of an element. -/
theorem insert_text {members : Entries String Value} (h : textKey ∉ Entries.keys members)
    (text : String) :
    (if text = "" then members
      else members.insert textKey (Scalar.ofText o.convert text)) =
        members ++ textMembers o text := by
  unfold textMembers
  split_ifs
  · simp
  · exact Entries.insert_of_not_mem h _

/-- The tree of an element that is more than a text. -/
theorem elementValue_eq {attributes : List (String × String)} {children : Entries String Value}
    (hchildren : (Entries.keys children).Nodup)
    (htext : textKey ∉ Entries.keys (Entries.extend (leadingMembers o attributes) children))
    (hne : attributes ≠ [] ∨ children ≠ []) (text : List Char) :
    elementValue o attributes children text =
      .object (Entries.extend (leadingMembers o attributes) children ++
        textMembers o (String.ofList (Text.trimBy Text.isBlank text))) := by
  have hempty : (attributes.isEmpty && children.isEmpty) = false := by
    rw [Bool.and_eq_false_iff, List.isEmpty_eq_false_iff, List.isEmpty_eq_false_iff]
    exact hne
  simp only [elementValue, hempty, Bool.false_eq_true, if_false, elementMembers_eq hchildren]
  rw [insert_text htext]

theorem textKey_not_mem {members : Entries String Value}
    (h : ∀ m ∈ members, role o m.1 m.2 ≠ .text) : textKey ∉ Entries.keys members := by
  intro hmem
  obtain ⟨m, hm, hk⟩ := List.mem_map.1 hmem
  exact h m hm (by rw [hk, role_textKey])

/-- The tree of an element has the shape of one. -/
theorem shaped_elementValue (hgroup : o.group ≠ some textKey)
    {attributes : List (String × String)} (hattributes : AttributesGood o.Good attributes)
    {children : Entries String Value} (hchildren : ChildrenShaped o path children)
    (text : List Char) :
    Shaped o path (elementValue o attributes children text) ∧
      (elementValue o attributes children text).isArray = false := by
  have htrimmed : Text.Trimmed Text.isBlank
      (String.ofList (Text.trimBy Text.isBlank text)).toList := by
    simpa using Text.trimmed_trimBy text
  by_cases hne : attributes ≠ [] ∨ children ≠ []
  · obtain ⟨hnodup, hmembers⟩ := extend_shaped hgroup hattributes hchildren
    have hkey := textKey_not_mem fun m hm => (hmembers m hm).1
    rw [elementValue_eq hchildren.1 hkey hne]
    refine ⟨?_, rfl⟩
    generalize String.ofList (Text.trimBy Text.isBlank text) = t at *
    obtain ⟨m, hm⟩ := exists_mem_extend (o := o) hne
    have htext : ∀ m ∈ textMembers o t, m = (textKey, Scalar.ofText o.convert t) ∧ t ≠ "" := by
      intro m hm
      unfold textMembers at hm
      split_ifs at hm with ht
      · contradiction
      · exact ⟨by simpa using hm, ht⟩
    refine ⟨?_, ⟨m, List.mem_append_left _ hm, (hmembers m hm).1⟩, ?_, ?_⟩
    · rw [← insert_text hkey]
      split_ifs
      · exact hnodup
      · exact Entries.nodup_keys_insert _ _ hnodup
    · intro hsome
      obtain ⟨group, hg⟩ := Option.isSome_iff_exists.1 hsome
      rw [extend_leadingMembers hg hchildren, List.append_assoc, arranged_append]
      · exact fun m hm => ((leadingMembers_shaped path hgroup hattributes True).2 m hm).1
      · intro m hm
        simp [isChild, role_of_some hg (hchildren.2 m hm).1]
      · intro m hm
        simp [isText, (htext m hm).1, role_textKey]
    · rw [membersShaped_iff]
      intro m hm
      rcases List.mem_append.1 hm with hm | hm
      · exact (hmembers m hm).2
      · obtain ⟨rfl, ht⟩ := htext m hm
        rw [MemberShaped, role_textKey]
        exact ⟨t, rfl, ht, htrimmed⟩
  · rw [not_or, not_not, not_not] at hne
    obtain ⟨rfl, rfl⟩ := hne
    exact ⟨shaped_ofText htrimmed, isArray_ofText _ _⟩

mutual

/-- Adding a child keeps the shape of children. -/
theorem childrenShaped_addNode (hgroup : o.group ≠ some textKey) (path : String)
    (members : Entries String Value) (n : Node) (hn : n.Named o.Good)
    (h : ChildrenShaped o path members) : ChildrenShaped o path (addNode o path members n) := by
  match n with
  | .text _ => exact h
  | .element name attributes content =>
    obtain ⟨hname, hattributes, hcontent⟩ := hn
    have hchildren := childrenShaped_addContent hgroup (path ++ "." ++ name) [] content hcontent
      ⟨by simp, by simp⟩
    have hvalue := shaped_elementValue hgroup hattributes hchildren (contentText content)
    exact childrenShaped_addChild h hname hvalue.1 hvalue.2
  termination_by structural n

/-- So does adding content. -/
theorem childrenShaped_addContent (hgroup : o.group ≠ some textKey) (path : String)
    (members : Entries String Value) (ns : List Node) (hns : AllNamed o.Good ns)
    (h : ChildrenShaped o path members) : ChildrenShaped o path (addContent o path members ns) := by
  match ns with
  | [] => exact h
  | n :: ns =>
    exact childrenShaped_addContent hgroup path _ ns hns.2
      (childrenShaped_addNode hgroup path members n hns.1 h)
  termination_by structural ns

end

/-! ## Documents -/

theorem ne_declarationKey_of_good {name : String} (h : o.Good name) : name ≠ declarationKey := by
  rintro rfl
  exact absurd h.1 (by decide)

/-- Adding an item keeps the shape of a document. -/
theorem rootsShaped_addItem (hgroup : o.group ≠ some textKey) {members : Entries String Value}
    (h : RootsShaped o members) {i : Item} (hi : i.Named (!o.ignoreDeclaration) o.Good) :
    RootsShaped o (addItem o members i) := by
  cases i with
  | declaration d =>
    obtain ⟨hkeep, hd⟩ := hi
    refine ⟨Entries.nodup_keys_insert _ _ h.1, ?_⟩
    intro m hm
    rcases Entries.mem_insert hm with rfl | hm
    · rw [RootShaped, if_pos rfl]
      exact ⟨by simpa using hkeep, d, rfl, hd⟩
    · exact h.2 m hm
  | element name attributes content =>
    obtain ⟨hname, hattributes, hcontent⟩ := hi
    have hchildren : ChildrenShaped o name (addContent o name [] content) :=
      childrenShaped_addContent hgroup name [] content hcontent ⟨by simp, by simp⟩
    obtain ⟨hvalue, harray⟩ :=
      shaped_elementValue hgroup hattributes hchildren (contentText content)
    have hold : ∀ v, (name, v) ∈ members → Counted o name name v ∧ Shaped o name v := by
      intro v hv
      have hroot := h.2 _ hv
      rw [RootShaped, if_neg (ne_declarationKey_of_good hname)] at hroot
      exact hroot.2
    constructor
    · simp only [addItem, addChild]
      rw [Entries.alter_eq_insert]
      exact Entries.nodup_keys_insert _ _ h.1
    · intro m hm
      rcases mem_addChild hold hvalue harray m hm with hm | ⟨rfl, hm⟩
      · exact h.2 m hm
      · rw [RootShaped, if_neg (ne_declarationKey_of_good hname)]
        exact ⟨hname, hm⟩

/-- The tree of a document with good names has the shape of one. -/
theorem shaped_ofDocument (hgroup : o.group ≠ some textKey) {d : Document}
    (hd : ∀ i ∈ d, i.Named (!o.ignoreDeclaration) o.Good) : ShapedDocument o (ofDocument o d) := by
  have hfold : ∀ members, RootsShaped o members → RootsShaped o (d.foldl (addItem o) members) := by
    induction d with
    | nil => exact fun members h => h
    | cons i d ih =>
      intro members h
      exact ih (fun i hi => hd i (List.mem_cons_of_mem _ hi)) _
        (rootsShaped_addItem hgroup h (hd i List.mem_cons_self))
  exact ⟨_, rfl, hfold [] ⟨by simp, by simp⟩⟩

/-- The tree of a text whose names are ordinary, and not that of the group, has the shape of one. -/
theorem shaped_parse (hgroup : o.group ≠ some textKey) {text : String} {tree : Value}
    (hnames : ∀ n ∈ names text, o.Good n) (hvalues : ∀ v ∈ declaredValues text, '"' ∉ v)
    (h : parse o text = .ok tree) : ShapedDocument o tree := by
  unfold parse at h
  cases hread : Document.read (!o.ignoreDeclaration) text with
  | error fault =>
    rw [hread] at h
    contradiction
  | ok d =>
    rw [hread] at h
    obtain rfl : ofDocument o d = tree := by simpa [Except.map] using h
    exact shaped_ofDocument hgroup (read_named hnames hvalues hread)

end LsxKit.Tree
