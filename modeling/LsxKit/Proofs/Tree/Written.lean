import LsxKit.Proofs.Tree.Change
import LsxKit.Proofs.Tree.Invariant
import LsxKit.Proofs.Tree.Plain
import LsxKit.Proofs.Xml.Spaced

/-!
# Trees that can be written

A tree has marks if every group of attributes in it is an object. That is so for every tree that is
read, unless an element has the name of the group and so takes its place.

* `Written`: whether a value has marks, with good names of attributes in them.
* `written_array_iff`, `written_object_iff`: when arrays and objects have.
* `written_replaceAt`, `writtenDocument_replaceAt`: another group of attributes keeps that.
* `written_invariant`, `writtenDocument_of_parse`: reading keeps that.
-/

namespace LsxKit

open Json

namespace Xml

/-- The attributes in a tag. -/
def Mark.attributes : Mark → List (String × String)
  | .start _ attributes | .empty _ attributes => attributes
  | _ => []

/-- Whether all attributes in marks have good names. -/
def Keyed (good : String → Prop) (ms : List Mark) : Prop :=
  ∀ m ∈ ms, ∀ a ∈ m.attributes, good a.1

@[simp] theorem keyed_nil {good : String → Prop} : Keyed good [] := by simp [Keyed]

@[simp] theorem keyed_cons {good : String → Prop} {m : Mark} {ms : List Mark} :
    Keyed good (m :: ms) ↔ (∀ a ∈ m.attributes, good a.1) ∧ Keyed good ms :=
  List.forall_mem_cons

@[simp] theorem keyed_append {good : String → Prop} {ms ms' : List Mark} :
    Keyed good (ms ++ ms') ↔ Keyed good ms ∧ Keyed good ms' :=
  List.forall_mem_append

end Xml

namespace Tree

open Xml hiding Step

/-- Whether a value has marks under a tag, with good names of attributes in them. -/
def Written (o : Options) (good : String → Prop) (tag : String) (v : Value) : Prop :=
  ∃ ms, valueMarks o tag v = .ok ms ∧ Keyed good ms

variable {o : Options} {group tag key : String} {good : String → Prop} {v : Value}
  {members : Entries String Value} {items : List Value} {ms : List Mark}

/-! ## Marks one after the other -/

theorem itemMarks_cons_iff :
    itemMarks o tag (v :: items) = .ok ms ↔ v.isArray = false ∧ ∃ own rest,
      valueMarks o tag v = .ok own ∧ itemMarks o tag items = .ok rest ∧ ms = own ++ rest := by
  rw [itemMarks, ← both_eq_ok_iff]
  cases v.isArray with
  | true => simp [bind, Except.bind]
  | false => simp

theorem childMarks_cons_iff :
    childMarks o ((key, v) :: members) = .ok ms ↔ ∃ own rest,
      (if role o key v = .child then valueMarks o key v else .ok []) = .ok own ∧
        childMarks o members = .ok rest ∧ ms = own ++ rest := by
  rw [childMarks, ← both_eq_ok_iff]
  split_ifs <;> rfl

theorem documentMarks_cons_iff :
    documentMarks o ((key, v) :: members) = .ok ms ↔ ∃ own rest,
      (if key = declarationKey then .ok [declarationMark o v] else valueMarks o key v) = .ok own ∧
        documentMarks o members = .ok rest ∧ ms = own ++ rest := by
  rw [documentMarks, ← both_eq_ok_iff]
  split_ifs <;> rfl

theorem valueMarks_object_iff :
    valueMarks o tag (.object members) = .ok ms ↔ ∃ attributes children,
      memberAttributes o tag members = .ok attributes ∧ childMarks o members = .ok children ∧
        ms = elementMarks tag attributes (memberText members)
          (members.all fun m => role o m.1 m.2 ≠ .child) children := by
  rw [valueMarks]
  exact both_eq_ok_iff

/-- Marks one after the other have good names if both parts have. -/
theorem exists_keyed_append_iff {P Q : List Mark → Prop} :
    (∃ ms, (∃ own rest, P own ∧ Q rest ∧ ms = own ++ rest) ∧ Keyed good ms) ↔
      (∃ own, P own ∧ Keyed good own) ∧ ∃ rest, Q rest ∧ Keyed good rest := by
  constructor
  · rintro ⟨-, ⟨own, rest, hown, hrest, rfl⟩, hkeyed⟩
    rw [keyed_append] at hkeyed
    exact ⟨⟨own, hown, hkeyed.1⟩, rest, hrest, hkeyed.2⟩
  · rintro ⟨⟨own, hown, hownKeyed⟩, rest, hrest, hrestKeyed⟩
    exact ⟨_, ⟨own, rest, hown, hrest, rfl⟩, keyed_append.2 ⟨hownKeyed, hrestKeyed⟩⟩

/-- Members that are written one after the other have marks exactly if each of them does. -/
theorem exists_members_iff {own : String → Value → Except TreeFault (List Mark)}
    {all : List (String × Value) → Except TreeFault (List Mark)} (hnil : all [] = .ok [])
    (hcons : ∀ {k v members ms}, all ((k, v) :: members) = .ok ms ↔
      ∃ first rest, own k v = .ok first ∧ all members = .ok rest ∧ ms = first ++ rest) :
    (∃ ms, all members = .ok ms ∧ Keyed good ms) ↔
      ∀ m ∈ members, ∃ ms, own m.1 m.2 = .ok ms ∧ Keyed good ms := by
  induction members with
  | nil => simp [hnil]
  | cons m members ih =>
    obtain ⟨k, v⟩ := m
    rw [List.forall_mem_cons, ← ih]
    simp only [hcons, exists_keyed_append_iff]

/-! ## Arrays -/

theorem written_array_iff :
    Written o good tag (.array items) ↔
      ∀ v ∈ items, v.isArray = false ∧ Written o good tag v := by
  show (∃ ms, itemMarks o tag items = .ok ms ∧ Keyed good ms) ↔ _
  induction items with
  | nil => simp [itemMarks]
  | cons v items ih =>
    rw [List.forall_mem_cons, ← ih, and_assoc, Written, ← exists_keyed_append_iff,
      ← exists_and_left]
    simp only [itemMarks_cons_iff, and_assoc]

/-! ## Elements -/

/-- The attributes in the marks of an element are its own and those of its children. -/
theorem keyed_elementMarks_iff {text : String} {attributes : List (String × String)}
    {noChildren : Bool} {children : List Mark} (hchildren : noChildren = true → children = []) :
    Keyed good (elementMarks tag attributes text noChildren children) ↔
      (∀ a ∈ attributes, good a.1) ∧ Keyed good children := by
  unfold elementMarks
  split_ifs with hempty htext
  · obtain rfl := hchildren (Bool.and_eq_true_iff.1 hempty).1
    simp [Mark.attributes]
  · simp [Mark.attributes]
  · simp [Mark.attributes]

/-- A scalar is written as a text. -/
theorem written_of_isScalar (hv : IsScalar v) (tag : String) : Written o good tag v := by
  have hkeyed : Keyed good (elementMarks tag [] (Scalar.render v) true []) :=
    (keyed_elementMarks_iff fun _ => rfl).2 (by simp)
  obtain ⟨hobject, harray⟩ := hv
  cases v with
  | array items => contradiction
  | object members => contradiction
  | _ => exact ⟨_, rfl, hkeyed⟩

/-- A member under the key of the group has attributes exactly if it is an object. -/
theorem exists_memberAttributes_iff (hg : o.group = some group) (hne : group ≠ textKey)
    (tag : String) :
    (∃ attributes, memberAttributes o tag members = .ok attributes ∧
        ∀ a ∈ attributes, good a.1) ↔
      ∀ m ∈ members, m.1 = group →
        ∃ own, m.2 = .object own ∧ ∀ k ∈ Entries.keys own, good k := by
  induction members with
  | nil => simp [memberAttributes]
  | cons m members ih =>
    obtain ⟨key, v⟩ := m
    rw [List.forall_mem_cons, ← ih]
    by_cases hkey : key = group
    · subst hkey
      have hrole := role_group hg hne
      cases v with
      | object own =>
        have hkeys : (∀ a ∈ own.map fun e => (e.1, Scalar.render e.2), good a.1) ↔
            ∀ k ∈ Entries.keys own, good k := by
          rw [List.forall_mem_map, Entries.keys, List.forall_mem_map]
        rw [memberAttributes, hrole]
        constructor
        · rintro ⟨attributes, hattributes, hgood⟩
          obtain ⟨rest, hrest, hattributes⟩ := bind_eq_ok_iff.1 hattributes
          obtain rfl := Except.ok.inj hattributes
          obtain ⟨hown, hgood⟩ := List.forall_mem_append.1 hgood
          exact ⟨fun _ => ⟨own, rfl, hkeys.1 hown⟩, rest, hrest, hgood⟩
        · rintro ⟨hown, rest, hrest, hgood⟩
          obtain ⟨own', hown', hkeysGood⟩ := hown rfl
          obtain rfl := Value.object.inj hown'
          exact ⟨_, bind_eq_ok_iff.2 ⟨rest, hrest, rfl⟩,
            List.forall_mem_append.2 ⟨hkeys.2 hkeysGood, hgood⟩⟩
      | _ => simp [memberAttributes, hrole]
    · have hother : memberAttributes o tag ((key, v) :: members) =
          memberAttributes o tag members := by
        by_cases htext : key = textKey
        · simp [memberAttributes, htext, role_textKey]
        · simp [memberAttributes, role_eq_child hg hkey htext]
      rw [hother]
      simp [hkey]

/-- The role of a member depends on whether it is a child. -/
theorem role_eq_child_iff (hg : o.group = some group) (hne : group ≠ textKey) {key : String} :
    role o key v = .child ↔ key ≠ group ∧ key ≠ textKey := by
  constructor
  · intro hrole
    refine ⟨?_, ?_⟩
    · rintro rfl
      rw [role_group hg hne] at hrole
      contradiction
    · rintro rfl
      rw [role_textKey] at hrole
      contradiction
  · exact fun h => role_eq_child hg h.1 h.2 v

/-- The children among members have marks exactly if each of them does. -/
theorem exists_childMarks_iff (hg : o.group = some group) (hne : group ≠ textKey) :
    (∃ ms, childMarks o members = .ok ms ∧ Keyed good ms) ↔
      ∀ m ∈ members, m.1 ≠ group ∧ m.1 ≠ textKey → Written o good m.1 m.2 := by
  rw [exists_members_iff rfl childMarks_cons_iff]
  refine forall₂_congr fun m _ => ?_
  rw [← role_eq_child_iff (v := m.2) hg hne]
  by_cases hrole : role o m.1 m.2 = .child
  · simp [hrole, Written]
  · simp [hrole]

/-- An element without children among its members has no marks of children. -/
theorem childMarks_eq_nil (h : ∀ m ∈ members, role o m.1 m.2 ≠ .child) :
    childMarks o members = .ok [] := by
  induction members with
  | nil => rfl
  | cons m members ih =>
    obtain ⟨key, v⟩ := m
    rw [List.forall_mem_cons] at h
    rw [childMarks, if_neg h.1, ih h.2]
    rfl

/-- An object has marks exactly if its group of attributes is an object and its children have
marks. -/
theorem written_object_iff (hg : o.group = some group) (hne : group ≠ textKey) :
    Written o good tag (.object members) ↔
      (∀ m ∈ members, m.1 = group →
        ∃ own, m.2 = .object own ∧ ∀ k ∈ Entries.keys own, good k) ∧
      ∀ m ∈ members, m.1 ≠ group ∧ m.1 ≠ textKey → Written o good m.1 m.2 := by
  have hkeyed : ∀ {attributes children}, childMarks o members = .ok children →
      (Keyed good (elementMarks tag attributes (memberText members)
        (members.all fun m => role o m.1 m.2 ≠ .child) children) ↔
          (∀ a ∈ attributes, good a.1) ∧ Keyed good children) := by
    intro attributes children hchildren
    refine keyed_elementMarks_iff fun hall => ?_
    rw [childMarks_eq_nil (by simpa using hall)] at hchildren
    exact (Except.ok.inj hchildren).symm
  rw [← exists_memberAttributes_iff hg hne tag, ← exists_childMarks_iff hg hne, Written]
  simp only [valueMarks_object_iff]
  constructor
  · rintro ⟨-, ⟨attributes, children, hattributes, hchildren, rfl⟩, hgood⟩
    obtain ⟨hown, hinner⟩ := (hkeyed hchildren).1 hgood
    exact ⟨⟨attributes, hattributes, hown⟩, children, hchildren, hinner⟩
  · rintro ⟨⟨attributes, hattributes, hown⟩, children, hchildren, hinner⟩
    exact ⟨_, ⟨attributes, children, hattributes, hchildren, rfl⟩,
      (hkeyed hchildren).2 ⟨hown, hinner⟩⟩

/-! ## Documents -/

/-- A document has marks exactly if its roots have, apart from the declaration. -/
theorem exists_documentMarks_iff :
    (∃ ms, documentMarks o members = .ok ms ∧ Keyed good ms) ↔
      ∀ m ∈ members, m.1 ≠ declarationKey → Written o good m.1 m.2 := by
  rw [exists_members_iff rfl documentMarks_cons_iff]
  refine forall₂_congr fun m _ => ?_
  by_cases hkey : m.1 = declarationKey
  · simp [hkey, declarationMark, Mark.attributes]
  · simp [hkey, Written]

/-! ## Another group of attributes -/

/-- An element has marks with another value of a member if the value is as good as the one
before. -/
theorem written_insert (hg : o.group = some group) (hne : group ≠ textKey) {w : Value}
    (h : Written o good tag (.object members))
    (hown : key = group → ∃ own, w = .object own ∧ ∀ k ∈ Entries.keys own, good k)
    (hchild : key ≠ group ∧ key ≠ textKey → Written o good key w) :
    Written o good tag (.object (Entries.insert key w members)) := by
  rw [written_object_iff hg hne] at h ⊢
  constructor
  · intro m hm
    rcases Entries.mem_insert hm with rfl | hm
    · exact hown
    · exact h.1 m hm
  · intro m hm
    rcases Entries.mem_insert hm with rfl | hm
    · exact hchild
    · exact h.2 m hm

/-- A value has marks with another group of attributes inside it. -/
theorem written_replaceAt (hg : o.group = some group) (hne : group ≠ textKey) {steps : List Step}
    (hsteps : .key group ∉ steps) {old own : Entries String Value}
    (hown : (∀ k ∈ Entries.keys old, good k) → ∀ k ∈ Entries.keys own, good k)
    (h : Written o good tag v) (hat : v.at? (steps ++ [.key group]) = some (.object old)) :
    Written o good tag (v.replaceAt (steps ++ [.key group]) (.object own)) ∧
      (v.replaceAt (steps ++ [.key group]) (.object own)).isArray = v.isArray := by
  induction steps generalizing v tag with
  | nil =>
    rcases replaceAt_cons hat (.object own) with
      ⟨members, key, w, rfl, hkey, hget, hw, hreplace⟩ | ⟨items, i, w, -, hkey, -⟩
    · obtain rfl : group = key := by simpa using hkey
      obtain rfl : w = .object old := by simpa using hw
      obtain ⟨old', hold, hgood⟩ :=
        ((written_object_iff hg hne).1 h).1 _ (Entries.mem_of_get? hget) rfl
      obtain rfl := Value.object.inj hold
      rw [List.nil_append, hreplace]
      exact ⟨written_insert hg hne h (fun _ => ⟨own, rfl, hown hgood⟩) fun hk => absurd rfl hk.1,
        rfl⟩
    · contradiction
  | cons s steps ih =>
    rw [List.mem_cons, not_or] at hsteps
    rw [List.cons_append] at hat ⊢
    rcases replaceAt_cons hat (.object own) with
      ⟨members, key, w, rfl, rfl, hget, hw, hreplace⟩ | ⟨items, i, w, rfl, rfl, hget, hw, hreplace⟩
    · rw [hreplace]
      refine ⟨written_insert hg hne h (fun hk => absurd (by rw [hk]) hsteps.1) fun hk => ?_, rfl⟩
      have hinner := ((written_object_iff hg hne).1 h).2 _ (Entries.mem_of_get? hget) hk
      exact (ih hsteps.2 hinner hw).1
    · rw [hreplace]
      refine ⟨?_, rfl⟩
      rw [written_array_iff] at h ⊢
      obtain ⟨harray, hinner⟩ := h w (List.mem_of_getElem? hget)
      obtain ⟨hinner', harray'⟩ := ih hsteps.2 hinner hw
      intro v hv
      rcases List.mem_or_eq_of_mem_set hv with hv | rfl
      · exact h v hv
      · exact ⟨harray'.trans harray, hinner'⟩

/-- Whether a document has marks, with good names of attributes in them. -/
def WrittenDocument (o : Options) (good : String → Prop) (tree : Value) : Prop :=
  ∃ ms, marks o tree = .ok ms ∧ Keyed good ms

/-- So has a document with another group of attributes inside one of its roots. -/
theorem writtenDocument_replaceAt (hg : o.group = some group) (hne : group ≠ textKey)
    {steps : List Step} (hsteps : .key group ∉ steps) (hhead : steps.head? = some (.key tag))
    {tree : Value} {old own : Entries String Value}
    (hown : (∀ k ∈ Entries.keys old, good k) → ∀ k ∈ Entries.keys own, good k)
    (h : WrittenDocument o good tree)
    (hat : tree.at? (steps ++ [.key group]) = some (.object old)) :
    WrittenDocument o good (tree.replaceAt (steps ++ [.key group]) (.object own)) := by
  obtain ⟨s, steps, rfl⟩ := List.exists_cons_of_ne_nil (l := steps) (by rintro rfl; contradiction)
  obtain rfl : s = .key tag := by simpa using hhead
  rw [List.mem_cons, not_or] at hsteps
  rw [List.cons_append] at hat ⊢
  rcases replaceAt_cons hat (.object own) with
    ⟨members, key, w, rfl, -, hget, hw, hreplace⟩ | ⟨items, i, w, -, hkey, -⟩
  · have hroots := exists_documentMarks_iff.1 h
    rw [hreplace]
    refine exists_documentMarks_iff.2 fun m hm hdeclaration => ?_
    rcases Entries.mem_insert hm with rfl | hm
    · have hroot := hroots _ (Entries.mem_of_get? hget) hdeclaration
      exact (written_replaceAt hg hne hsteps.2 hown hroot hw).1
    · exact hroots m hm hdeclaration
  · contradiction

/-! ## What is read -/

/-- The names in a group of attributes are those of the attributes. -/
theorem good_of_mem_keys {attributes : List (String × String)} (h : ∀ a ∈ attributes, good a.1) :
    ∀ k ∈ Entries.keys (attributeValues o attributes), good k := by
  intro k hk
  rw [attributeValues, Entries.mem_keys_extend] at hk
  rcases hk with hk | hk
  · contradiction
  · obtain ⟨m, hm, rfl⟩ := List.mem_map.1 hk
    obtain ⟨a, ha, rfl⟩ := List.mem_map.1 hm
    exact h a ha

/-- The tree of an element has marks if those of its children have. -/
theorem written_elementValue (hg : o.group = some group) (hne : group ≠ textKey)
    {attributes : List (String × String)} (hattributes : ∀ a ∈ attributes, good a.1)
    {children : Entries String Value} (text : List Char)
    (hchildren : ChildrenHold (fun n => n ≠ declarationKey ∧ n ≠ group)
      (fun v => ∀ tag, Written o good tag v) children) (tag : String) :
    Written o good tag (elementValue o attributes children text) := by
  rcases elementValue_cases o attributes children text with ⟨s, h⟩ | ⟨members, h, hmembers⟩
  · rw [h]
    exact written_of_isScalar (isScalar_ofText _ _) tag
  · rw [h, written_object_iff hg hne]
    have hattributeMembers :
        attributeMembers o attributes = [(group, .object (attributeValues o attributes))] := by
      rw [attributeMembers, hg]
      rfl
    rw [hattributeMembers] at hmembers
    constructor
    · intro m hm hkey
      rcases hmembers m hm with hattribute | hchild | ⟨s, rfl⟩
      · obtain rfl := List.mem_singleton.1 hattribute
        exact ⟨_, rfl, good_of_mem_keys hattributes⟩
      · exact absurd hkey (hchildren.2 m hchild).1.2
      · exact absurd hkey.symm hne
    · intro m hm hkey
      rcases hmembers m hm with hattribute | hchild | ⟨s, rfl⟩
      · exact absurd (List.mem_singleton.1 hattribute ▸ rfl) hkey.1
      · exact (hchildren.2 m hchild).2 m.1
      · exact absurd rfl hkey.2

/-- Whatever is read has marks, unless an element takes the place of a group of attributes. -/
theorem written_invariant (hg : o.group = some group) (hne : group ≠ textKey)
    (good : String → Prop) :
    ReadingInvariant o (fun n => n ≠ declarationKey ∧ n ≠ group) good
      (fun v => ∀ tag, Written o good tag v) where
  good_ne _ h := h.1
  array items := by
    simp only [written_array_iff]
    exact ⟨fun h v hv => ⟨(h "" v hv).1, fun tag => (h tag v hv).2⟩,
      fun h tag v hv => ⟨(h v hv).1, (h v hv).2 tag⟩⟩
  element _ _ text hattributes hchildren :=
    written_elementValue hg hne hattributes text hchildren

/-- A document that is read has marks, unless an element takes the place of a group of
attributes. -/
theorem writtenDocument_of_parse (hg : o.group = some group) (hne : group ≠ textKey)
    {text : String} {tree : Value} (helements : group ∉ elementNames text)
    (hkeys : ∀ k ∈ attributeNames text, good k) (hparse : Tree.parse o text = .ok tree) :
    WrittenDocument o good tree := by
  have hnames : ∀ n ∈ elementNames text, n.toList.head? ≠ some '?' →
      n ≠ declarationKey ∧ n ≠ group := by
    rintro n hn hmark
    refine ⟨?_, ?_⟩
    · rintro rfl
      exact hmark rfl
    · rintro rfl
      exact helements hn
  obtain ⟨members, rfl, -, hroots⟩ := (written_invariant hg hne good).parse hnames hkeys hparse
  refine exists_documentMarks_iff.2 fun m hm hdeclaration => ?_
  rcases hroots m hm with ⟨hkey, -⟩ | ⟨-, hwritten⟩
  · exact absurd hkey hdeclaration
  · exact hwritten m.1

end Tree

end LsxKit
