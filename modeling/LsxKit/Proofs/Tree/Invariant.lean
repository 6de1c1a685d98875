import LsxKit.Proofs.Tree.Address
import LsxKit.Proofs.Xml.Tagged

/-!
# What holds of every tree that is read

The tree of an element is built from those of the elements inside it, and elements of one name are
gathered in an array. What both steps keep holds of everything in a tree that is read, apart from
the declaration.

* `elementValue_cases`: what the tree of an element consists of.
* `ReadingInvariant`: a property that both steps keep, if all names are good.
* `ReadingInvariant.addContent`: it holds of the children of an element.
* `ReadingInvariant.parse`: it holds of the roots of a text.
-/

namespace LsxKit.Tree

open Json Xml

/-- Whether members have distinct keys, all of them good, and values with a property. -/
def ChildrenHold (good : String → Prop) (P : Value → Prop) (members : Entries String Value) :
    Prop :=
  (Entries.keys members).Nodup ∧ ∀ m ∈ members, good m.1 ∧ P m.2

theorem childrenHold_nil {good : String → Prop} {P : Value → Prop} : ChildrenHold good P [] := by
  simp [ChildrenHold]

/-- Whether members of a document are declarations, or have good keys and values with a
property. -/
def RootsHold (o : Options) (good : String → Prop) (P : Value → Prop)
    (members : Entries String Value) : Prop :=
  (Entries.keys members).Nodup ∧ ∀ m ∈ members,
    (m.1 = declarationKey ∧ ∃ d, m.2 = declarationValue o d) ∨ good m.1 ∧ P m.2

/-- The tree of an element is a scalar, or an object with attributes, children and a text. -/
theorem elementValue_cases (o : Options) (attributes : List (String × String))
    (children : Entries String Value) (text : List Char) :
    (∃ s, elementValue o attributes children text = Scalar.ofText o.convert s) ∨
      ∃ members, elementValue o attributes children text = .object members ∧ ∀ m ∈ members,
        m ∈ attributeMembers o attributes ∨ m ∈ children ∨
          ∃ s, m = (textKey, Scalar.ofText o.convert s) := by
  have hmembers : ∀ m ∈ (if attributes.isEmpty then children
      else Entries.extend (attributeMembers o attributes) children),
        m ∈ attributeMembers o attributes ∨ m ∈ children := by
    intro m hm
    split_ifs at hm
    · exact .inr hm
    · exact Entries.mem_extend hm
  rw [elementValue]
  dsimp only
  generalize (if attributes.isEmpty then children
    else Entries.extend (attributeMembers o attributes) children) = members at hmembers ⊢
  split_ifs with hscalar htext
  · exact .inl ⟨_, rfl⟩
  · exact .inr ⟨members, rfl, fun m hm => (hmembers m hm).imp_right .inl⟩
  · refine .inr ⟨_, rfl, fun m hm => ?_⟩
    rcases Entries.mem_insert hm with rfl | hm
    · exact .inr (.inr ⟨_, rfl⟩)
    · exact (hmembers m hm).imp_right .inl

/-- A property of trees that reading keeps: an array has it if its elements have it, and the tree of
an element if those of its children have it, names of elements and attributes being good. -/
structure ReadingInvariant (o : Options) (good goodKey : String → Prop) (P : Value → Prop) :
    Prop where
  good_ne : ∀ name, good name → name ≠ declarationKey
  array : ∀ items, P (.array items) ↔ ∀ v ∈ items, v.isArray = false ∧ P v
  element : ∀ attributes children text, (∀ a ∈ attributes, goodKey a.1) →
    ChildrenHold good P children → P (elementValue o attributes children text)

namespace ReadingInvariant

variable {o : Options} {good goodKey : String → Prop} {P : Value → Prop}
  {members : Entries String Value}

/-- What is added under a tag is the value itself or an array with it. -/
theorem mem_addChild (h : ReadingInvariant o good goodKey P) {tag : String} {value : Value}
    (hold : ∀ v, (tag, v) ∈ members → P v) (hvalue : P value) (harray : value.isArray = false)
    (inArray : Bool) :
    ∀ m ∈ addChild members tag value inArray, m ∈ members ∨ m.1 = tag ∧ P m.2 := by
  intro m hm
  rw [addChild, Entries.alter_eq_insert] at hm
  rcases Entries.mem_insert hm with rfl | hm
  · refine .inr ⟨rfl, ?_⟩
    cases hget : Entries.get? tag members with
    | none =>
      cases inArray with
      | true => exact (h.array _).2 (by simp [harray, hvalue])
      | false => exact hvalue
    | some first =>
      have hfirst := hold first (Entries.mem_of_get? hget)
      by_cases hitems : first.isArray = true
      · cases first with
        | array items =>
          refine (h.array _).2 (List.forall_mem_append.2 ⟨(h.array _).1 hfirst, ?_⟩)
          simp [harray, hvalue]
        | _ => contradiction
      · have hpair : P (.array [first, value]) :=
          (h.array _).2 (by simpa [harray, hvalue, hfirst] using hitems)
        cases first with
        | array items => exact absurd rfl hitems
        | _ => exact hpair
  · exact .inl hm

theorem addChild (h : ReadingInvariant o good goodKey P) (hmembers : ChildrenHold good P members)
    {tag : String} (htag : good tag) {value : Value} (hvalue : P value)
    (harray : value.isArray = false) (inArray : Bool) :
    ChildrenHold good P (Tree.addChild members tag value inArray) := by
  refine ⟨?_, fun m hm => ?_⟩
  · rw [Tree.addChild, Entries.alter_eq_insert]
    exact Entries.nodup_keys_insert _ _ hmembers.1
  · have hold : ∀ v, (tag, v) ∈ members → P v := fun v hv => (hmembers.2 _ hv).2
    rcases h.mem_addChild hold hvalue harray inArray m hm with hmem | ⟨rfl, hnew⟩
    · exact hmembers.2 m hmem
    · exact ⟨htag, hnew⟩

mutual

/-- An element is added to children. -/
theorem addNode (h : ReadingInvariant o good goodKey P) (path : String)
    (members : Entries String Value) (hmembers : ChildrenHold good P members) (n : Node)
    (hn : n.Tagged good goodKey) :
    ChildrenHold good P (Tree.addNode o path members n) := by
  match n with
  | .text _ => exact hmembers
  | .element name attributes content =>
    have hchildren : ChildrenHold good P (Tree.addContent o (path ++ "." ++ name) [] content) :=
      addContent h (path ++ "." ++ name) [] childrenHold_nil content hn.2.2
    exact h.addChild hmembers hn.1 (h.element attributes _ (contentText content) hn.2.1 hchildren)
      (isArray_elementValue _ _ _) _
  termination_by structural n

/-- All elements of a content are added to children. -/
theorem addContent (h : ReadingInvariant o good goodKey P) (path : String)
    (members : Entries String Value) (hmembers : ChildrenHold good P members) (ns : List Node)
    (hns : AllTagged good goodKey ns) :
    ChildrenHold good P (Tree.addContent o path members ns) := by
  match ns with
  | [] => exact hmembers
  | n :: ns =>
    exact addContent h path _ (addNode h path members hmembers n hns.1) ns hns.2
  termination_by structural ns

end

/-! ## Documents -/

theorem addItem (h : ReadingInvariant o good goodKey P) (hmembers : RootsHold o good P members)
    {i : Item} (hi : AllTagged good goodKey i.nodes) :
    RootsHold o good P (Tree.addItem o members i) := by
  cases i with
  | declaration d =>
    refine ⟨Entries.nodup_keys_insert _ _ hmembers.1, fun m hm => ?_⟩
    rcases Entries.mem_insert hm with rfl | hm
    · exact .inl ⟨rfl, d, rfl⟩
    · exact hmembers.2 m hm
  | element name attributes content =>
    obtain ⟨⟨hname, hattributes, hcontent⟩, -⟩ := hi
    have hvalue := h.element attributes _ (contentText content) hattributes
      (h.addContent name [] childrenHold_nil content hcontent)
    have hold : ∀ v, (name, v) ∈ members → P v := by
      intro v hv
      rcases hmembers.2 _ hv with hdeclaration | hroot
      · exact absurd hdeclaration.1 (h.good_ne name hname)
      · exact hroot.2
    refine ⟨?_, fun m hm => ?_⟩
    · simp only [Tree.addItem, Tree.addChild]
      rw [Entries.alter_eq_insert]
      exact Entries.nodup_keys_insert _ _ hmembers.1
    · rcases h.mem_addChild hold hvalue (isArray_elementValue _ _ _) _ m hm with
        hmem | ⟨rfl, hnew⟩
      · exact hmembers.2 m hmem
      · exact .inr ⟨hname, hnew⟩

/-- The property holds of the roots of a text, if the names of elements that do not begin with a
question mark are good, and those of attributes too. -/
theorem parse (h : ReadingInvariant o good goodKey P) {text : String} {tree : Value}
    (hnames : ∀ n ∈ elementNames text, n.toList.head? ≠ some '?' → good n)
    (hkeys : ∀ k ∈ attributeNames text, goodKey k) (hparse : Tree.parse o text = .ok tree) :
    ∃ members, tree = .object members ∧ RootsHold o good P members := by
  obtain ⟨d, hread, rfl⟩ := map_eq_ok_iff.1 hparse
  have htagged : AllTagged good goodKey (Document.nodes d) := tagged_of_read hnames hkeys hread
  have hfold : ∀ members : Entries String Value, RootsHold o good P members →
      RootsHold o good P (d.foldl (Tree.addItem o) members) := by
    clear hread hparse
    induction d with
    | nil => exact fun _ hmembers => hmembers
    | cons i d ih =>
      intro members hmembers
      rw [allTagged_iff, Document.nodes, List.flatMap_cons, List.forall_mem_append,
        ← allTagged_iff, ← allTagged_iff] at htagged
      exact ih htagged.2 _ (h.addItem hmembers htagged.1)
  exact ⟨_, rfl, hfold [] ⟨by simp, by simp⟩⟩

end ReadingInvariant

end LsxKit.Tree
