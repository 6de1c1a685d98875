import LsxKit.Proofs.Tree.Distinct
import LsxKit.Proofs.Tree.Invariant
import LsxKit.Proofs.Tree.Plain

/-!
# Trees that are known from their texts

With or without conversion, keys in a tree that is read are distinct, and a scalar is known from the
text that is written for it. In the declaration this is so for the version only.

* `Regular`: the trees in which that is so.
* `eq_of_render_eq`: scalars with one text are one scalar.
* `regular_elementValue`: the tree of an element is of this kind if those of its children are.
* `regular_of_parse`: what a tree that is read holds under a key other than that of declarations.
-/

namespace LsxKit.Tree

open Json Xml

mutual

/-- Whether keys are distinct, scalars those of texts, and arrays not nested. -/
def Regular (convert : Bool) : Value → Prop
  | .array items => AllRegular convert items
  | .object members => (Entries.keys members).Nodup ∧ MembersRegular convert members
  | v => ∃ s, v = Scalar.ofText convert s
  termination_by structural v => v

/-- Whether all values are regular, none of them an array. -/
def AllRegular (convert : Bool) : List Value → Prop
  | [] => True
  | v :: vs => (v.isArray = false ∧ Regular convert v) ∧ AllRegular convert vs
  termination_by structural vs => vs

/-- Whether the values of all members are regular. -/
def MembersRegular (convert : Bool) : List (String × Value) → Prop
  | [] => True
  | (_, v) :: members => Regular convert v ∧ MembersRegular convert members
  termination_by structural members => members

end

variable {convert : Bool} {v w : Value}

theorem allRegular_iff {vs : List Value} :
    AllRegular convert vs ↔ ∀ v ∈ vs, v.isArray = false ∧ Regular convert v := by
  induction vs with
  | nil => simp [AllRegular]
  | cons v vs ih => rw [AllRegular, ih, List.forall_mem_cons]

theorem membersRegular_iff {members : List (String × Value)} :
    MembersRegular convert members ↔ ∀ m ∈ members, Regular convert m.2 := by
  induction members with
  | nil => simp [MembersRegular]
  | cons m members ih => rw [MembersRegular, ih, List.forall_mem_cons]

/-! ## Parts of regular trees -/

/-- What stands in a regular tree is regular. -/
theorem regular_get? {key : String} (h : Regular convert v) (hw : v.get? key = some w) :
    Regular convert w := by
  cases v with
  | object members => exact membersRegular_iff.1 h.2 _ (Entries.mem_of_get? hw)
  | _ => contradiction

theorem regular_child? {step : Json.Step} (h : Regular convert v) (hw : v.child? step = some w) :
    Regular convert w := by
  cases v with
  | object members =>
    cases step with
    | key key => exact regular_get? h hw
    | index i => contradiction
  | array items =>
    cases step with
    | key key => contradiction
    | index i => exact (allRegular_iff.1 h w (List.mem_of_getElem? hw)).2
  | _ => contradiction

theorem regular_at? {path : List Json.Step} (h : Regular convert v) (hw : v.at? path = some w) :
    Regular convert w := by
  induction path generalizing v with
  | nil =>
    obtain rfl := Option.some.inj hw
    exact h
  | cons step path ih =>
    obtain ⟨u, hu, hw⟩ := Option.bind_eq_some_iff.1 hw
    exact ih (regular_child? h hu) hw

/-- A scalar is known from its text. -/
theorem ofText_render (h : Regular convert v) (hscalar : IsScalar v) :
    v = Scalar.ofText convert (Scalar.render v) := by
  have hread : ∃ s, v = Scalar.ofText convert s := by
    cases v with
    | object members => exact absurd hscalar.1 (by simp [Value.isObject])
    | array items => exact absurd hscalar.2 (by simp [Value.isArray])
    | _ => exact h
  obtain ⟨s, rfl⟩ := hread
  rw [Scalar.render_ofText]

/-- Scalars with one text are one scalar. -/
theorem eq_of_render_eq (hv : Regular convert v) (hw : Regular convert w) (hvs : IsScalar v)
    (hws : IsScalar w) (h : Scalar.render v = Scalar.render w) : v = w := by
  rw [ofText_render hv hvs, h, ← ofText_render hw hws]

/-! ## What is read -/

variable {o : Options}

theorem regular_ofText (s : String) : Regular convert (Scalar.ofText convert s) := by
  obtain ⟨hobject, harray⟩ := isScalar_ofText convert s
  generalize hv : Scalar.ofText convert s = v at *
  cases v with
  | object members => contradiction
  | array items => contradiction
  | _ => exact ⟨s, hv.symm⟩

theorem regular_attributeMembers (attributes : List (String × String)) :
    (Entries.keys (attributeMembers o attributes)).Nodup ∧
      ∀ m ∈ attributeMembers o attributes, Regular o.convert m.2 := by
  have hvalues : Regular o.convert (.object (attributeValues o attributes)) := by
    refine ⟨Entries.nodup_keys_extend (by simp) _, membersRegular_iff.2 fun m hm => ?_⟩
    rcases Entries.mem_extend hm with hm | hm
    · contradiction
    · obtain ⟨a, -, rfl⟩ := List.mem_map.1 hm
      exact regular_ofText a.2
  rw [attributeMembers]
  cases o.group with
  | none => exact ⟨hvalues.1, membersRegular_iff.1 hvalues.2⟩
  | some group => exact ⟨List.nodup_singleton _, by simpa only [List.forall_mem_singleton]⟩

/-- The tree of an element is regular if those of its children are. -/
theorem regular_elementValue {good : String → Prop} (attributes : List (String × String))
    {children : Entries String Value} (text : List Char)
    (hchildren : ChildrenHold good (Regular o.convert) children) :
    Regular o.convert (elementValue o attributes children text) := by
  obtain ⟨hkeys, hattributes⟩ := regular_attributeMembers (o := o) attributes
  have hmembers : Regular o.convert (.object (if attributes.isEmpty then children
      else Entries.extend (attributeMembers o attributes) children)) := by
    split_ifs
    · exact ⟨hchildren.1, membersRegular_iff.2 fun m hm => (hchildren.2 m hm).2⟩
    · refine ⟨Entries.nodup_keys_extend hkeys _, membersRegular_iff.2 fun m hm => ?_⟩
      rcases Entries.mem_extend hm with hm | hm
      · exact hattributes m hm
      · exact (hchildren.2 m hm).2
  rw [elementValue]
  dsimp only
  generalize (if attributes.isEmpty then children
    else Entries.extend (attributeMembers o attributes) children) = members at hmembers ⊢
  split_ifs with hscalar htext
  · exact regular_ofText _
  · exact hmembers
  · refine ⟨Entries.nodup_keys_insert _ _ hmembers.1, membersRegular_iff.2 fun m hm => ?_⟩
    rcases Entries.mem_insert hm with rfl | hm
    · exact regular_ofText _
    · exact membersRegular_iff.1 hmembers.2 m hm

theorem regular_invariant (o : Options) :
    ReadingInvariant o (· ≠ declarationKey) (fun _ => True) (Regular o.convert) where
  good_ne _ h := h
  array _ := allRegular_iff
  element attributes _ text _ := regular_elementValue attributes text

/-- What a tree that is read holds under a key other than that of declarations is regular. -/
theorem regular_of_parse {text : String} {tree : Value} (h : parse o text = .ok tree)
    {key : String} (hkey : key ≠ declarationKey) {path : List Json.Step}
    (hv : tree.at? (.key key :: path) = some v) : Regular o.convert v := by
  have hgood : ∀ n ∈ elementNames text, n.toList.head? ≠ some '?' → n ≠ declarationKey := by
    rintro n - hhead rfl
    exact hhead (by decide)
  obtain ⟨members, rfl, -, hmembers⟩ := (regular_invariant o).parse hgood (fun _ _ => trivial) h
  obtain ⟨root, hroot, hv⟩ := Option.bind_eq_some_iff.1 hv
  rcases hmembers _ (Entries.mem_of_get? hroot) with hdeclaration | hregular
  · exact absurd hdeclaration.1 hkey
  · exact regular_at? hregular.2 hv

end LsxKit.Tree
