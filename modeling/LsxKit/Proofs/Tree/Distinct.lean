import LsxKit.Proofs.Tree.Shape

/-!
# Trees with distinct keys

With distinct keys in every object, equality up to the order of members is an equality of members
under equal keys.

* `Distinct`: values in which the keys of every object are distinct.
* `same_self`: such a value is equal to itself.
* `distinct_of_shaped`, `distinct_document`: the trees of elements and documents are of this kind.
-/

namespace LsxKit.Tree

open Json Xml

mutual

/-- Whether the keys of every object in a value are distinct. -/
def Distinct : Value → Prop
  | .array items => AllDistinct items
  | .object members => (Entries.keys members).Nodup ∧ MembersDistinct members
  | _ => True
  termination_by structural v => v

/-- Whether the keys of every object in several values are distinct. -/
def AllDistinct : List Value → Prop
  | [] => True
  | v :: vs => Distinct v ∧ AllDistinct vs
  termination_by structural vs => vs

/-- Whether the keys of every object in the values of members are distinct. -/
def MembersDistinct : List (String × Value) → Prop
  | [] => True
  | (_, v) :: members => Distinct v ∧ MembersDistinct members
  termination_by structural members => members

end

theorem allDistinct_iff {vs : List Value} : AllDistinct vs ↔ ∀ v ∈ vs, Distinct v := by
  induction vs with
  | nil => simp [AllDistinct]
  | cons v vs ih => rw [AllDistinct, ih, List.forall_mem_cons]

theorem membersDistinct_iff {members : List (String × Value)} :
    MembersDistinct members ↔ ∀ m ∈ members, Distinct m.2 := by
  induction members with
  | nil => simp [MembersDistinct]
  | cons m members ih => rw [MembersDistinct, ih, List.forall_mem_cons]

/-! ## Equality up to the order of members -/

theorem sameMembers_iff {ms ns : List (String × Value)} :
    Value.sameMembers ms ns = true ↔
      ∀ m ∈ ms, ∃ w, Entries.get? m.1 ns = some w ∧ m.2.same w = true := by
  induction ms with
  | nil => simp [Value.sameMembers]
  | cons m ms ih =>
    obtain ⟨k, v⟩ := m
    rw [Value.sameMembers, Bool.and_eq_true, ih, List.forall_mem_cons]
    refine and_congr_left fun _ => ?_
    cases Entries.get? k ns <;> simp

mutual

/-- A value with distinct keys is equal to itself. -/
theorem same_self (v : Value) (hv : Distinct v) : v.same v = true := by
  match v with
  | .array items => exact sameItems_self items hv
  | .object members =>
    rw [Value.same, beq_self_eq_true, Bool.true_and]
    exact sameMembers_self members members hv.1 (fun _ hm => hm) hv.2
  | .number (.int _) | .number (.float _) =>
    simp [Value.same, Number.same, Decimal.Binary64.sameValue]
  | .null | .bool _ | .string _ => simp [Value.same]
  termination_by structural v

theorem sameItems_self (vs : List Value) (hvs : AllDistinct vs) :
    Value.sameItems vs vs = true := by
  match vs with
  | [] => rfl
  | v :: vs => rw [Value.sameItems, same_self v hvs.1, sameItems_self vs hvs.2, Bool.and_self]
  termination_by structural vs

theorem sameMembers_self (all : Entries String Value) (members : List (String × Value))
    (hnodup : (Entries.keys all).Nodup) (hsub : ∀ m ∈ members, m ∈ all)
    (hmembers : MembersDistinct members) : Value.sameMembers members all = true := by
  match members with
  | [] => rfl
  | (key, v) :: members =>
    rw [List.forall_mem_cons] at hsub
    rw [Value.sameMembers, Entries.get?_of_mem hnodup hsub.1, Bool.and_eq_true]
    exact ⟨same_self v hmembers.1,
      sameMembers_self all members hnodup hsub.2 hmembers.2⟩
  termination_by structural members

end

/-! ## Trees of elements and documents -/

variable {o : Options} {path : String}

theorem distinct_ofText (convert : Bool) (s : String) : Distinct (Scalar.ofText convert s) := by
  have hobject := isObject_ofText convert s
  have harray := isArray_ofText convert s
  generalize Scalar.ofText convert s = v at *
  cases v with
  | object members => contradiction
  | array items => contradiction
  | _ => trivial

theorem distinct_attributes {v : Value} (h : AttributesShaped o v) : Distinct v := by
  obtain ⟨own, rfl, -, hnodup, hvalues⟩ := h
  refine ⟨hnodup, membersDistinct_iff.2 fun a ha => ?_⟩
  obtain ⟨-, s, hs⟩ := hvalues a ha
  rw [hs]
  exact distinct_ofText _ s

mutual

/-- The keys in the tree of an element are distinct. -/
theorem distinct_of_shaped (path : String) (v : Value) (h : Shaped o path v) : Distinct v := by
  match v with
  | .array items => exact allDistinct_of_shaped path items h
  | .object members => exact ⟨h.1, membersDistinct_of_shaped path members h.2.2.2⟩
  | .null | .bool _ | .number _ | .string _ => trivial
  termination_by structural v

theorem allDistinct_of_shaped (path : String) (vs : List Value) (h : AllShaped o path vs) :
    AllDistinct vs := by
  match vs with
  | [] => trivial
  | v :: vs =>
    exact ⟨distinct_of_shaped path v h.1.2, allDistinct_of_shaped path vs h.2⟩
  termination_by structural vs

theorem membersDistinct_of_shaped (path : String) (members : List (String × Value))
    (h : MembersShaped o path members) : MembersDistinct members := by
  match members with
  | [] => trivial
  | (key, v) :: members =>
    obtain ⟨hm, hmembers⟩ := h
    refine ⟨?_, membersDistinct_of_shaped path members hmembers⟩
    unfold MemberShaped at hm
    cases hrole : role o key v with
    | child =>
      rw [hrole] at hm
      exact distinct_of_shaped _ v hm.2.2
    | group =>
      rw [hrole] at hm
      exact distinct_attributes hm
    | text =>
      rw [hrole] at hm
      obtain ⟨s, hs, -⟩ := hm
      obtain rfl : v = _ := hs
      exact distinct_ofText _ s
    | _ =>
      rw [hrole] at hm
      obtain ⟨-, s, hs⟩ := hm
      obtain rfl : v = _ := hs
      exact distinct_ofText _ s
  termination_by structural members

end

theorem distinct_declarationValue (d : Declaration) : Distinct (declarationValue o d) := by
  have hmembers : Distinct (.object (declarationMembers o d)) := by
    obtain ⟨version, encoding, standalone⟩ := d
    cases encoding <;> cases standalone <;>
      simp [declarationMembers, Distinct, MembersDistinct, distinct_ofText]
  rw [declarationValue]
  cases o.group with
  | none => exact hmembers
  | some group => exact ⟨by simp, hmembers, trivial⟩

/-- The keys in the tree of a document are distinct. -/
theorem distinct_document {tree : Value} (h : ShapedDocument o tree) : Distinct tree := by
  obtain ⟨members, rfl, hnodup, hmembers⟩ := h
  refine ⟨hnodup, membersDistinct_iff.2 fun m hm => ?_⟩
  have hroot := hmembers m hm
  unfold RootShaped at hroot
  split_ifs at hroot
  · obtain ⟨-, d, hd, -⟩ := hroot
    rw [hd]
    exact distinct_declarationValue d
  · exact distinct_of_shaped m.1 m.2 hroot.2.2

end LsxKit.Tree
