import LsxKit.Proofs.Tree.Places
import LsxKit.Proofs.Tree.Shape

/-!
# Changes that keep the shape of a tree

With a group for attributes the role of a member depends on its key alone, so another value of the
same role under a key leaves an element in shape.

* `role_congr`, `arranged_map`: what does not depend on the values of members.
* `shaped_insert`: another value of a member.
* `shaped_replaceAt`, `shapedDocument_replaceAt`: another group of attributes inside a tree.
-/

namespace LsxKit.Tree

open Json

variable {o : Options} {path group : String}

/-! ## Roles by key -/

/-- With a group, the role of a member depends on its key. -/
theorem role_congr (hg : o.group = some group) (key : String) (v w : Value) :
    role o key v = role o key w := by
  simp only [role, hg, Option.isNone_some, Bool.false_and]

theorem role_eq_child (hg : o.group = some group) {key : String} (hgroup : key ≠ group)
    (htext : key ≠ textKey) (v : Value) : role o key v = .child := by
  simp [role, hg, htext, hgroup.symm]

/-- So does the place of a member in the order of reading. -/
theorem arranged_map (hg : o.group = some group) {f : String × Value → String × Value}
    (hf : ∀ m, (f m).1 = m.1) (members : List (String × Value)) :
    arranged o (members.map f) = (arranged o members).map f := by
  have hrole : ∀ m, role o (f m).1 (f m).2 = role o m.1 m.2 := by
    intro m
    rw [hf, role_congr hg m.1 (f m).2 m.2]
  have hleading : isLeading o ∘ f = isLeading o := funext fun m => by simp [isLeading, hrole]
  have hchild : isChild o ∘ f = isChild o := funext fun m => by simp [isChild, hrole]
  have htext : isText o ∘ f = isText o := funext fun m => by simp [isText, hrole]
  rw [arranged, List.filter_map, List.filter_map, List.filter_map, hleading, hchild, htext,
    ← List.map_append, ← List.map_append, arranged]

/-- An element stays in shape under a map of its members that keeps keys and roles. -/
theorem shaped_map (hg : o.group = some group) {members : List (String × Value)}
    {f : String × Value → String × Value} (hf : ∀ m, (f m).1 = m.1)
    (h : Shaped o path (.object members))
    (hmembers : ∀ m ∈ members,
      MemberShaped o path (f m) (Shaped o (path ++ "." ++ m.1) (f m).2)) :
    Shaped o path (.object (members.map f)) := by
  obtain ⟨hnodup, ⟨m, hm, hrole⟩, harranged, -⟩ := h
  refine ⟨?_, ⟨f m, List.mem_map_of_mem hm, ?_⟩, fun hsome => ?_, ?_⟩
  · have hkeys : Entries.keys (members.map f) = Entries.keys members := by
      simp [Entries.keys, List.map_map, Function.comp_def, hf]
    rw [hkeys]
    exact hnodup
  · rwa [hf, role_congr hg m.1 (f m).2 m.2]
  · rw [arranged_map hg hf, ← harranged hsome]
  · rw [membersShaped_iff]
    intro m' hm'
    obtain ⟨m, hm, rfl⟩ := List.mem_map.1 hm'
    rw [hf]
    exact hmembers m hm

/-! ## Another value of a member -/

theorem shaped_insert (hg : o.group = some group) {members : Entries String Value} {key : String}
    {v w : Value} (h : Shaped o path (.object members))
    (hget : Entries.get? key members = some v)
    (hw : MemberShaped o path (key, w) (Shaped o (path ++ "." ++ key) w)) :
    Shaped o path (.object (Entries.insert key w members)) := by
  have hmem : key ∈ Entries.keys members := by
    by_contra hnot
    rw [(Entries.get?_eq_none_iff key members).2 hnot] at hget
    contradiction
  rw [Entries.insert_eq_map h.1 hmem]
  refine shaped_map hg (fun m => ?_) h fun m hm => ?_
  · split_ifs with hkey
    · exact hkey.symm
    · rfl
  · split_ifs with hkey
    · rw [hkey]
      exact hw
    · exact membersShaped_iff.1 h.2.2.2 m hm

/-- Whether elements of a tag are in an array does not depend on what they hold. -/
theorem counted_set {tag : String} {items : List Value} {i : Nat} {v : Value}
    (h : Counted o tag path (.array items)) : Counted o tag path (.array (items.set i v)) := by
  refine ⟨?_, ?_⟩
  · rw [ne_eq, List.set_eq_nil_iff]
    exact h.1
  · rw [List.length_set]
    exact h.2

theorem counted_object {tag : String} {members members' : List (String × Value)}
    (h : Counted o tag path (.object members)) : Counted o tag path (.object members') := h

/-! ## Another group of attributes -/

/-- Nothing is inside a scalar. -/
theorem at?_ofText {convert : Bool} {s : String} {steps : List Step} (h : steps ≠ []) :
    (Scalar.ofText convert s).at? steps = none := by
  obtain ⟨step, steps, rfl⟩ := List.exists_cons_of_ne_nil h
  have hobject := isObject_ofText convert s
  have harray := isArray_ofText convert s
  rw [Value.at?_cons]
  generalize Scalar.ofText convert s = v at *
  cases v with
  | object members => contradiction
  | array items => contradiction
  | _ => cases step <;> rfl

/-- Another group of attributes inside the tree of an element, or inside one of several. -/
theorem shaped_replaceAt (hg : o.group = some group) (hne : group ≠ textKey) {steps : List Step}
    (hsteps : .key group ∉ steps) {v u new : Value} (h : Shaped o path v)
    (hat : v.at? (steps ++ [.key group]) = some u)
    (hnew : AttributesShaped o u → AttributesShaped o new) :
    Shaped o path (v.replaceAt (steps ++ [.key group]) new) ∧
      (v.replaceAt (steps ++ [.key group]) new).isArray = v.isArray ∧
      ∀ tag inner, Counted o tag inner v →
        Counted o tag inner (v.replaceAt (steps ++ [.key group]) new) := by
  induction steps generalizing v path with
  | nil =>
    rcases replaceAt_cons hat new with
      ⟨members, key, w, rfl, hkey, hget, hw, hreplace⟩ | ⟨items, i, w, -, hkey, -⟩
    · obtain rfl : group = key := by simpa using hkey
      obtain rfl : w = u := by simpa using hw
      have hm := membersShaped_iff.1 h.2.2.2 _ (Entries.mem_of_get? hget)
      rw [MemberShaped, role_group hg hne] at hm
      rw [List.nil_append, hreplace]
      refine ⟨shaped_insert hg h hget ?_, rfl, fun _ _ => counted_object⟩
      rw [MemberShaped, role_group hg hne]
      exact hnew hm
    · contradiction
  | cons s steps ih =>
    rw [List.mem_cons, not_or] at hsteps
    rw [List.cons_append] at hat ⊢
    rcases replaceAt_cons hat new with
      ⟨members, key, w, rfl, rfl, hget, hw, hreplace⟩ | ⟨items, i, w, rfl, rfl, hget, hw, hreplace⟩
    · rw [hreplace]
      refine ⟨shaped_insert hg h hget ?_, rfl, fun _ _ => counted_object⟩
      have hm := membersShaped_iff.1 h.2.2.2 _ (Entries.mem_of_get? hget)
      -- Only a child has something inside that is a group.
      have hchild : role o key w = .child := by
        refine role_eq_child hg (fun he => hsteps.1 (by rw [he])) ?_ w
        rintro rfl
        rw [MemberShaped, role_textKey] at hm
        obtain ⟨s, hs, -⟩ := hm
        obtain rfl : w = _ := hs
        rw [at?_ofText] at hw
        · contradiction
        · simp
      rw [MemberShaped, hchild] at hm
      obtain ⟨hgood, hcounted, hshaped⟩ := hm
      obtain ⟨hshaped', -, hcounted'⟩ := ih hsteps.2 hshaped hw
      rw [MemberShaped, role_congr hg key _ w, hchild]
      exact ⟨hgood, hcounted' _ _ hcounted, hshaped'⟩
    · rw [hreplace]
      refine ⟨?_, rfl, fun _ _ => counted_set⟩
      have hitems : ∀ v ∈ items, v.isArray = false ∧ Shaped o path v := allShaped_iff.1 h
      obtain ⟨harray, hshaped⟩ := hitems w (List.mem_of_getElem? hget)
      obtain ⟨hshaped', harray', -⟩ := ih hsteps.2 hshaped hw
      refine allShaped_iff.2 fun v hv => ?_
      rcases List.mem_or_eq_of_mem_set hv with hv | rfl
      · exact hitems v hv
      · exact ⟨harray'.trans harray, hshaped'⟩

/-- Another group of attributes inside the tree of a document. -/
theorem shapedDocument_replaceAt (hg : o.group = some group) (hne : group ≠ textKey)
    {steps : List Step} (hsteps : .key group ∉ steps) {tag : String}
    (hhead : steps.head? = some (.key tag)) (htag : tag ≠ declarationKey) {tree u new : Value}
    (h : ShapedDocument o tree) (hat : tree.at? (steps ++ [.key group]) = some u)
    (hnew : AttributesShaped o u → AttributesShaped o new) :
    ShapedDocument o (tree.replaceAt (steps ++ [.key group]) new) := by
  obtain ⟨members, rfl, hnodup, hmembers⟩ := h
  obtain ⟨s, steps, rfl⟩ : ∃ s rest, steps = s :: rest := by
    cases steps with
    | nil => contradiction
    | cons s rest => exact ⟨s, rest, rfl⟩
  obtain rfl : s = .key tag := by simpa using hhead
  rw [List.mem_cons, not_or] at hsteps
  rw [List.cons_append] at hat ⊢
  rcases replaceAt_cons hat new with
    ⟨members', key, w, hmembers', hkey, hget, hw, hreplace⟩ | ⟨items, i, w, -, hkey, -⟩
  · obtain rfl : members = members' := by simpa using hmembers'
    obtain rfl : tag = key := by simpa using hkey
    rw [hreplace]
    refine ⟨_, rfl, Entries.nodup_keys_insert _ _ hnodup, fun m hm => ?_⟩
    rcases Entries.mem_insert hm with rfl | hm
    · have hroot := hmembers _ (Entries.mem_of_get? hget)
      rw [RootShaped, if_neg htag] at hroot ⊢
      obtain ⟨hgood, hcounted, hshaped⟩ := hroot
      obtain ⟨hshaped', -, hcounted'⟩ := shaped_replaceAt hg hne hsteps.2 hshaped hw hnew
      exact ⟨hgood, hcounted' _ _ hcounted, hshaped'⟩
    · exact hmembers m hm
  · contradiction

/-- Another value of an attribute. -/
theorem attributesShaped_insert {own : Entries String Value} {name : String}
    (h : AttributesShaped o (.object own)) (hname : o.Good name) (s : String) :
    AttributesShaped o (.object (Entries.insert name (Scalar.ofText o.convert s) own)) := by
  obtain ⟨own', hown, hnil, hnodup, hvalues⟩ := h
  obtain rfl : own = own' := by simpa using hown
  refine ⟨_, rfl, ?_, Entries.nodup_keys_insert _ _ hnodup, fun a ha => ?_⟩
  · obtain ⟨a, rest, rfl⟩ := List.exists_cons_of_ne_nil hnil
    rw [Entries.insert]
    split_ifs <;> simp
  · rcases Entries.mem_insert ha with rfl | ha
    · exact ⟨hname, s, rfl⟩
    · exact hvalues a ha

end LsxKit.Tree
