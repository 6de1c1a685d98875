import LsxKit.Descriptor.Node
import Mathlib.Data.List.Nodup

/-!
# Places in trees that are changed

What the look-up of nodes finds in a tree to which a map was applied, and what a replacement
leaves alone.

* `at?_replaceAt_of_ne`: a replacement leaves other paths of the same length alone.
* `KeepsNodes`, `KeepsNodes.node?`: maps of trees that keep the nodes; the node of a kind is found
  at the same path.
* `exists_region_of_rootNode?`, `exists_root_of_node?`: the way to a node that is found.
* `reached_node?`: a node that is found is in the tree, below `save`.
-/

namespace LsxKit.Tree

open Json LsxKit.Descriptor

/-! ## Replacements -/

theorem child?_setChild_of_ne {v : Value} {s s' : Step} (h : s ≠ s') (new : Value) :
    (v.setChild s new).child? s' = v.child? s' := by
  cases v with
  | object members =>
    cases s with
    | index i => cases s' <;> rfl
    | key k =>
      cases s' with
      | index i =>
        simp only [Value.setChild]
        split <;> rfl
      | key k' =>
        have hk : k ≠ k' := fun he => h (by rw [he])
        simp only [Value.setChild]
        split
        · simp [Value.child?, Entries.get?_insert, hk]
        · rfl
  | array items =>
    cases s with
    | key k => cases s' <;> rfl
    | index i =>
      cases s' with
      | key k => rfl
      | index j =>
        have hi : i ≠ j := fun he => h (by rw [he])
        simp [Value.setChild, Value.child?, List.getElem?_set_ne hi]
  | _ => cases s <;> cases s' <;> rfl

/-- A replacement leaves other paths of the same length alone. -/
theorem at?_replaceAt_of_ne {v : Value} {path path' : List Step} (hne : path ≠ path')
    (hlength : path.length = path'.length) (new : Value) :
    (v.replaceAt path new).at? path' = v.at? path' := by
  induction path generalizing v path' with
  | nil =>
    rw [List.length_nil, eq_comm, List.length_eq_zero_iff] at hlength
    exact absurd hlength.symm hne
  | cons s path ih =>
    obtain ⟨s', path', rfl⟩ := List.exists_cons_of_length_eq_add_one hlength.symm
    rw [Value.replaceAt]
    cases hw : v.child? s with
    | none => rfl
    | some w =>
      simp only [Value.at?_cons]
      by_cases hs : s = s'
      · subst hs
        have hsome : (v.child? s).isSome := by simp [hw]
        have hpath : path ≠ path' := fun he => hne (by rw [he])
        rw [Value.child?_setChild hsome, hw, Option.bind_some, Option.bind_some]
        exact ih hpath (by simpa using hlength)
      · rw [child?_setChild_of_ne hs]

/-- A replacement one step inside is a replacement in a member or in an element. -/
theorem replaceAt_cons {v u : Value} {s : Step} {path : List Step}
    (h : v.at? (s :: path) = some u) (new : Value) :
    (∃ members key w, v = .object members ∧ s = .key key ∧ Entries.get? key members = some w ∧
        w.at? path = some u ∧
        v.replaceAt (s :: path) new =
          .object (Entries.insert key (w.replaceAt path new) members)) ∨
      ∃ items i w, v = .array items ∧ s = .index i ∧ items[i]? = some w ∧ w.at? path = some u ∧
        v.replaceAt (s :: path) new = .array (items.set i (w.replaceAt path new)) := by
  rw [Value.at?_cons, Option.bind_eq_some_iff] at h
  obtain ⟨w, hw, hu⟩ := h
  cases v with
  | object members =>
    cases s with
    | index i => contradiction
    | key key =>
      have hget : Entries.get? key members = some w := hw
      refine .inl ⟨members, key, w, rfl, rfl, hget, hu, ?_⟩
      rw [Value.replaceAt, hw]
      simp [Value.setChild, Entries.contains, hget]
  | array items =>
    cases s with
    | key key => contradiction
    | index i =>
      refine .inr ⟨items, i, w, rfl, rfl, hw, hu, ?_⟩
      rw [Value.replaceAt, hw]
      rfl
  | _ => cases s <;> contradiction

/-! ## Maps of trees -/

namespace Place

/-- The place of the mapped value. -/
def map (f : Value → Value) (p : Place) : Place := ⟨p.path, f p.value⟩

/-- The attribute `id` of the tree of an element. -/
def idOf (v : Value) : Option String :=
  ((v.get? attributesGroup).bind (·.get? "id")).bind (·.asString?)

end Place

/-- Whether a map of trees keeps everything on which the look-up of nodes depends: the members on
the way to them, arrays, and whether an id is one of those that are looked for. -/
structure KeepsNodes (f : Value → Value) : Prop where
  get? : ∀ v, ∀ k ∈ ["save", "region", "node", "children", "attribute"],
    (f v).get? k = (v.get? k).map f
  array : ∀ vs, f (.array vs) = .array (vs.map f)
  isArray : ∀ v, (f v).isArray = v.isArray
  id : ∀ v, ∀ s ∈ ["Config", "root", "ModuleInfo"],
    Place.idOf (f v) = some s ↔ Place.idOf v = some s

namespace KeepsNodes

variable {f : Value → Value} (hf : KeepsNodes f)

include hf

theorem member? {k : String} (hk : k ∈ ["save", "region", "node", "children", "attribute"])
    (p : Place) : (p.map f).member? k = (p.member? k).map (Place.map f) := by
  simp [Place.member?, Place.map, hf.get? p.value k hk, Function.comp_def]

theorem entries (p : Place) : (p.map f).entries = p.entries.map (Place.map f) := by
  obtain ⟨path, v⟩ := p
  by_cases harray : v.isArray = true
  · cases v with
    | array vs => simp [Place.entries, Place.map, hf.array, List.zipIdx_map, Function.comp_def]
    | _ => contradiction
  · have hsingle : ∀ p : Place, p.value.isArray = false → p.entries = [p] := by
      rintro ⟨path, v⟩ hv
      cases v with
      | array vs => contradiction
      | _ => rfl
    rw [Bool.not_eq_true] at harray
    rw [hsingle ⟨path, v⟩ harray, hsingle _ ((hf.isArray v).trans harray)]
    rfl

theorem members {k : String} (hk : k ∈ ["save", "region", "node", "children", "attribute"])
    (p : Place) : (p.map f).members k = (p.members k).map (Place.map f) := by
  unfold Place.members
  rw [hf.member? hk]
  cases p.member? k with
  | none => rfl
  | some q => exact hf.entries q

theorem find? {s : String} (hs : s ∈ ["Config", "root", "ModuleInfo"]) (ps : List Place) :
    (ps.map (Place.map f)).find? (·.id? = some s) =
      (ps.find? (·.id? = some s)).map (Place.map f) := by
  rw [List.find?_map]
  have hid : ∀ p : Place, decide ((p.map f).id? = some s) = decide (p.id? = some s) :=
    fun p => decide_eq_decide.2 (hf.id p.value s hs)
  simp only [Function.comp_def, hid]

theorem rootNode? (tree : Value) :
    rootNode? (f tree) = (Descriptor.rootNode? tree).map (Place.map f) := by
  have htop : Place.top (f tree) = (Place.top tree).map f := rfl
  simp only [Descriptor.rootNode?, htop]
  rw [hf.member? (by simp)]
  cases (Place.top tree).member? "save" with
  | none => rfl
  | some save =>
    simp only [Option.map_some, Option.bind_eq_bind, Option.bind_some]
    rw [hf.members (by simp), hf.find? (by simp), List.head?_map, ← Option.map_or]
    cases ((save.members "region").find? (·.id? = some "Config")).or
        (save.members "region").head? with
    | none => rfl
    | some region =>
      simp only [Option.map_some, Option.bind_some]
      rw [hf.members (by simp), hf.find? (by simp)]

theorem childNodes (p : Place) :
    Descriptor.childNodes (p.map f) = (Descriptor.childNodes p).map (Place.map f) := by
  unfold Descriptor.childNodes
  rw [hf.member? (by simp)]
  cases p.member? "children" with
  | none => rfl
  | some q => exact hf.members (by simp) q

/-- The node of the module is found at the same path. -/
theorem node? (tree : Value) :
    Descriptor.node? (f tree) .moduleInfo =
      (Descriptor.node? tree .moduleInfo).map (Place.map f) := by
  unfold Descriptor.node? Descriptor.rootNodes
  rw [hf.rootNode?]
  cases Descriptor.rootNode? tree with
  | none => rfl
  | some root =>
    simp only [Option.map_some]
    rw [hf.childNodes]
    exact hf.find? (by simp [NodeKind.id]) _

end KeepsNodes

/-! ## Places that are found -/

namespace Place

/-- Whether a place is in a tree, below `save` and in no group of attributes. -/
def Reached (tree : Value) (p : Place) : Prop :=
  Within tree p ∧ p.path.head? = some (.key "save") ∧ .key attributesGroup ∉ p.path

variable {tree : Value} {p q : Place}

theorem reached_of_append {rest : List Step} (hp : Reached tree p) (hq : Within tree q)
    (hpath : q.path = p.path ++ rest) (hrest : .key attributesGroup ∉ rest) : Reached tree q := by
  obtain ⟨-, hhead, hgroup⟩ := hp
  refine ⟨hq, ?_, ?_⟩
  · rw [hpath, List.head?_append, hhead]
    rfl
  · rw [hpath, List.mem_append, not_or]
    exact ⟨hgroup, hrest⟩

theorem path_member? {key : String} (h : p.member? key = some q) :
    q.path = p.path ++ [.key key] := by
  obtain ⟨v, -, rfl⟩ := Option.map_eq_some_iff.1 h
  rfl

theorem path_entries (h : q ∈ p.entries) :
    q.path = p.path ∨ ∃ i, q.path = p.path ++ [.index i] := by
  unfold entries at h
  split at h
  · obtain ⟨⟨v, i⟩, -, rfl⟩ := List.mem_map.1 h
    exact .inr ⟨i, rfl⟩
  · rw [List.mem_singleton.1 h]
    exact .inl rfl

theorem reached_member? {key : String} (hp : Reached tree p) (hkey : key ≠ attributesGroup)
    (h : p.member? key = some q) : Reached tree q :=
  reached_of_append hp (within_member? hp.1 h) (path_member? h) (by simpa using hkey.symm)

theorem reached_entries (hp : Reached tree p) (h : q ∈ p.entries) : Reached tree q := by
  have hwithin := within_entries hp.1 h
  rcases path_entries h with hpath | ⟨i, hpath⟩
  · exact reached_of_append hp hwithin (hpath.trans (List.append_nil _).symm) (by simp)
  · exact reached_of_append hp hwithin hpath (by simp)

theorem reached_members {key : String} (hp : Reached tree p) (hkey : key ≠ attributesGroup)
    (h : q ∈ p.members key) : Reached tree q := by
  unfold members at h
  split at h
  · next r hr => exact reached_entries (reached_member? hp hkey hr) h
  · contradiction

end Place

open Place

/-- The root node is a node of a region. -/
theorem exists_region_of_rootNode? {tree : Value} {p : Place} (h : rootNode? tree = some p) :
    ∃ save region, (top tree).member? "save" = some save ∧ region ∈ save.members "region" ∧
      p ∈ region.members "node" := by
  simp only [rootNode?, Option.bind_eq_bind, Option.bind_eq_some_iff] at h
  obtain ⟨save, hsave, region, hregion, hp⟩ := h
  refine ⟨save, region, hsave, ?_, List.mem_of_find?_eq_some hp⟩
  rcases Option.or_eq_some_iff.1 hregion with h | ⟨-, h⟩
  · exact List.mem_of_find?_eq_some h
  · exact List.mem_of_mem_head? h

/-- A node that is found is a child of the root node. -/
theorem exists_root_of_node? {tree : Value} {kind : NodeKind} {p : Place}
    (h : node? tree kind = some p) :
    ∃ root children, rootNode? tree = some root ∧ root.member? "children" = some children ∧
      p ∈ children.members "node" := by
  have hmem : p ∈ rootNodes tree := List.mem_of_find?_eq_some h
  unfold rootNodes at hmem
  split at hmem
  · next root hroot =>
    unfold childNodes at hmem
    split at hmem
    · next children hchildren => exact ⟨root, children, hroot, hchildren, hmem⟩
    · contradiction
  · contradiction

/-- The root node is below `save`. -/
theorem reached_rootNode? {tree : Value} {p : Place} (h : rootNode? tree = some p) :
    Reached tree p := by
  obtain ⟨save, region, hsave, hregion, hp⟩ := exists_region_of_rootNode? h
  have hreached : Reached tree save := by
    refine ⟨within_member? (within_top tree) hsave, ?_, ?_⟩ <;> rw [path_member? hsave]
    · rfl
    · show Step.key attributesGroup ∉ [Step.key "save"]
      decide
  exact reached_members (reached_members hreached (by decide) hregion) (by decide) hp

/-- So is every node that is found. -/
theorem reached_node? {tree : Value} {kind : NodeKind} {p : Place}
    (h : node? tree kind = some p) : Reached tree p := by
  obtain ⟨root, children, hroot, hchildren, hp⟩ := exists_root_of_node? h
  exact reached_members (reached_member? (reached_rootNode? hroot) (by decide) hchildren)
    (by decide) hp

/-- The places of attributes are groups of attributes below `save`. -/
theorem attributePlaces_reached {tree : Value} {p q : Place} (hp : Reached tree p)
    (h : q ∈ attributePlaces p) :
    Within tree q ∧ ∃ r, Reached tree r ∧ q.path = r.path ++ [.key attributesGroup] := by
  obtain ⟨r, hr, hq⟩ := List.mem_filterMap.1 h
  have hreached := reached_members hp (by decide) hr
  exact ⟨within_member? hreached.1 hq, r, hreached, path_member? hq⟩

end LsxKit.Tree
