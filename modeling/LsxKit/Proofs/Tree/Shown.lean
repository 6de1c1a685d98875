import LsxKit.Proofs.Tree.Places
import LsxKit.Proofs.Tree.Written
import LsxKit.Proofs.Xml.Shown

/-!
# Lines of elements in a tree

The start tags of the elements around a node of a descriptor have other names than its attributes,
so what is shown in the marks of an attribute is shown in those of the whole tree.

* `ShownIn`: whether some characters are shown in the marks of a value.
* `shownIn_member`, `shownIn_item`: what is shown in a child or in an element of an array is shown.
* `Around`, `around_attribute`: what is shown in an attribute of a node is shown in the tree.
-/

namespace LsxKit.Tree

open Json Xml Version LsxKit.Descriptor

variable {o : Options} {group tag key : String} {piece : List Char} {v w : Value}
  {members : Entries String Value} {items : List Value} {ms : List Mark}

/-! ## The last mark of a value -/

theorem endsWithTag_nil : EndsWithTag [] := nofun

theorem endsWithTag_concat (ms : List Mark) {m : Mark} (h : m.isText = false) :
    EndsWithTag (ms ++ [m]) := by
  simp [EndsWithTag, h]

theorem endsWithTag_elementMarks (tag : String) (attributes : List (String × String))
    (text : String) (noChildren : Bool) (children : List Mark) :
    EndsWithTag (elementMarks tag attributes text noChildren children) := by
  unfold elementMarks
  split_ifs
  · exact endsWithTag_concat [] rfl
  all_goals exact endsWithTag_concat (_ :: _) rfl

mutual

/-- The marks of a value end with a tag. -/
theorem endsWithTag_valueMarks (tag : String) (v : Value) :
    ∀ ms, valueMarks o tag v = .ok ms → EndsWithTag ms := by
  match v with
  | .array items => exact endsWithTag_itemMarks tag items
  | .object members =>
    intro ms hms
    obtain ⟨attributes, children, -, -, rfl⟩ := valueMarks_object_iff.1 hms
    exact endsWithTag_elementMarks _ _ _ _ _
  | .null | .bool _ | .number _ | .string _ =>
    intro ms hms
    obtain rfl := Except.ok.inj hms
    exact endsWithTag_elementMarks _ _ _ _ _
  termination_by structural v

/-- So do those of several values under a tag. -/
theorem endsWithTag_itemMarks (tag : String) (vs : List Value) :
    ∀ ms, itemMarks o tag vs = .ok ms → EndsWithTag ms := by
  match vs with
  | [] =>
    intro ms hms
    obtain rfl := Except.ok.inj hms
    exact endsWithTag_nil
  | v :: vs =>
    intro ms hms
    obtain ⟨-, own, rest, hown, hrest, rfl⟩ := itemMarks_cons_iff.1 hms
    exact endsWithTag_append (endsWithTag_valueMarks tag v own hown)
      (endsWithTag_itemMarks tag vs rest hrest)
  termination_by structural vs

end

/-! ## What is shown in a value -/

/-- Whether some characters are shown in the marks of a value under a tag, if no bracket is in the
name of an attribute. -/
def ShownIn (o : Options) (piece : List Char) (tag : String) (v : Value) : Prop :=
  ∀ ms, valueMarks o tag v = .ok ms → Keyed ('<' ∉ ·.toList) ms → Shown piece ms

/-- What is shown in an element of an array is shown. -/
theorem shownIn_item (hw : w ∈ items) (h : ShownIn o piece tag w) :
    ShownIn o piece tag (.array items) := by
  intro ms hms
  replace hms : itemMarks o tag items = .ok ms := hms
  induction items generalizing ms with
  | nil => contradiction
  | cons v items ih =>
    intro hkeyed
    obtain ⟨-, own, rest, hown, hrest, rfl⟩ := itemMarks_cons_iff.1 hms
    rw [keyed_append] at hkeyed
    rcases List.mem_cons.1 hw with rfl | hw
    · exact shown_append (h own hown hkeyed.1) rest
    · exact shown_append_left (endsWithTag_valueMarks tag v own hown) (ih hw rest hrest hkeyed.2)

/-- What is shown in one of several members is shown among the marks of all of them, each of which
has marks that end with a tag. -/
theorem shown_members {own : String → Value → Except TreeFault (List Mark)}
    {all : List (String × Value) → Except TreeFault (List Mark)}
    (hcons : ∀ {k v members ms}, all ((k, v) :: members) = .ok ms →
      ∃ first rest, own k v = .ok first ∧ all members = .ok rest ∧ ms = first ++ rest)
    (hend : ∀ {k v ms}, own k v = .ok ms → EndsWithTag ms)
    (hget : Entries.get? key members = some w)
    (h : ∀ ms, own key w = .ok ms → Keyed ('<' ∉ ·.toList) ms → Shown piece ms)
    (hms : all members = .ok ms) (hkeyed : Keyed ('<' ∉ ·.toList) ms) : Shown piece ms := by
  induction members generalizing ms with
  | nil => contradiction
  | cons m members ih =>
    obtain ⟨k, v⟩ := m
    obtain ⟨first, rest, hfirst, hrest, rfl⟩ := hcons hms
    rw [keyed_append] at hkeyed
    rw [Entries.get?] at hget
    split_ifs at hget with hk
    · obtain rfl := Option.some.inj hget
      subst hk
      exact shown_append (h first hfirst hkeyed.1) rest
    · exact shown_append_left (hend hfirst) (ih hget hrest hkeyed.2)

/-- What is shown in a child is shown among the children. -/
theorem shown_childMarks (hget : Entries.get? key members = some w)
    (hrole : role o key w = .child) (h : ShownIn o piece key w)
    (hms : childMarks o members = .ok ms) (hkeyed : Keyed ('<' ∉ ·.toList) ms) :
    Shown piece ms := by
  refine shown_members childMarks_cons_iff.1 (fun {k v ms} hown => ?_) hget ?_ hms hkeyed
  · split_ifs at hown
    · exact endsWithTag_valueMarks k v ms hown
    · obtain rfl := Except.ok.inj hown
      exact endsWithTag_nil
  · rwa [if_pos hrole]

/-- What is shown in a root is shown in the document. -/
theorem shown_documentMarks (hkey : key ≠ declarationKey)
    (hget : Entries.get? key members = some w) (h : ShownIn o piece key w)
    (hms : documentMarks o members = .ok ms) (hkeyed : Keyed ('<' ∉ ·.toList) ms) :
    Shown piece ms := by
  refine shown_members documentMarks_cons_iff.1 (fun {k v ms} hown => ?_) hget ?_ hms hkeyed
  · split_ifs at hown
    · obtain rfl := Except.ok.inj hown
      exact endsWithTag_concat [] rfl
    · exact endsWithTag_valueMarks k v ms hown
  · rwa [if_neg hkey]

/-- Whether a start tag with a name is calm if no bracket is in the names of its attributes. -/
def CalmTag (tag : String) : Prop :=
  ∃ c rest, tag.toList = c :: rest ∧ c ≠ 'a' ∧ '<' ∉ tag.toList

/-- What is shown in a child of an element is shown. -/
theorem shownIn_member (htag : CalmTag tag) (hget : v.get? key = some w)
    (hrole : role o key w = .child) (h : ShownIn o piece key w) : ShownIn o piece tag v := by
  intro ms hms hkeyed
  cases v with
  | object members =>
    obtain ⟨attributes, children, -, hchildren, rfl⟩ := valueMarks_object_iff.1 hms
    have hsome : (members.all fun m => role o m.1 m.2 ≠ .child) = false := by
      rw [← Bool.not_eq_true, List.all_eq_true]
      intro hall
      have hnone := hall _ (Entries.mem_of_get? hget)
      simp [hrole] at hnone
    rw [elementMarks, hsome, Bool.false_and, if_neg (by simp), List.cons_append] at hkeyed ⊢
    obtain ⟨c, rest, hname, hc, hbracket⟩ := htag
    simp only [keyed_append, keyed_cons] at hkeyed
    obtain ⟨⟨hattributes, -, hinner⟩, -⟩ := hkeyed
    exact shown_append (shown_element (calm_start hname hc hbracket hattributes) _
      (shown_childMarks hget hrole h hchildren hinner)) _
  | _ => contradiction

/-! ## Places of descriptors -/

/-- Whether what is shown in a value under a tag is shown in a tree. -/
def Around (tree v : Value) (tag : String) : Prop :=
  ∀ piece, ShownIn .descriptor piece tag v → ∀ ms, marks .descriptor tree = .ok ms →
    Keyed ('<' ∉ ·.toList) ms → Shown piece ms

namespace Place

variable {tree : Value} {p q : Place}

theorem around_top (hkey : key ≠ declarationKey) (h : (top tree).member? key = some q) :
    Around tree q.value key := by
  intro piece hpiece ms hms hkeyed
  obtain ⟨w, hw, rfl⟩ := Option.map_eq_some_iff.1 h
  cases tree with
  | object members => exact shown_documentMarks hkey hw hpiece hms hkeyed
  | _ => contradiction

theorem around_member? (hp : Around tree p.value tag) (htag : CalmTag tag)
    (hgroup : key ≠ attributesGroup) (htext : key ≠ textKey) (h : p.member? key = some q) :
    Around tree q.value key := by
  intro piece hpiece
  obtain ⟨w, hw, rfl⟩ := Option.map_eq_some_iff.1 h
  exact hp piece (shownIn_member htag hw (role_eq_child rfl hgroup htext w) hpiece)

theorem around_entries (hp : Around tree p.value tag) (h : q ∈ p.entries) :
    Around tree q.value tag := by
  intro piece hpiece
  refine hp piece ?_
  unfold entries at h
  split at h
  · next vs hvs =>
    obtain ⟨⟨w, i⟩, hmem, rfl⟩ := List.mem_map.1 h
    rw [hvs]
    exact shownIn_item (List.fst_mem_of_mem_zipIdx hmem) hpiece
  · rwa [← List.mem_singleton.1 h]

theorem around_members (hp : Around tree p.value tag) (htag : CalmTag tag)
    (hgroup : key ≠ attributesGroup) (htext : key ≠ textKey) (h : q ∈ p.members key) :
    Around tree q.value key := by
  unfold members at h
  split at h
  · next r hr => exact around_entries (around_member? hp htag hgroup htext hr) h
  · contradiction

end Place

open Place

/-- What is shown in the root node is shown in the tree. -/
theorem around_rootNode? {tree : Value} {p : Place} (h : rootNode? tree = some p) :
    Around tree p.value "node" := by
  obtain ⟨save, region, hsave, hregion, hp⟩ := exists_region_of_rootNode? h
  have hcalm : CalmTag "save" ∧ CalmTag "region" :=
    ⟨⟨'s', _, rfl, by decide, by decide⟩, ⟨'r', _, rfl, by decide, by decide⟩⟩
  have hsave := around_top (by decide) hsave
  have hregion := around_members hsave hcalm.1 (by decide) (by decide) hregion
  exact around_members hregion hcalm.2 (by decide) (by decide) hp

/-- So is what is shown in an attribute of a node that is found. -/
theorem around_attribute {tree : Value} {kind : NodeKind} {p q : Place}
    (h : node? tree kind = some p) (hq : q ∈ p.members "attribute") :
    Around tree q.value "attribute" := by
  obtain ⟨root, children, hroot, hchildren, hp⟩ := exists_root_of_node? h
  have hcalm : CalmTag "node" ∧ CalmTag "children" :=
    ⟨⟨'n', _, rfl, by decide, by decide⟩, ⟨'c', _, rfl, by decide, by decide⟩⟩
  have hroot := around_rootNode? hroot
  have hchildren := around_member? hroot hcalm.1 (by decide) (by decide) hchildren
  have hnode := around_members hchildren hcalm.2 (by decide) (by decide) hp
  exact around_members hnode hcalm.1 (by decide) (by decide) hq

end LsxKit.Tree
