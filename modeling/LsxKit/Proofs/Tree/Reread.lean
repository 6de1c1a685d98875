import LsxKit.Proofs.Tree.Distinct
import LsxKit.Proofs.Tree.Elements

/-!
# Trees after writing and reading

Reading the elements of a tree gives the tree back, its members in the order in which they are
read: attributes, children, text.

* `reread`: the tree in that order.
* `trees_elementsOf`: reading the elements of a tree gives it.
* `same_reread`: it is equal up to the order of members; `reread_eq`: with a group for attributes
  it is the tree itself.
-/

namespace LsxKit.Tree

open Json Xml

/-! ## The order in which members are read -/

mutual

/-- A tree with members in the order in which they are read. -/
def reread (o : Options) : Value → Value
  | .array items => .array (rereadItems o items)
  | .object members =>
    .object (members.filter (isLeading o) ++
      (rereadMembers o members ++ members.filter (isText o)))
  | v => v
  termination_by structural v => v

/-- Trees with members in the order in which they are read. -/
def rereadItems (o : Options) : List Value → List Value
  | [] => []
  | v :: vs => reread o v :: rereadItems o vs
  termination_by structural vs => vs

/-- The children among members, each with its own members in the order in which they are read. -/
def rereadMembers (o : Options) : List (String × Value) → List (String × Value)
  | [] => []
  | (key, v) :: members =>
    if isChild o (key, v) then (key, reread o v) :: rereadMembers o members
    else rereadMembers o members
  termination_by structural members => members

end

variable {o : Options} {path tag : String}

theorem isArray_reread (v : Value) : (reread o v).isArray = v.isArray := by
  cases v <;> rfl

theorem rereadItems_eq (vs : List Value) : rereadItems o vs = vs.map (reread o) := by
  induction vs with
  | nil => rfl
  | cons v vs ih => rw [rereadItems, ih, List.map_cons]

theorem rereadMembers_eq (members : List (String × Value)) :
    rereadMembers o members = (members.filter (isChild o)).map fun m => (m.1, reread o m.2) := by
  induction members with
  | nil => rfl
  | cons m members ih =>
    rw [rereadMembers, List.filter_cons, ih]
    split_ifs <;> rfl

theorem keys_rereadMembers (members : List (String × Value)) :
    Entries.keys (rereadMembers o members) = Entries.keys (members.filter (isChild o)) := by
  rw [rereadMembers_eq, Entries.keys, List.map_map]
  rfl

/-! ## Children that are read -/

/-- The tree of an element at a dotted path. -/
def elementTree (o : Options) (path : String) : Element → Value
  | .mk _ attributes text children =>
    elementValue o attributes (addContent o path [] (nodesOf children)) text.toList

theorem contentText_nodesOf (es : List Element) : contentText (nodesOf es) = [] := by
  induction es with
  | nil => rfl
  | cons e es ih =>
    obtain ⟨name, attributes, text, children⟩ := e
    exact ih

theorem contentText_node (text : String) (es : List Element) :
    contentText (textNodes text ++ nodesOf es) = text.toList := by
  unfold textNodes
  split_ifs with h
  · simp [h, contentText_nodesOf]
  · simp [contentText, contentText_nodesOf]

theorem addContent_textNodes (text : String) (members : Entries String Value) (ns : List Node) :
    addContent o path members (textNodes text ++ ns) = addContent o path members ns := by
  unfold textNodes
  split_ifs
  · rfl
  · rfl

theorem addContent_append (members : Entries String Value) (ns ns' : List Node) :
    addContent o path members (ns ++ ns') =
      addContent o path (addContent o path members ns) ns' := by
  induction ns generalizing members with
  | nil => rfl
  | cons n ns ih => exact ih (addNode o path members n)

/-- Elements of one tag are added under it, one after the other. -/
theorem addContent_elements {es : List Element} (hname : ∀ e ∈ es, e.name = tag)
    (members : Entries String Value) :
    addContent o path members (nodesOf es) =
      (es.map (elementTree o (path ++ "." ++ tag))).foldl
        (fun ms t => addChild ms tag t (o.alwaysArray tag (path ++ "." ++ tag))) members := by
  induction es generalizing members with
  | nil => rfl
  | cons e es ih =>
    have he := hname e List.mem_cons_self
    obtain ⟨name, attributes, text, children⟩ := e
    obtain rfl : name = tag := he
    rw [nodesOf, Element.node, addContent, addNode, contentText_node, addContent_textNodes,
      ih fun e he => hname e (List.mem_cons_of_mem _ he)]
    rfl

/-- The value of several trees under one tag. -/
def gathered (forced : Bool) : List Value → Value
  | [v] => if forced then .array [v] else v
  | vs => .array vs

theorem addChild_gathered {members : Entries String Value} (htag : tag ∉ Entries.keys members)
    (forced : Bool) {vs : List Value} (hne : vs ≠ []) (hvs : ∀ v ∈ vs, v.isArray = false)
    (v : Value) :
    addChild (members ++ [(tag, gathered forced vs)]) tag v forced =
      members ++ [(tag, gathered forced (vs ++ [v]))] := by
  rw [addChild, Entries.alter_append htag]
  cases vs with
  | nil => contradiction
  | cons w vs =>
    cases vs with
    | cons w' vs => rfl
    | nil =>
      have hw := hvs w List.mem_cons_self
      cases forced with
      | true => rfl
      | false =>
        cases w with
        | array items => contradiction
        | _ => rfl

/-- Trees under a new tag are gathered at the end. -/
theorem foldl_addChild {members : Entries String Value} (htag : tag ∉ Entries.keys members)
    (forced : Bool) {vs : List Value} (hne : vs ≠ []) (hvs : ∀ v ∈ vs, v.isArray = false) :
    vs.foldl (fun ms t => addChild ms tag t forced) members =
      members ++ [(tag, gathered forced vs)] := by
  have hmore : ∀ done rest : List Value, done ≠ [] → (∀ v ∈ done ++ rest, v.isArray = false) →
      rest.foldl (fun ms t => addChild ms tag t forced)
        (members ++ [(tag, gathered forced done)]) =
          members ++ [(tag, gathered forced (done ++ rest))] := by
    intro done rest
    induction rest generalizing done with
    | nil => simp
    | cons v rest ih =>
      intro hdone hall
      have hbefore : ∀ w ∈ done, w.isArray = false :=
        fun w hw => hall w (List.mem_append_left _ hw)
      rw [List.foldl_cons, addChild_gathered htag forced hdone hbefore,
        ih (done ++ [v]) (by simp) (by simpa using hall)]
      simp
  obtain ⟨v, vs, rfl⟩ := List.exists_cons_of_ne_nil hne
  have hfirst : addChild members tag v forced = members ++ [(tag, gathered forced [v])] := by
    rw [addChild, Entries.alter_eq_insert, (Entries.get?_eq_none_iff _ _).2 htag,
      Entries.insert_of_not_mem htag]
    rfl
  rw [List.foldl_cons, hfirst, hmore [v] vs (by simp) hvs]
  rfl

/-- Trees are gathered into the value that they came from. -/
theorem gathered_asList {v : Value} (h : Counted o tag path v) :
    gathered (o.alwaysArray tag path) (reread o v).asList = reread o v := by
  cases v with
  | array items =>
    cases items with
    | nil => exact absurd rfl h.1
    | cons w ws =>
      cases ws with
      | cons w' ws => rfl
      | nil =>
        have hforced := h.2 rfl
        rw [hforced]
        rfl
  | _ =>
    have hforced : o.alwaysArray tag path = false := h
    rw [hforced]
    rfl

/-! ## Attributes and text that are read -/

/-- Written values are read back. -/
theorem attributeValues_render {values : Entries String Value}
    (hnodup : (Entries.keys values).Nodup)
    (hvalues : ∀ a ∈ values, ∃ s, a.2 = Scalar.ofText o.convert s) :
    attributeValues o (values.map fun a => (a.1, Scalar.render a.2)) = values := by
  have hmap : (values.map fun a => (a.1, Scalar.render a.2)).map
      (fun a => (a.1, Scalar.ofText o.convert a.2)) = values := by
    rw [List.map_map]
    refine (List.map_congr_left fun a ha => ?_).trans (List.map_id values)
    obtain ⟨k, v⟩ := a
    obtain ⟨s, hs⟩ := hvalues _ ha
    obtain rfl : v = _ := hs
    simp [Scalar.render_ofText]
  have hextend : attributeValues o (values.map fun a => (a.1, Scalar.render a.2)) =
      Entries.extend [] values := by
    rw [attributeValues]
    exact congrArg (Entries.extend []) hmap
  rw [hextend, Entries.extend_of_nodup [] (by simpa using hnodup), List.nil_append]

/-- The attributes of the tree of an element are read as its first members. -/
theorem leadingMembers_attributesOf (hgroup : o.group ≠ some textKey)
    {members : Entries String Value} (hnodup : (Entries.keys members).Nodup)
    (h : MembersShaped o path members) :
    leadingMembers o (attributesOf o members) = members.filter (isLeading o) := by
  rw [membersShaped_iff] at h
  cases hg : o.group with
  | none =>
    have hkeys : (Entries.keys (members.filter (isLeading o))).Nodup :=
      hnodup.sublist (List.filter_sublist.map _)
    have hvalues : ∀ m ∈ members.filter (isLeading o), ∃ s, m.2 = Scalar.ofText o.convert s := by
      intro m hm
      obtain ⟨hmem, hleading⟩ := List.mem_filter.1 hm
      have hrole : role o m.1 m.2 = .attribute := by
        simpa [isLeading, role_ne_group hg] using hleading
      have hshaped := h m hmem
      rw [MemberShaped, hrole] at hshaped
      exact hshaped.2
    rw [leadingMembers, attributeMembers, hg, attributesOf_none hg]
    split_ifs with hempty
    · simpa using hempty
    · exact attributeValues_render hkeys hvalues
  | some group =>
    have hne : group ≠ textKey := fun he => hgroup (by rw [hg, he])
    have hfilter : members.filter (isLeading o) =
        ((Entries.get? group members).map fun v => (group, v)).toList := by
      rw [← Entries.filter_key hnodup]
      exact List.filter_congr fun m _ => isLeading_iff hg hne m
    rw [hfilter, attributesOf_some hg hne hnodup]
    cases hget : Entries.get? group members with
    | none => rfl
    | some v =>
      have hshaped := h _ (Entries.mem_of_get? hget)
      rw [MemberShaped, role_group hg hne] at hshaped
      obtain ⟨own, hown, hownne, hkeys, hvalues⟩ := hshaped
      obtain rfl : v = _ := hown
      have hempty : (own.map fun a => (a.1, Scalar.render a.2)).isEmpty = false := by
        simpa using hownne
      have hread := attributeValues_render hkeys fun a ha => (hvalues a ha).2
      rw [Option.map_some, Option.getD_some, groupAttributes_object, leadingMembers, hempty,
        attributeMembers, hg]
      simp only [Bool.false_eq_true, if_false, Option.map_some, Option.toList_some]
      exact congrArg (fun values => [(group, Value.object values)]) hread

/-- The text of the tree of an element is read as its text member. -/
theorem textMembers_memberText {members : Entries String Value}
    (hnodup : (Entries.keys members).Nodup) (h : MembersShaped o path members) :
    textMembers o (memberText members) = members.filter (isText o) := by
  have htext : ∀ m : String × Value, isText o m = decide (m.1 = textKey) := by
    intro m
    unfold isText role
    split_ifs <;> simp_all
  have hfilter : members.filter (isText o) =
      ((Entries.get? textKey members).map fun v => (textKey, v)).toList := by
    rw [← Entries.filter_key hnodup]
    exact List.filter_congr fun m _ => htext m
  rw [hfilter, memberText]
  cases hget : Entries.get? textKey members with
  | none => rfl
  | some v =>
    have hshaped := membersShaped_iff.1 h _ (Entries.mem_of_get? hget)
    rw [MemberShaped, role_textKey] at hshaped
    obtain ⟨s, hs, hne, -⟩ := hshaped
    obtain rfl : v = _ := hs
    simp [textMembers, Scalar.render_ofText, hne]

/-! ## Elements that are read -/

theorem elementTree_text (tag text : String) (h : Text.Trimmed Text.isBlank text.toList) :
    elementTree o path (.mk tag [] text []) = Scalar.ofText o.convert text := by
  simp [elementTree, elementValue, nodesOf, addContent, Text.trimBy_of_trimmed h]

/-- The members of an element are read in their order. -/
theorem elementValue_members (hgroup : o.group ≠ some textKey)
    {members : Entries String Value} (h : Shaped o path (.object members)) :
    elementValue o (attributesOf o members) (rereadMembers o members)
      (memberText members).toList = reread o (.object members) := by
  obtain ⟨hnodup, ⟨m, hm, hrole⟩, -, hmembers⟩ := h
  have hleading := leadingMembers_attributesOf hgroup hnodup hmembers
  have hexclusive : ∀ m : String × Value, isLeading o m = true → isChild o m = false := by
    intro m hm
    rcases classes o m with h | h | h <;> simp_all
  have hkeys := Entries.nodup_keys_filter_append hnodup hexclusive
  rw [Entries.keys_append, ← keys_rereadMembers, ← Entries.keys_append] at hkeys
  have hextend : Entries.extend (leadingMembers o (attributesOf o members))
      (rereadMembers o members) = members.filter (isLeading o) ++ rereadMembers o members := by
    rw [hleading, Entries.extend_of_nodup _ hkeys]
  have htext : textKey ∉ Entries.keys (Entries.extend (leadingMembers o (attributesOf o members))
      (rereadMembers o members)) := by
    rw [hextend, Entries.keys_append, keys_rereadMembers, ← Entries.keys_append]
    apply textKey_not_mem (o := o)
    intro m hm
    rcases List.mem_append.1 hm with hm | hm
    · exact role_ne_text_of_leading (List.mem_filter.1 hm).2
    · have := (List.mem_filter.1 hm).2
      simp only [isChild, decide_eq_true_eq] at this
      simp [this]
  have hne : attributesOf o members ≠ [] ∨ rereadMembers o members ≠ [] := by
    by_contra hnone
    rw [not_or, not_not, not_not] at hnone
    have hnil : members.filter (isLeading o) = [] := by
      rw [← hleading, hnone.1]
      rfl
    have hchildren : members.filter (isChild o) = [] := by
      have hkeys := keys_rereadMembers (o := o) members
      rw [hnone.2] at hkeys
      simpa [Entries.keys] using hkeys.symm
    have hnot := List.filter_eq_nil_iff.1 hnil m hm
    have hnot' := List.filter_eq_nil_iff.1 hchildren m hm
    have htext : isText o m = true := by
      rcases classes o m with h | h | h <;> simp_all
    exact hrole (by simpa [isText] using htext)
  have hchildren : (Entries.keys (rereadMembers o members)).Nodup := by
    rw [Entries.keys_append, List.nodup_append] at hkeys
    exact hkeys.2.1
  rw [elementValue_eq hchildren htext hne, hextend,
    Text.trimBy_of_trimmed (trimmed_memberText hmembers), String.ofList_toList,
    textMembers_memberText hnodup hmembers, reread, List.append_assoc]

theorem name_elementsOf (tag : String) {v : Value} (h : Shaped o path v) :
    ∀ e ∈ elementsOf o tag v, e.name = tag := by
  have hsingle : ∀ v : Value, v.isArray = false → ∀ e ∈ elementsOf o tag v, e.name = tag := by
    intro v hv e he
    cases v with
    | array items => contradiction
    | _ =>
      simp only [elementsOf, List.mem_singleton] at he
      subst he
      rfl
  cases v with
  | array items =>
    induction items with
    | nil => simp [elementsOf, itemElements]
    | cons v vs ih =>
      intro e he
      rw [elementsOf, itemElements, List.mem_append] at he
      rcases he with he | he
      · exact hsingle v h.1.1 e he
      · exact ih h.2 e he
  | _ => exact hsingle _ rfl

/-- The trees of the elements of a value are gathered into it under a new tag. -/
theorem foldl_trees {key : String} {v : Value} (hcounted : Counted o key path v)
    (hshaped : Shaped o path v)
    (htrees : (elementsOf o key v).map (elementTree o path) = (reread o v).asList)
    {before : Entries String Value} (hkey : key ∉ Entries.keys before) :
    ((elementsOf o key v).map (elementTree o path)).foldl
      (fun ms t => addChild ms key t (o.alwaysArray key path)) before =
        before ++ [(key, reread o v)] := by
  have hne : (reread o v).asList ≠ [] := by
    rw [← htrees]
    simpa using elementsOf_ne_nil hcounted hshaped
  have hsingle : ∀ w ∈ (reread o v).asList, w.isArray = false := by
    intro w hw
    cases v with
    | array items =>
      rw [reread, rereadItems_eq] at hw
      obtain ⟨u, hu, rfl⟩ := List.mem_map.1 hw
      rw [isArray_reread]
      exact (allShaped_iff.1 hshaped u hu).1
    | _ =>
      obtain rfl := List.mem_singleton.1 hw
      rfl
  rw [htrees, foldl_addChild hkey _ hne hsingle, gathered_asList hcounted]

theorem not_mem_keys_of_nodup {before members : Entries String Value} {m : String × Value}
    (h : (Entries.keys (before ++ m :: members)).Nodup) : m.1 ∉ Entries.keys before := by
  rw [Entries.keys_append, List.nodup_append] at h
  intro hmem
  exact h.2.2 m.1 hmem m.1 List.mem_cons_self rfl

mutual

/-- The trees of the elements of a value are the value, in the order in which it is read. -/
theorem trees_elementsOf (hgroup : o.group ≠ some textKey) (tag path : String) (v : Value)
    (h : Shaped o path v) :
    (elementsOf o tag v).map (elementTree o path) = (reread o v).asList := by
  match v with
  | .array items => exact trees_itemElements hgroup tag path items h
  | .object members =>
    have hchildren := addContent_childElements hgroup path members [] h.2.2.2
      (by simpa using h.1)
    rw [elementsOf, List.map_singleton, elementTree, hchildren, List.nil_append,
      elementValue_members hgroup h]
    rfl
  | .null | .bool _ | .number _ | .string _ =>
    obtain ⟨s, hs, htrimmed⟩ := h
    simp only [elementsOf, List.map_singleton]
    rw [hs, Scalar.render_ofText, elementTree_text tag s htrimmed, ← hs]
    rfl
  termination_by structural v

/-- So are those of several values. -/
theorem trees_itemElements (hgroup : o.group ≠ some textKey) (tag path : String)
    (vs : List Value) (h : AllShaped o path vs) :
    (itemElements o tag vs).map (elementTree o path) = rereadItems o vs := by
  match vs with
  | [] => rfl
  | v :: vs =>
    obtain ⟨⟨harray, hv⟩, hvs⟩ := h
    have hsingle : (reread o v).asList = [reread o v] := by
      cases v with
      | array items => contradiction
      | _ => rfl
    rw [itemElements, List.map_append, trees_elementsOf hgroup tag path v hv,
      trees_itemElements hgroup tag path vs hvs, hsingle]
    rfl
  termination_by structural vs

/-- Reading the children among members adds them at the end. -/
theorem addContent_childElements (hgroup : o.group ≠ some textKey) (path : String)
    (members : List (String × Value)) (before : Entries String Value)
    (h : MembersShaped o path members)
    (hnodup : (Entries.keys (before ++ members)).Nodup) :
    addContent o path before (nodesOf (childElements o members)) =
      before ++ rereadMembers o members := by
  match members with
  | [] => simp [childElements, nodesOf, addContent, rereadMembers]
  | (key, v) :: members =>
    obtain ⟨hm, hmembers⟩ := h
    by_cases hrole : role o key v = .child
    · unfold MemberShaped at hm
      rw [hrole] at hm
      obtain ⟨-, hcounted, hshaped⟩ := hm
      have htrees := trees_elementsOf hgroup key (path ++ "." ++ key) v hshaped
      have hbefore : (Entries.keys (before ++ [(key, reread o v)] ++ members)).Nodup := by
        simpa using hnodup
      rw [childElements, if_pos hrole, nodesOf_append, addContent_append,
        addContent_elements (name_elementsOf key hshaped),
        foldl_trees hcounted hshaped htrees (not_mem_keys_of_nodup hnodup),
        addContent_childElements hgroup path members _ hmembers hbefore, rereadMembers]
      simp [isChild, hrole]
    · have hbefore : (Entries.keys (before ++ members)).Nodup := by
        rw [Entries.keys_append] at hnodup ⊢
        exact hnodup.sublist ((List.sublist_cons_self _ _).append_left _)
      rw [childElements, if_neg hrole, List.nil_append,
        addContent_childElements hgroup path members before hmembers hbefore, rereadMembers]
      simp [isChild, hrole]
  termination_by structural members

end

/-! ## Equality up to the order of members -/

/-- The three classes make up all members. -/
theorem length_classes (members : List (String × Value)) :
    (members.filter (isLeading o)).length + ((members.filter (isChild o)).length +
      (members.filter (isText o)).length) = members.length := by
  induction members with
  | nil => rfl
  | cons m members ih =>
    simp only [List.filter_cons, List.length_cons]
    rcases classes o m with ⟨h1, h2, h3⟩ | ⟨h1, h2, h3⟩ | ⟨h1, h2, h3⟩ <;>
      simp only [h1, h2, h3, if_true, Bool.false_eq_true, if_false, List.length_cons] <;> omega

mutual

/-- A tree in the order in which it is read is the same tree. -/
theorem same_reread (path : String) (v : Value) (h : Shaped o path v) :
    (reread o v).same v = true := by
  match v with
  | .array items =>
    rw [reread, Value.same]
    exact same_rereadItems path items h
  | .object members =>
    obtain ⟨hnodup, -, -, hmembers⟩ := h
    have hchildren := same_rereadMembers path members hmembers
    have hlength := length_classes (o := o) members
    have hreread : (rereadMembers o members).length = (members.filter (isChild o)).length := by
      rw [rereadMembers_eq, List.length_map]
    rw [reread, Value.same, Bool.and_eq_true]
    constructor
    · simp only [List.length_append, hreread, hlength, beq_self_eq_true]
    · rw [sameMembers_iff]
      have hself : ∀ m ∈ members, ∃ w, Entries.get? m.1 members = some w ∧ m.2.same w = true := by
        intro m hm
        have hdistinct := membersDistinct_iff.1 (membersDistinct_of_shaped path members hmembers)
        exact ⟨m.2, Entries.get?_of_mem hnodup hm, same_self m.2 (hdistinct m hm)⟩
      intro m hm
      rw [List.mem_append, List.mem_append, List.mem_filter, List.mem_filter] at hm
      rcases hm with ⟨hm, -⟩ | hm | ⟨hm, -⟩
      · exact hself m hm
      · obtain ⟨v, hv, hsame⟩ := hchildren m hm
        exact ⟨v, Entries.get?_of_mem hnodup hv, hsame⟩
      · exact hself m hm
  | .null | .bool _ | .number _ | .string _ => exact same_self _ trivial
  termination_by structural v

/-- So are the trees of several values. -/
theorem same_rereadItems (path : String) (vs : List Value) (h : AllShaped o path vs) :
    Value.sameItems (rereadItems o vs) vs = true := by
  match vs with
  | [] => rfl
  | v :: vs =>
    rw [rereadItems, Value.sameItems, same_reread path v h.1.2, same_rereadItems path vs h.2]
    rfl
  termination_by structural vs

/-- Every child that is read has an equal one under its key. -/
theorem same_rereadMembers (path : String) (members : List (String × Value))
    (h : MembersShaped o path members) :
    ∀ m ∈ rereadMembers o members, ∃ w, (m.1, w) ∈ members ∧ m.2.same w = true := by
  match members with
  | [] => simp [rereadMembers]
  | (key, v) :: members =>
    obtain ⟨hm, hmembers⟩ := h
    have hrest := same_rereadMembers path members hmembers
    intro m hmem
    rw [rereadMembers] at hmem
    split_ifs at hmem with hchild
    · rcases List.mem_cons.1 hmem with rfl | hmem
      · have hrole : role o key v = .child := by simpa [isChild] using hchild
        rw [MemberShaped, hrole] at hm
        exact ⟨v, List.mem_cons_self, same_reread _ v hm.2.2⟩
      · obtain ⟨w, hw, hsame⟩ := hrest m hmem
        exact ⟨w, List.mem_cons_of_mem _ hw, hsame⟩
    · obtain ⟨w, hw, hsame⟩ := hrest m hmem
      exact ⟨w, List.mem_cons_of_mem _ hw, hsame⟩
  termination_by structural members

end

mutual

/-- With a group for attributes, trees are in the order in which they are read. -/
theorem reread_eq (hgroup : o.group.isSome = true) (path : String) (v : Value)
    (h : Shaped o path v) : reread o v = v := by
  match v with
  | .array items => rw [reread, rereadItems_eq_self hgroup path items h]
  | .object members =>
    obtain ⟨-, -, harranged, hmembers⟩ := h
    have hself := harranged hgroup
    unfold arranged at hself
    rw [reread, rereadMembers_eq_filter hgroup path members hmembers, ← hself]
  | .null | .bool _ | .number _ | .string _ => rfl
  termination_by structural v

/-- So are several of them. -/
theorem rereadItems_eq_self (hgroup : o.group.isSome = true) (path : String) (vs : List Value)
    (h : AllShaped o path vs) : rereadItems o vs = vs := by
  match vs with
  | [] => rfl
  | v :: vs =>
    rw [rereadItems, reread_eq hgroup path v h.1.2, rereadItems_eq_self hgroup path vs h.2]
  termination_by structural vs

/-- So are the children among members. -/
theorem rereadMembers_eq_filter (hgroup : o.group.isSome = true) (path : String)
    (members : List (String × Value)) (h : MembersShaped o path members) :
    rereadMembers o members = members.filter (isChild o) := by
  match members with
  | [] => rfl
  | (key, v) :: members =>
    obtain ⟨hm, hmembers⟩ := h
    rw [rereadMembers, rereadMembers_eq_filter hgroup path members hmembers, List.filter_cons]
    split_ifs with hchild
    · have hrole : role o key v = .child := by simpa [isChild] using hchild
      rw [MemberShaped, hrole] at hm
      rw [reread_eq hgroup _ v hm.2.2]
    · rfl
  termination_by structural members

end

/-! ## Documents -/

/-- The tree of a document with members in the order in which they are read. -/
def rereadDocument (o : Options) : Value → Value
  | .object members =>
    .object (members.map fun m => (m.1, if m.1 = declarationKey then m.2 else reread o m.2))
  | v => v

/-- Adding root elements of one tag. -/
theorem foldl_addItem_elements {es : List Element} (hname : ∀ e ∈ es, e.name = tag)
    (members : Entries String Value) :
    (es.map fun e => (Root.element e).item).foldl (addItem o) members =
      (es.map (elementTree o tag)).foldl
        (fun ms t => addChild ms tag t (o.alwaysArray tag tag)) members := by
  induction es generalizing members with
  | nil => rfl
  | cons e es ih =>
    have he := hname e List.mem_cons_self
    obtain ⟨name, attributes, text, children⟩ := e
    obtain rfl : name = tag := he
    rw [List.map_cons, List.foldl_cons, ih fun e he => hname e (List.mem_cons_of_mem _ he),
      Root.item, addItem, contentText_node, addContent_textNodes]
    rfl

/-- Reading the roots of a member of a document adds the member. -/
theorem foldl_memberRoots (hgroup : o.group ≠ some textKey) {m : String × Value}
    (hm : RootShaped o m) {before : Entries String Value} (hkey : m.1 ∉ Entries.keys before) :
    ((memberRoots o m).map Root.item).foldl (addItem o) before =
      before ++ [(m.1, if m.1 = declarationKey then m.2 else reread o m.2)] := by
  obtain ⟨key, v⟩ := m
  unfold RootShaped at hm
  unfold memberRoots
  split_ifs at hm ⊢ with hdeclaration
  · obtain ⟨-, d, hd, -⟩ := hm
    obtain rfl : v = _ := hd
    obtain rfl : key = declarationKey := hdeclaration
    rw [declarationOf_declarationValue, List.map_singleton, List.foldl_cons, List.foldl_nil,
      Root.item, addItem, Entries.insert_of_not_mem hkey]
  · obtain ⟨-, hcounted, hshaped⟩ := hm
    have htrees := trees_elementsOf hgroup key key v hshaped
    rw [List.map_map]
    exact (foldl_addItem_elements (name_elementsOf key hshaped) before).trans
      (foldl_trees hcounted hshaped htrees hkey)

/-- Reading the roots of a document gives the document, in the order in which it is read. -/
theorem ofDocument_rootsOf (hgroup : o.group ≠ some textKey) {tree : Value}
    (h : ShapedDocument o tree) :
    ofDocument o ((rootsOf o tree).map Root.item) = rereadDocument o tree := by
  obtain ⟨members, rfl, hnodup, hmembers⟩ := h
  have hfold : ∀ before : Entries String Value, (Entries.keys (before ++ members)).Nodup →
      ((members.flatMap (memberRoots o)).map Root.item).foldl (addItem o) before =
        before ++ members.map fun m =>
          (m.1, if m.1 = declarationKey then m.2 else reread o m.2) := by
    clear hnodup
    induction members with
    | nil => simp
    | cons m members ih =>
      intro before hnodup
      have hstep := foldl_memberRoots hgroup (hmembers m List.mem_cons_self)
        (not_mem_keys_of_nodup hnodup)
      rw [List.flatMap_cons, List.map_append, List.foldl_append, hstep,
        ih fun m hm => hmembers m (List.mem_cons_of_mem _ hm)]
      · simp
      · simpa using hnodup
  exact congrArg Value.object (hfold [] (by simpa using hnodup))

/-- The tree of a document in the order in which it is read is the same tree. -/
theorem same_rereadDocument {tree : Value} (h : ShapedDocument o tree) :
    (rereadDocument o tree).same tree = true := by
  obtain ⟨members, rfl, hnodup, hmembers⟩ := h
  rw [rereadDocument, Value.same, List.length_map, beq_self_eq_true, Bool.true_and,
    sameMembers_iff]
  intro m hm
  obtain ⟨⟨key, v⟩, hmem, rfl⟩ := List.mem_map.1 hm
  refine ⟨v, Entries.get?_of_mem hnodup hmem, ?_⟩
  have hroot := hmembers _ hmem
  unfold RootShaped at hroot
  split_ifs at hroot ⊢
  · obtain ⟨-, d, hd, -⟩ := hroot
    obtain rfl : v = _ := hd
    exact same_self _ (distinct_declarationValue d)
  · exact same_reread key v hroot.2.2

/-- With a group for attributes, the tree of a document is in the order in which it is read. -/
theorem rereadDocument_eq (hgroup : o.group.isSome = true) {tree : Value}
    (h : ShapedDocument o tree) : rereadDocument o tree = tree := by
  obtain ⟨members, rfl, -, hmembers⟩ := h
  rw [rereadDocument]
  refine congrArg Value.object ((List.map_congr_left fun m hm => ?_).trans (List.map_id members))
  obtain ⟨key, v⟩ := m
  have hroot := hmembers _ hm
  unfold RootShaped at hroot
  split_ifs at hroot ⊢
  · rfl
  · rw [reread_eq hgroup key v hroot.2.2]
    rfl

end LsxKit.Tree
