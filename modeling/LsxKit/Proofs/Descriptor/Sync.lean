import LsxKit.Descriptor.Basic
import LsxKit.Proofs.Entries
import LsxKit.Proofs.Outcome
import LsxKit.Proofs.Tree.Places

/-!
# The view of the module and the tree

What a descriptor says about its module is read from the tree once and changed with it. Edits
change the first attribute with the id of a field; reading takes the last one.

* `Edit`, `Descriptor.run`: sequences of edits.
* `blank`, `blank_replaceAt`: an edit changes nothing but the value of one attribute.
* `moduleEntries_set`: what the edit changes among the attributes of the module.
* `infoOf_run_iff`: when the view is what would be read from the tree.
-/

namespace LsxKit

open Json LsxKit.Tree

/-- An edit of a descriptor. -/
inductive Edit where
  | set (field : ModuleField) (value : String)
  | bump (kind : VersionKind)
  deriving Repr

namespace Descriptor

/-- The descriptor after an edit; an edit that fails changes nothing. -/
def edit (d : Descriptor) : Edit → Descriptor
  | .set field value =>
    match d.set field value with
    | .ok d' => d'
    | .error _ => d
  | .bump kind =>
    match d.bump kind with
    | .ok (d', _) => d'
    | .error _ => d

/-- The descriptor after edits, one after the other. -/
def run (d : Descriptor) (edits : List Edit) : Descriptor := edits.foldl edit d

/-! ## Trees without the values of attributes -/

/-- A group of attributes without the attribute `value`. -/
def dropValue : Value → Value
  | .object own => .object (Entries.erase "value" own)
  | v => v

mutual

/-- A tree without the attributes `value`. -/
def blank : Value → Value
  | .array items => .array (blankItems items)
  | .object members => .object (blankMembers members)
  | v => v
  termination_by structural v => v

/-- Trees without the attributes `value`. -/
def blankItems : List Value → List Value
  | [] => []
  | v :: vs => blank v :: blankItems vs
  termination_by structural vs => vs

/-- Members without the attributes `value`. -/
def blankMembers : List (String × Value) → List (String × Value)
  | [] => []
  | (key, v) :: members =>
    (key, if key = attributesGroup then dropValue v else blank v) :: blankMembers members
  termination_by structural members => members

end

theorem blankItems_eq (vs : List Value) : blankItems vs = vs.map blank := by
  induction vs with
  | nil => rfl
  | cons v vs ih => rw [blankItems, ih, List.map_cons]

theorem get?_blankMembers (key : String) (members : Entries String Value) :
    Entries.get? key (blankMembers members) =
      (Entries.get? key members).map
        (if key = attributesGroup then dropValue else blank) := by
  induction members with
  | nil => rfl
  | cons m members ih =>
    obtain ⟨k, v⟩ := m
    rw [blankMembers, Entries.get?, Entries.get?]
    by_cases hk : k = key
    · subst hk
      rw [if_pos rfl, if_pos rfl]
      split_ifs <;> rfl
    · rw [if_neg hk, if_neg hk, ih]

theorem get?_blank (key : String) (v : Value) :
    (blank v).get? key =
      (v.get? key).map (if key = attributesGroup then dropValue else blank) := by
  cases v with
  | object members => exact get?_blankMembers key members
  | _ => rfl

/-- Leaving out the attributes `value` keeps the ids. -/
theorem idOf_blank (v : Value) : Place.idOf (blank v) = Place.idOf v := by
  unfold Place.idOf
  rw [get?_blank, if_pos rfl]
  cases v.get? attributesGroup with
  | none => rfl
  | some w =>
    cases w with
    | object own =>
      have hget : Entries.get? "id" (Entries.erase "value" own) = Entries.get? "id" own := by
        rw [Entries.get?_erase, if_neg (by decide)]
      simp only [Option.map_some, Option.bind_some, dropValue, Value.get?, hget]
    | _ => rfl

/-- So it keeps the nodes. -/
theorem keepsNodes_blank : KeepsNodes blank where
  get? v k hk := by
    rw [get?_blank, if_neg]
    rintro rfl
    revert hk
    decide
  array vs := by rw [blank, blankItems_eq]
  isArray v := by cases v <;> rfl
  id v s _ := by rw [idOf_blank]

/-! ## Edits of trees -/

theorem blankMembers_insert {key : String} {w w' : Value} {members : Entries String Value}
    (hget : Entries.get? key members = some w)
    (h : (if key = attributesGroup then dropValue w' else blank w') =
      if key = attributesGroup then dropValue w else blank w) :
    blankMembers (Entries.insert key w' members) = blankMembers members := by
  induction members with
  | nil => contradiction
  | cons m members ih =>
    obtain ⟨k, v⟩ := m
    rw [Entries.get?] at hget
    rw [Entries.insert]
    split_ifs at hget ⊢ with hk
    · obtain rfl : v = w := by simpa using hget
      subst hk
      rw [blankMembers, blankMembers, h]
    · rw [blankMembers, blankMembers, ih hget]

/-- Writing the attribute `value` of a group changes nothing else in a tree. -/
theorem blank_replaceAt {tree : Value} {steps : List Step} {own : Entries String Value}
    (hsteps : .key attributesGroup ∉ steps)
    (hat : tree.at? (steps ++ [.key attributesGroup]) = some (.object own)) (w : Value) :
    blank (tree.replaceAt (steps ++ [.key attributesGroup])
      (.object (Entries.insert "value" w own))) = blank tree := by
  induction steps generalizing tree with
  | nil =>
    rcases replaceAt_cons hat (.object (Entries.insert "value" w own)) with
      ⟨members, key, u, rfl, hkey, hget, hu, hreplace⟩ | ⟨items, i, u, -, hkey, -⟩
    · obtain rfl : attributesGroup = key := by simpa using hkey
      obtain rfl : u = .object own := by simpa using hu
      rw [List.nil_append, hreplace, blank, blank, blankMembers_insert hget]
      simp [dropValue, Value.replaceAt, Entries.erase_insert]
    · contradiction
  | cons s steps ih =>
    rw [List.mem_cons, not_or] at hsteps
    rw [List.cons_append] at hat ⊢
    rcases replaceAt_cons hat (.object (Entries.insert "value" w own)) with
      ⟨members, key, u, rfl, rfl, hget, hu, hreplace⟩ | ⟨items, i, u, rfl, rfl, hget, hu, hreplace⟩
    · have hkey : key ≠ attributesGroup := fun he => hsteps.1 (by rw [he])
      rw [hreplace, blank, blank, blankMembers_insert hget]
      rw [if_neg hkey, if_neg hkey]
      exact ih hsteps.2 hu
    · obtain ⟨hi, rfl⟩ := List.getElem?_eq_some_iff.1 hget
      rw [hreplace, blank, blank, blankItems_eq, blankItems_eq, List.map_set, ih hsteps.2 hu,
        ← List.map_set, List.set_getElem_self]

/-! ## The attributes of the module -/

/-- Elements of an array, or the only one, have different paths of one length. -/
theorem entries_paths (p : Place) :
    p.entries.Pairwise (fun q q' => q.path ≠ q'.path) ∧
      ∀ q ∈ p.entries, ∀ q' ∈ p.entries, q.path.length = q'.path.length := by
  by_cases harray : p.value.isArray = true
  · obtain ⟨path, v⟩ := p
    cases v with
    | array vs =>
      have hindex : vs.zipIdx.Pairwise fun a b => a.2 ≠ b.2 := by
        have hnodup : (vs.zipIdx.map Prod.snd).Nodup := by
          rw [List.zipIdx_map_snd]
          exact List.nodup_range'
        exact List.pairwise_map.1 hnodup
      constructor
      · rw [Place.entries, List.pairwise_map]
        exact hindex.imp fun h he => h (by simpa using he)
      · intro q hq q' hq'
        obtain ⟨⟨v, i⟩, -, rfl⟩ := List.mem_map.1 hq
        obtain ⟨⟨v', i'⟩, -, rfl⟩ := List.mem_map.1 hq'
        simp
    | _ => contradiction
  · have hsingle : p.entries = [p] := by
      obtain ⟨path, v⟩ := p
      cases v with
      | array vs => exact absurd rfl harray
      | _ => rfl
    simp [hsingle]

/-- Attributes of a node have different paths of one length. -/
theorem attributePlaces_paths (p : Place) :
    (attributePlaces p).Pairwise (fun q q' => q.path ≠ q'.path) ∧
      ∀ q ∈ attributePlaces p, ∀ q' ∈ attributePlaces p, q.path.length = q'.path.length := by
  unfold attributePlaces Place.members
  cases p.member? "attribute" with
  | none => simp
  | some r =>
    obtain ⟨hpairwise, hlength⟩ := entries_paths r
    constructor
    · refine hpairwise.filterMap _ fun a a' hne b hb b' hb' he => hne ?_
      rw [Place.path_member? hb, Place.path_member? hb'] at he
      exact List.append_inj_left' he rfl
    · intro q hq q' hq'
      obtain ⟨a, ha, hq⟩ := List.mem_filterMap.1 hq
      obtain ⟨a', ha', hq'⟩ := List.mem_filterMap.1 hq'
      rw [Place.path_member? hq, Place.path_member? hq', List.length_append, List.length_append,
        hlength a ha a' ha']

theorem attributePlaces_blank (p : Place) :
    attributePlaces (p.map blank) = (attributePlaces p).map (Place.map dropValue) := by
  have hmember : ∀ q : Place, (q.map blank).member? attributesGroup =
      (q.member? attributesGroup).map (Place.map dropValue) := by
    intro q
    simp [Place.member?, Place.map, get?_blank, Function.comp_def]
  unfold attributePlaces
  rw [keepsNodes_blank.members (by simp), List.filterMap_map, List.map_filterMap]
  simp only [Function.comp_def, hmember]

/-- Places in one tree are known from their paths. -/
theorem eq_map_of_paths {tree : Value} {ps qs : List Place} {g : Place → Place}
    (hpaths : qs.map Place.path = ps.map Place.path) (hqs : ∀ q ∈ qs, Place.Within tree q)
    (hg : ∀ p ∈ ps, (g p).path = p.path ∧ Place.Within tree (g p)) : qs = ps.map g := by
  induction qs generalizing ps with
  | nil =>
    cases ps with
    | nil => rfl
    | cons p ps => contradiction
  | cons q qs ih =>
    cases ps with
    | nil => contradiction
    | cons p ps =>
      simp only [List.map_cons, List.cons.injEq] at hpaths ⊢
      obtain ⟨hpath, hwithin⟩ := hg p List.mem_cons_self
      have hq := hqs q List.mem_cons_self
      have hvalue : some q.value = some (g p).value := by
        rw [← hq, ← hwithin, hpath, hpaths.1]
      refine ⟨?_, ih hpaths.2 (fun q hq => hqs q (List.mem_cons_of_mem _ hq))
        (fun p hp => hg p (List.mem_cons_of_mem _ hp))⟩
      cases q with
      | mk path value =>
        cases hgp : g p with
        | mk path' value' =>
          rw [hgp] at hvalue hpath
          simp only [Option.some.injEq] at hvalue hpath hpaths
          rw [hvalue, hpath, hpaths.1]

/-- Writing the value of an attribute of the module changes nothing else in a tree. -/
theorem blank_replaceAt_attribute {tree : Value} {node q : Place} {own : Entries String Value}
    (hnode : node? tree .moduleInfo = some node) (hq : q ∈ attributePlaces node)
    (hown : q.value = .object own) (w : Value) :
    blank (tree.replaceAt q.path (.object (Entries.insert "value" w own))) = blank tree := by
  obtain ⟨hwithin, r, hr, hpath⟩ := attributePlaces_reached (reached_node? hnode) hq
  have hat : tree.at? q.path = some (.object own) := by rw [← hown]; exact hwithin
  rw [hpath] at hat ⊢
  exact blank_replaceAt hr.2.2 hat w

/-- The places of the attributes of the module in a tree with the value of one of them changed. -/
theorem attributePlaces_replaceAt {tree : Value} {node q : Place} {own : Entries String Value}
    (hnode : node? tree .moduleInfo = some node) (hq : q ∈ attributePlaces node)
    (hown : q.value = .object own) (w : Value) :
    ∃ node', node? (tree.replaceAt q.path (.object (Entries.insert "value" w own))) .moduleInfo =
        some node' ∧
      attributePlaces node' = (attributePlaces node).map fun r =>
        if r.path = q.path then ⟨r.path, .object (Entries.insert "value" w own)⟩ else r := by
  have hat : tree.at? q.path = some (.object own) := by
    rw [← hown]
    exact (attributePlaces_reached (reached_node? hnode) hq).1
  have hblank := blank_replaceAt_attribute hnode hq hown w
  have hnode' := keepsNodes_blank.node?
    (tree.replaceAt q.path (.object (Entries.insert "value" w own)))
  rw [hblank, keepsNodes_blank.node?, hnode, Option.map_some] at hnode'
  obtain ⟨node', hfound, hmap⟩ := Option.map_eq_some_iff.1 hnode'.symm
  refine ⟨node', hfound, ?_⟩
  have hpaths : (attributePlaces node').map Place.path = (attributePlaces node).map Place.path := by
    have hsame : (attributePlaces (node'.map blank)).map Place.path =
        (attributePlaces (node.map blank)).map Place.path := by rw [hmap]
    rw [attributePlaces_blank, attributePlaces_blank, List.map_map, List.map_map] at hsame
    exact hsame
  refine eq_map_of_paths hpaths
    (fun q' hq' => (attributePlaces_reached (reached_node? hfound) hq').1) fun p hp => ?_
  by_cases he : p.path = q.path
  · rw [if_pos he]
    refine ⟨rfl, ?_⟩
    rw [Place.Within, he]
    exact Value.at?_replaceAt (by simp [hat]) _
  · rw [if_neg he]
    refine ⟨rfl, ?_⟩
    have hlength := (attributePlaces_paths node).2 q hq p hp
    rw [Place.Within, at?_replaceAt_of_ne (fun h => he h.symm) hlength]
    exact (attributePlaces_reached (reached_node? hnode) hp).1

/-- What an attribute contributes to the known attributes of the module. -/
def moduleEntry (q : Place) : Option (ModuleField × String) := do
  return (← ModuleField.ofId? (← attributeId? q), attributeValue q)

/-- The known attributes of the module, as often as they occur. -/
def moduleEntries (tree : Value) : Entries ModuleField String :=
  match node? tree .moduleInfo with
  | some node => (attributePlaces node).filterMap moduleEntry
  | none => []

theorem moduleEntries_eq {tree : Value} {node : Place} (h : node? tree .moduleInfo = some node) :
    moduleEntries tree = (attributePlaces node).filterMap moduleEntry := by
  simp only [moduleEntries, h]

theorem infoOf_eq {tree : Value} {node : Place} (h : node? tree .moduleInfo = some node) :
    infoOf tree = .ok (Entries.extend [] (moduleEntries tree)) := by
  simp only [infoOf, moduleEntries, h]
  rfl

theorem moduleEntry_of_id {q : Place} {field : ModuleField}
    (h : attributeId? q = some field.id) : moduleEntry q = some (field, attributeValue q) := by
  simp [moduleEntry, h, ModuleField.ofId?_id]

theorem id_of_moduleEntry {q : Place} {field : ModuleField} {value : String}
    (h : moduleEntry q = some (field, value)) : attributeId? q = some field.id := by
  simp only [moduleEntry, Option.bind_eq_bind, Option.bind_eq_some_iff] at h
  obtain ⟨id, hid, f, hf, h⟩ := h
  obtain ⟨rfl, -⟩ : f = field ∧ attributeValue q = value := by simpa using h
  rw [hid, ModuleField.id_eq_of_ofId? hf]

/-- A successful edit of a field: the first attribute with its id is written. -/
theorem set_eq_ok {d d' : Descriptor} {field : ModuleField} {value : String}
    (h : d.set field value = .ok d') :
    ∃ node q own, node? d.tree .moduleInfo = some node ∧ q.value = .object own ∧
      attribute? node field.id = some q ∧
      d' = { d with
        tree := d.tree.replaceAt q.path (.object (Entries.insert "value" (.string value) own))
        info := Entries.insert field value d.info } := by
  unfold Descriptor.set at h
  split at h
  · contradiction
  · next node hnode =>
    split at h
    · next path own hq =>
      injection h with h
      exact ⟨node, ⟨path, .object own⟩, own, hnode, rfl, hq, h.symm⟩
    · contradiction

/-- An edit writes the first of the known attributes of the module with its field. -/
theorem moduleEntries_set {d d' : Descriptor} {field : ModuleField} {value : String}
    (h : d.set field value = .ok d') :
    (∃ node, node? d'.tree .moduleInfo = some node) ∧
      field ∈ Entries.keys (moduleEntries d.tree) ∧
      moduleEntries d'.tree = Entries.insert field value (moduleEntries d.tree) := by
  obtain ⟨node, q, own, hnode, hown, hfind, rfl⟩ := set_eq_ok h
  obtain ⟨hid, before, after, hplaces, hbefore⟩ := List.find?_eq_some_iff_append.1 hfind
  have hid : attributeId? q = some field.id := by simpa using hid
  have hmem : q ∈ attributePlaces node := by simp [hplaces]
  obtain ⟨node', hnode', hplaces'⟩ :=
    attributePlaces_replaceAt hnode hmem hown (.string value)
  -- No other attribute has the path of the one that is written.
  have hpaths := (attributePlaces_paths node).1
  rw [hplaces, List.pairwise_append] at hpaths
  obtain ⟨-, hafter, hcross⟩ := hpaths
  rw [hplaces, List.map_append, List.map_cons, if_pos rfl] at hplaces'
  have hkeep : ∀ ps : List Place, (∀ p ∈ ps, p.path ≠ q.path) → ps.map (fun r =>
      if r.path = q.path then
        (⟨r.path, .object (Entries.insert "value" (.string value) own)⟩ : Place) else r) = ps := by
    intro ps hps
    refine (List.map_congr_left fun p hp => ?_).trans (List.map_id ps)
    rw [if_neg (hps p hp)]
    rfl
  rw [hkeep before fun p hp => hcross p hp q List.mem_cons_self,
    hkeep after fun p hp he => List.rel_of_pairwise_cons hafter hp he.symm] at hplaces'
  have hnew : moduleEntry ⟨q.path, .object (Entries.insert "value" (.string value) own)⟩ =
      some (field, value) := by
    have hsame : attributeId? ⟨q.path, .object (Entries.insert "value" (.string value) own)⟩ =
        some field.id := by
      rw [← hid]
      simp [attributeId?, hown, Value.get?, Entries.get?_insert]
    rw [moduleEntry_of_id hsame]
    simp [attributeValue, Value.get?, Entries.get?_insert, Value.asString?]
  have hnone : field ∉ Entries.keys (before.filterMap moduleEntry) := by
    intro hmem
    obtain ⟨⟨f, v⟩, he, rfl⟩ := List.mem_map.1 hmem
    obtain ⟨p, hp, he⟩ := List.mem_filterMap.1 he
    have hnot := hbefore p hp
    rw [id_of_moduleEntry he] at hnot
    simp at hnot
  have hentries : moduleEntries d.tree = before.filterMap moduleEntry ++
      (field, attributeValue q) :: after.filterMap moduleEntry := by
    rw [moduleEntries_eq hnode, hplaces, List.filterMap_append,
      List.filterMap_cons_some (moduleEntry_of_id hid)]
  refine ⟨⟨node', hnode'⟩, ?_, ?_⟩
  · rw [hentries, Entries.keys_append, Entries.keys_cons]
    simp
  · rw [hentries, Entries.insert_append_cons hnone, moduleEntries_eq hnode', hplaces',
      List.filterMap_append, List.filterMap_cons_some hnew]

/-! ## Runs of edits -/

/-- Whether more than one attribute of the module has the id of a field. -/
def Repeated (tree : Value) (field : ModuleField) : Prop :=
  1 < (Entries.keys (moduleEntries tree)).count field

/-- What edits of the descriptor `d` keep: the fields that the tree knows, each of them in the view,
what the tree says of repeated fields, and that the view agrees with the tree on all others. -/
structure Tracks (d s : Descriptor) : Prop where
  node : ∃ node, node? s.tree .moduleInfo = some node
  fields : Entries.keys (moduleEntries s.tree) = Entries.keys (moduleEntries d.tree)
  keys : Entries.keys s.info = Entries.keys (Entries.extend [] (moduleEntries s.tree))
  kept : ∀ f, Repeated d.tree f →
    Entries.get? f (Entries.extend [] (moduleEntries s.tree)) = d.get? f
  agree : ∀ f, ¬ Repeated d.tree f →
    Entries.get? f (Entries.extend [] (moduleEntries s.tree)) = s.get? f

/-- A descriptor is what its text says. -/
theorem parse_eq_ok {text : String} {d : Descriptor} (h : Descriptor.parse text = .ok d) :
    Tree.parse .descriptor text = .ok d.tree ∧ infoOf d.tree = .ok d.info ∧
      d.crlf = hasCrlf text.toList := by
  unfold Descriptor.parse at h
  obtain ⟨tree, htree, h⟩ := bind_eq_ok_iff.1 h
  obtain ⟨info, hinfo, h⟩ := bind_eq_ok_iff.1 h
  obtain rfl := Except.ok.inj h
  exact ⟨htree, hinfo, rfl⟩

/-- A descriptor as it was read agrees with itself. -/
theorem tracks_parse {text : String} {d : Descriptor} (h : Descriptor.parse text = .ok d) :
    Tracks d d := by
  obtain ⟨-, hinfo, -⟩ := parse_eq_ok h
  have hnode : ∃ node, node? d.tree .moduleInfo = some node := by
    cases hnode : node? d.tree .moduleInfo with
    | none => simp [infoOf, hnode] at hinfo
    | some node => exact ⟨node, rfl⟩
  obtain ⟨node, hfound⟩ := hnode
  rw [infoOf_eq hfound] at hinfo
  have hview : Entries.extend [] (moduleEntries d.tree) = d.info := by simpa using hinfo
  refine ⟨⟨node, hfound⟩, rfl, by rw [hview], fun f _ => ?_, fun f _ => ?_⟩ <;>
    rw [hview, Descriptor.get?]

/-- The edit of a field keeps what is tracked. -/
theorem tracks_set {d s s' : Descriptor} {field : ModuleField} {value : String}
    (h : Tracks d s) (hset : s.set field value = .ok s') : Tracks d s' := by
  obtain ⟨hnode, hmem, hentries⟩ := moduleEntries_set hset
  have hinfo : s'.info = Entries.insert field value s.info := by
    obtain ⟨-, -, -, -, -, -, rfl⟩ := set_eq_ok hset
    rfl
  have hkeys : Entries.keys (moduleEntries s'.tree) = Entries.keys (moduleEntries s.tree) := by
    rw [hentries, Entries.keys_insert, if_pos hmem]
  have hview : field ∈ Entries.keys s.info := by
    rw [h.keys, Entries.mem_keys_extend]
    exact .inr hmem
  have hget : ∀ f, Entries.get? f (Entries.extend [] (moduleEntries s'.tree)) =
      if field = f ∧ (Entries.keys (moduleEntries d.tree)).count field ≤ 1 then some value
      else Entries.get? f (Entries.extend [] (moduleEntries s.tree)) := by
    intro f
    rw [Entries.get?_extend_nil, Entries.get?_extend_nil, hentries,
      Entries.get?_reverse_insert hmem, h.fields]
  refine ⟨hnode, hkeys.trans h.fields, ?_, fun f hf => ?_, fun f hf => ?_⟩
  · rw [hinfo, Entries.keys_insert, if_pos hview, h.keys]
    exact Entries.keys_extend_congr rfl hkeys.symm
  · have hnot : ¬ (field = f ∧ (Entries.keys (moduleEntries d.tree)).count field ≤ 1) := by
      rintro ⟨rfl, hle⟩
      exact absurd hf (Nat.not_lt.2 hle)
    rw [hget, if_neg hnot, h.kept f hf]
  · rw [hget, Descriptor.get?, hinfo, Entries.get?_insert]
    by_cases he : field = f
    · subst he
      rw [if_pos ⟨rfl, Nat.not_lt.1 hf⟩, if_pos rfl]
    · rw [if_neg fun hfield => he hfield.1, if_neg he]
      exact h.agree f hf

/-- A successful bump of the version is an edit of its field. -/
theorem set_of_bump {d d' : Descriptor} {kind : VersionKind} {version : Version}
    (h : d.bump kind = .ok (d', version)) : ∃ value, d.set .version value = .ok d' := by
  unfold Descriptor.bump at h
  obtain ⟨current, -, h⟩ := bind_eq_ok_iff.1 h
  obtain ⟨changed, hset, h⟩ := bind_eq_ok_iff.1 h
  obtain rfl : changed = d' := (Prod.mk.inj (Except.ok.inj h)).1
  exact ⟨_, hset⟩

/-- An edit is a successful write of a field, or it changes nothing. -/
theorem edit_cases (d : Descriptor) (e : Edit) :
    d.edit e = d ∨ ∃ field value, d.set field value = .ok (d.edit e) := by
  cases e with
  | set field value =>
    cases hset : d.set field value with
    | error fault => exact .inl (by simp only [edit, hset])
    | ok d' => exact .inr ⟨field, value, by simp only [edit, hset]⟩
  | bump kind =>
    cases hbump : d.bump kind with
    | error fault => exact .inl (by simp only [edit, hbump])
    | ok result =>
      obtain ⟨d', version⟩ := result
      obtain ⟨value, hset⟩ := set_of_bump hbump
      exact .inr ⟨.version, value, by simp only [edit, hbump, hset]⟩

/-- Every edit keeps what is tracked, whether it succeeds or fails. -/
theorem tracks_edit {d s : Descriptor} (h : Tracks d s) (e : Edit) : Tracks d (s.edit e) := by
  rcases edit_cases s e with he | ⟨field, value, hset⟩
  · rw [he]
    exact h
  · exact tracks_set h hset

/-- So does every run of edits. -/
theorem tracks_run {d s : Descriptor} (h : Tracks d s) (edits : List Edit) :
    Tracks d (s.run edits) := by
  induction edits generalizing s with
  | nil => exact h
  | cons e edits ih => exact ih (tracks_edit h e)

/-- After edits, the view is what would be read from the tree exactly if no field whose id is
repeated in the descriptor has another value than at the beginning; and a field that was just
written is read with the new value exactly if its id is not repeated or it had that value. -/
theorem infoOf_run_iff {text : String} {d : Descriptor} (h : Descriptor.parse text = .ok d)
    (edits : List Edit) :
    (infoOf (d.run edits).tree = .ok (d.run edits).info ↔
      ∀ f, Repeated d.tree f → (d.run edits).get? f = d.get? f) ∧
    ∀ field value d', (d.run edits).set field value = .ok d' →
      ∃ info, infoOf d'.tree = .ok info ∧
        (Entries.get? field info = some value ↔
          ¬ Repeated d.tree field ∨ d.get? field = some value) := by
  have htracks := tracks_run (tracks_parse h) edits
  constructor
  · obtain ⟨node, hnode⟩ := htracks.node
    rw [infoOf_eq hnode, Except.ok.injEq]
    constructor
    · intro heq f hf
      rw [← htracks.kept f hf, heq, Descriptor.get?]
    · intro hall
      refine Entries.ext_get? htracks.keys.symm (Entries.nodup_keys_extend (by simp) _) fun f => ?_
      by_cases hf : Repeated d.tree f
      · rw [htracks.kept f hf, ← hall f hf, Descriptor.get?]
      · exact htracks.agree f hf
  · intro field value d' hset
    have hafter := tracks_set htracks hset
    obtain ⟨node, hnode⟩ := hafter.node
    refine ⟨_, infoOf_eq hnode, ?_⟩
    have hnew : d'.get? field = some value := by
      obtain ⟨-, -, -, -, -, -, rfl⟩ := set_eq_ok hset
      rw [Descriptor.get?, Entries.get?_insert, if_pos rfl]
    by_cases hf : Repeated d.tree field
    · rw [hafter.kept field hf]
      simp [hf]
    · rw [hafter.agree field hf, hnew]
      simp [hf]

/-- The text of a descriptor with the given attributes of the module. -/
def textWith (attributes : String) : String :=
  "<save><region><node id=\"root\"><children><node id=\"ModuleInfo\">" ++ attributes ++
    "</node></children></node></region></save>"

/-- A single attribute for the name: it is written and read. -/
theorem infoOf_run_name :
    ∃ d, Descriptor.parse (textWith "<attribute id=\"Name\" value=\"a\"/>") = .ok d ∧
      infoOf (d.run [.set .name "c"]).tree = .ok (d.run [.set .name "c"]).info := by
  have hkeys : (Descriptor.parse (textWith "<attribute id=\"Name\" value=\"a\"/>")).toOption.map
      (fun d => Entries.keys (moduleEntries d.tree)) = some [.name] := by decide +kernel
  obtain ⟨d, hparse, hname⟩ := Option.map_eq_some_iff.1 hkeys
  have hd := ok_of_toOption hparse
  refine ⟨d, hd, (infoOf_run_iff hd [.set .name "c"]).1.2 fun f hf => absurd hf ?_⟩
  rw [Repeated, hname, Nat.not_lt]
  exact List.count_le_length

/-- Two attributes for the name: the first one is written, the second one is read. -/
theorem infoOf_run_two_names :
    ¬ ∀ text d, Descriptor.parse text = .ok d → ∀ edits,
      infoOf (d.run edits).tree = .ok (d.run edits).info := by
  intro hall
  have hnames : (Descriptor.parse (textWith ("<attribute id=\"Name\" value=\"a\"/>" ++
      "<attribute id=\"Name\" value=\"b\"/>"))).toOption.map (fun d =>
        ((d.run [.set .name "c"]).get? .name,
          (infoOf (d.run [.set .name "c"]).tree).toOption.bind (Entries.get? .name))) =
      some (some "c", some "b") := by decide +kernel
  obtain ⟨d, hparse, hd⟩ := Option.map_eq_some_iff.1 hnames
  rw [hall _ d (ok_of_toOption hparse) [.set .name "c"], Prod.mk.injEq] at hd
  obtain ⟨hview, htree⟩ := hd
  have hsame : some "c" = some "b" := hview.symm.trans htree
  exact absurd hsame (by decide)

end Descriptor

end LsxKit
