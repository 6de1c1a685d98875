import LsxKit.Proofs.Descriptor.Clean

/-!
# What edits leave alone

An edit of a descriptor writes one field. It succeeds exactly if the view has the field, changes one
attribute of the tree, and otherwise leaves everything as it was.

* `SameBut`: values that are the same but for what stands at a path.
* `sameBut_replaceAt`: a replacement changes nothing else.
* `exists_set_iff`: when a field can be written.
* `setInPlace_run`, `bumpInPlace_run`: edits in place leave nothing half done.
* `OnlyWrites`, `set_run`: what a write does to a descriptor after any edits, and when it and a bump
  fail.
-/

namespace LsxKit

open Json

/-! ## Values that differ at a path -/

namespace Json

/-- Whether two values are the same but for what stands at a path, which is `v` in the first one and
`v'` in the second one. -/
inductive SameBut (v v' : Value) : List Step → Value → Value → Prop
  | here : SameBut v v' [] v v'
  | member {key : String} {before after : Entries String Value} {w w' : Value} {path : List Step}
      (hkey : key ∉ Entries.keys before) (h : SameBut v v' path w w') :
      SameBut v v' (.key key :: path) (.object (before ++ (key, w) :: after))
        (.object (before ++ (key, w') :: after))
  | item {before after : List Value} {w w' : Value} {path : List Step}
      (h : SameBut v v' path w w') :
      SameBut v v' (.index before.length :: path) (.array (before ++ w :: after))
        (.array (before ++ w' :: after))

/-- A replacement at a path changes nothing else. -/
theorem sameBut_replaceAt {tree v : Value} {path : List Step} (h : tree.at? path = some v)
    (v' : Value) : SameBut v v' path tree (tree.replaceAt path v') := by
  induction path generalizing tree with
  | nil =>
    obtain rfl := Option.some.inj h
    exact .here
  | cons s path ih =>
    rcases Tree.replaceAt_cons h v' with
      ⟨members, key, w, rfl, rfl, hget, hw, hreplace⟩ | ⟨items, i, w, rfl, rfl, hget, hw, hreplace⟩
    · have hmem : key ∈ Entries.keys members := List.mem_map_of_mem (Entries.mem_of_get? hget)
      obtain ⟨before, u, after, rfl, hkey⟩ := Entries.exists_split_of_mem_keys hmem
      rw [Entries.get?_append, (Entries.get?_eq_none_iff _ _).2 hkey, Option.none_or, Entries.get?,
        if_pos rfl] at hget
      obtain rfl := Option.some.inj hget
      rw [hreplace, Entries.insert_append_cons hkey]
      exact .member hkey (ih hw)
    · obtain ⟨hi, rfl⟩ := List.getElem?_eq_some_iff.1 hget
      have hsplit : items = items.take i ++ items[i] :: items.drop (i + 1) := by
        rw [← List.drop_eq_getElem_cons hi, List.take_append_drop]
      have hset : items.set i (items[i].replaceAt path v') =
          items.take i ++ items[i].replaceAt path v' :: items.drop (i + 1) := by
        rw [List.set_eq_take_append_cons_drop, if_pos hi]
      have hsame : SameBut v v' (.index (items.take i).length :: path)
          (.array (items.take i ++ items[i] :: items.drop (i + 1)))
          (.array (items.take i ++ items[i].replaceAt path v' :: items.drop (i + 1))) :=
        .item (ih hw)
      rwa [List.length_take_of_le hi.le, ← hsplit, ← hset, ← hreplace] at hsame

end Json

namespace Descriptor

open LsxKit.Tree

variable {d s s' : Descriptor} {field : ModuleField} {value : String}

/-! ## Writing a field -/

/-- A field can be written if its id occurs in the tree. -/
theorem exists_set_of_mem (h : field ∈ Entries.keys (moduleEntries s.tree)) (value : String) :
    ∃ s', s.set field value = .ok s' := by
  obtain ⟨⟨f, w⟩, hentry, rfl⟩ := List.mem_map.1 h
  cases hnode : node? s.tree .moduleInfo with
  | none => simp [moduleEntries, hnode] at hentry
  | some node =>
    rw [moduleEntries_eq hnode] at hentry
    obtain ⟨q, hq, hentry⟩ := List.mem_filterMap.1 hentry
    have hlast : (lastValue? node f.id).isSome := by
      rw [lastValue?, Option.isSome_map, List.find?_isSome]
      exact ⟨q, List.mem_reverse.2 hq, by simpa using id_of_moduleEntry hentry⟩
    obtain ⟨known, hknown⟩ := Option.isSome_iff_exists.1 hlast
    exact exists_set hnode hknown value

/-- After edits, a field can be written exactly if the view has it. -/
theorem exists_set_iff (h : Tracks d s) (field : ModuleField) (value : String) :
    (∃ s', s.set field value = .ok s') ↔ (s.get? field).isSome := by
  have hview : (s.get? field).isSome ↔ field ∈ Entries.keys (moduleEntries s.tree) := by
    rw [Descriptor.get?, Option.isSome_iff_ne_none, ne_eq, Entries.get?_eq_none_iff, not_not,
      h.keys, Entries.mem_keys_extend]
    simp
  rw [hview]
  constructor
  · rintro ⟨s', hs'⟩
    exact (moduleEntries_set hs').2.1
  · exact fun hmem => exists_set_of_mem hmem value

/-- A field that cannot be written is reported as a missing attribute of the module. -/
theorem eq_of_set_error (h : Tracks d s) {error : Error}
    (herror : s.set field value = .error error) :
    error = .missingAttribute NodeKind.moduleInfo.id field.id := by
  obtain ⟨node, hnode⟩ := h.node
  simp only [Descriptor.set, hnode] at herror
  split at herror
  · contradiction
  · exact (Except.error.inj herror).symm

/-- Whether the second descriptor is the first one with a value written to a field: in the view, and
in the tree to one attribute of the module with the id of the field. -/
structure OnlyWrites (s : Descriptor) (field : ModuleField) (value : String) (s' : Descriptor) :
    Prop where
  get?_field : s'.get? field = some value
  get?_other : ∀ other, other ≠ field → s'.get? other = s.get? other
  fields : Entries.keys s'.info = Entries.keys s.info
  dependencies : s'.dependencies = s.dependencies
  lineEnds : s'.crlf = s.crlf ∧ s'.endsLine = s.endsLine
  tree : ∃ node q own own', node? s.tree .moduleInfo = some node ∧ q ∈ attributePlaces node ∧
    attributeId? q = some field.id ∧ SameBut (.object own) (.object own') q.path s.tree s'.tree ∧
    Entries.erase "value" own' = Entries.erase "value" own ∧
    Entries.get? "value" own' = some (.string value)

theorem onlyWrites_set (h : Tracks d s) (hset : s.set field value = .ok s') :
    OnlyWrites s field value s' := by
  have hview : field ∈ Entries.keys s.info := by
    have hsome := (exists_set_iff h field value).1 ⟨s', hset⟩
    rwa [Descriptor.get?, Option.isSome_iff_ne_none, ne_eq, Entries.get?_eq_none_iff,
      not_not] at hsome
  obtain ⟨node, q, own, hnode, hown, hfind, rfl⟩ := set_eq_ok hset
  have hmem : q ∈ attributePlaces node := List.mem_of_find?_eq_some hfind
  have hid : attributeId? q = some field.id := by simpa using List.find?_some hfind
  have hat : s.tree.at? q.path = some (.object own) := by
    rw [← hown]
    exact (attributePlaces_reached (reached_node? hnode) hmem).1
  refine ⟨?_, fun other hother => ?_, ?_, rfl, ⟨rfl, rfl⟩, node, q, own, _, hnode, hmem, hid,
    sameBut_replaceAt hat _, Entries.erase_insert _ _ _, ?_⟩
  · rw [Descriptor.get?, Entries.get?_insert, if_pos rfl]
  · rw [Descriptor.get?, Entries.get?_insert, if_neg hother.symm, Descriptor.get?]
  · rw [Entries.keys_insert, if_pos hview]
  · rw [Entries.get?_insert, if_pos rfl]

/-! ## Edits in place -/

/-- Writes a field of a descriptor in place: first to the tree, then to the view. -/
def setInPlace (field : ModuleField) (value : String) : EStateM Error Descriptor Unit := do
  match node? (← get).tree .moduleInfo with
  | none => throw (.missingNode NodeKind.moduleInfo.id)
  | some node =>
    match attribute? node field.id with
    | some ⟨path, .object members⟩ =>
      let changed := Value.object (Entries.insert "value" (.string value) members)
      modify fun d => { d with tree := d.tree.replaceAt path changed }
      modify fun d => { d with info := d.info.insert field value }
    | _ => throw (.missingAttribute NodeKind.moduleInfo.id field.id)

/-- Bumps the version of a descriptor in place, and gives the new one. -/
def bumpInPlace (kind : VersionKind) : EStateM Error Descriptor Version := do
  let current ← MonadExcept.ofExcept (← get).version
  let bumped := current.bump kind
  setInPlace .version (toString bumped.pack.toNat)
  return bumped

/-- An edit of a descriptor in place. -/
def editInPlace : Edit → EStateM Error Descriptor Unit
  | .set field value => setInPlace field value
  | .bump kind => do
    let _ ← bumpInPlace kind
    return

/-- The descriptor that is left, also after an error. -/
def left {α : Type} : EStateM.Result Error Descriptor α → Descriptor
  | .ok _ s | .error _ s => s

/-- The descriptor after edits in place, one after the other. -/
def runInPlace (d : Descriptor) (edits : List Edit) : Descriptor :=
  edits.foldl (fun s e => left ((editInPlace e).run s)) d

/-- The changed descriptor, or the error and the descriptor as it was. -/
def outcome {α : Type} (s : Descriptor) :
    Except Error (Descriptor × α) → EStateM.Result Error Descriptor α
  | .ok (s', a) => .ok a s'
  | .error error => .error error s

/-- A write in place does what a write does, and nothing if that fails. -/
theorem setInPlace_run (s : Descriptor) (field : ModuleField) (value : String) :
    (setInPlace field value).run s = outcome s ((s.set field value).map (·, ())) := by
  simp only [setInPlace, Descriptor.set, EStateM.run_bind, EStateM.run_get]
  cases node? s.tree .moduleInfo with
  | none => rfl
  | some node =>
    dsimp only
    rcases attribute? node field.id with _ | ⟨path, v⟩
    · rfl
    · cases v <;> rfl

/-- So does a bump in place: after the version is read, the write cannot fail half done. -/
theorem bumpInPlace_run (s : Descriptor) (kind : VersionKind) :
    (bumpInPlace kind).run s = outcome s (s.bump kind) := by
  simp only [bumpInPlace, Descriptor.bump, EStateM.run_bind, EStateM.run_get]
  cases s.version with
  | error error => rfl
  | ok current =>
    have hset := setInPlace_run s .version (toString (current.bump kind).pack.toNat)
    simp only [MonadExcept.ofExcept, EStateM.run_pure, hset, bind, Except.bind]
    cases s.set .version (toString (current.bump kind).pack.toNat) with
    | error error => rfl
    | ok s' => rfl

theorem left_editInPlace (s : Descriptor) (e : Edit) : left ((editInPlace e).run s) = s.edit e := by
  cases e with
  | set field value =>
    rw [editInPlace, setInPlace_run, edit]
    cases s.set field value with
    | error error => rfl
    | ok s' => rfl
  | bump kind =>
    rw [editInPlace, EStateM.run_bind, bumpInPlace_run, edit]
    cases s.bump kind with
    | error error => rfl
    | ok result => rfl

/-- Edits in place leave what edits give. -/
theorem runInPlace_eq (d : Descriptor) (edits : List Edit) : d.runInPlace edits = d.run edits := by
  induction edits generalizing d with
  | nil => rfl
  | cons e edits ih =>
    rw [runInPlace, run, List.foldl_cons, List.foldl_cons, left_editInPlace]
    exact ih _

/-! ## Edits after edits -/

/-- A bump succeeds exactly if there is a version. -/
theorem exists_bump_iff_version (h : Tracks d s) (kind : VersionKind) :
    (∃ result, s.bump kind = .ok result) ↔ ∃ v, s.version = .ok v := by
  unfold Descriptor.bump
  rw [exists_bind_iff]
  refine exists_congr fun v => and_iff_left_of_imp fun hversion => ?_
  obtain ⟨value, -, hvalue, -⟩ := exists_version_iff.1 ⟨v, hversion⟩
  have hsome : (s.get? .version).isSome := by
    rw [hvalue]
    rfl
  obtain ⟨s', hset⟩ := (exists_set_iff h .version (toString (v.bump kind).pack.toNat)).2 hsome
  exact exists_bind_iff.2 ⟨s', hset, _, rfl⟩

/-- A bump writes the packed version that it returns, in decimal digits. -/
theorem set_eq_of_bump {kind : VersionKind} {b : Version} (h : s.bump kind = .ok (s', b)) :
    s.set .version (toString b.pack.toNat) = .ok s' := by
  unfold Descriptor.bump at h
  obtain ⟨current, -, h⟩ := bind_eq_ok_iff.1 h
  obtain ⟨changed, hset, h⟩ := bind_eq_ok_iff.1 h
  obtain ⟨rfl, rfl⟩ := Prod.mk.inj (Except.ok.inj h)
  exact hset

/-- After any edits of a descriptor that was read: a field can be written exactly if the view has
it, and otherwise is reported as missing; a write and a bump change nothing but that field. In place
they do the same, and nothing at all if they fail. -/
theorem set_run {text : String} (h : Descriptor.parse text = .ok d) (edits : List Edit) :
    (∀ field value, (∃ s', (d.run edits).set field value = .ok s') ↔
      ((d.run edits).get? field).isSome) ∧
    (∀ field value error, (d.run edits).set field value = .error error →
      error = .missingAttribute NodeKind.moduleInfo.id field.id) ∧
    (∀ field value s', (d.run edits).set field value = .ok s' →
      OnlyWrites (d.run edits) field value s') ∧
    (∀ kind, (∃ result, (d.run edits).bump kind = .ok result) ↔
      ∃ v, (d.run edits).version = .ok v) ∧
    (∀ kind s' b, (d.run edits).bump kind = .ok (s', b) →
      OnlyWrites (d.run edits) .version (toString b.pack.toNat) s') ∧
    d.runInPlace edits = d.run edits ∧
    (∀ field value, (setInPlace field value).run (d.run edits) =
      outcome (d.run edits) (((d.run edits).set field value).map (·, ()))) ∧
    ∀ kind, (bumpInPlace kind).run (d.run edits) =
      outcome (d.run edits) ((d.run edits).bump kind) := by
  have htracks := tracks_run (tracks_parse h) edits
  exact ⟨exists_set_iff htracks, fun _ _ _ => eq_of_set_error htracks,
    fun _ _ _ => onlyWrites_set htracks, exists_bump_iff_version htracks,
    fun _ _ _ hbump => onlyWrites_set htracks (set_eq_of_bump hbump), runInPlace_eq d edits,
    setInPlace_run _, bumpInPlace_run _⟩

/-- A name that is written twice, and a UUID that the descriptor does not have. -/
theorem set_run_name :
    ∃ d s' error, Descriptor.parse (textWith "<attribute id=\"Name\" value=\"a\"/>") = .ok d ∧
      (d.run [.set .name "b"]).set .name "c" = .ok s' ∧
      OnlyWrites (d.run [.set .name "b"]) .name "c" s' ∧
      (setInPlace .uuid "x").run (d.run [.set .name "b"]) =
        .error error (d.run [.set .name "b"]) := by
  have hread : (Descriptor.parse (textWith "<attribute id=\"Name\" value=\"a\"/>")).toOption.map
      (fun d => ((d.run [.set .name "b"]).get? .name, (d.run [.set .name "b"]).get? .uuid)) =
        some (some "b", none) := by decide +kernel
  obtain ⟨d, hparse, hd⟩ := Option.map_eq_some_iff.1 hread
  obtain ⟨hname, huuid⟩ := Prod.mk.inj hd
  obtain ⟨hset, -, hwrites, -, -, -, hinPlace, -⟩ :=
    set_run (ok_of_toOption hparse) [.set .name "b"]
  have hsome : ((d.run [.set .name "b"]).get? .name).isSome := by
    rw [hname]
    rfl
  obtain ⟨s', hs'⟩ := (hset .name "c").2 hsome
  cases huuidSet : (d.run [.set .name "b"]).set .uuid "x" with
  | error error =>
    refine ⟨d, s', error, ok_of_toOption hparse, hs', hwrites _ _ _ hs', ?_⟩
    rw [hinPlace, huuidSet]
    rfl
  | ok s'' =>
    have habsent := (hset .uuid "x").1 ⟨s'', huuidSet⟩
    rw [huuid] at habsent
    contradiction

end Descriptor

end LsxKit
