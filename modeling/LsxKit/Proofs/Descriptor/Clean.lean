import LsxKit.Diagnosis.Engine
import LsxKit.Proofs.Descriptor.Bump
import LsxKit.Proofs.Schema.Members
import LsxKit.Proofs.Schema.Verdict
import LsxKit.Proofs.Tree.Plain

/-!
# Descriptors without problems

The schema of descriptors says in which places the nodes stand, and the descriptor finds them by
their ids. The schema does not say how many nodes and attributes there are.

* `problems_eq_nil_iff`, `satisfies_of_clean`: a document without problems is well formed and
  satisfies the schema.
* `rootNodes_of_satisfies`: the nodes of a descriptor that satisfies the schema.
* `moduleNode_of_satisfies`: the node of the module is the second of them.
* `usable_of_clean`: what can be read from a descriptor without problems, and edited in it.
-/

namespace LsxKit

open Json LsxKit.Tree

/-! ## Documents without problems -/

namespace Engine

variable {e : Engine} {d : TextDocument}

theorem problems_eq_nil_iff : e.problems d = [] ↔ Xml.checkWellFormed d.text = .ok () ∧
    ∃ tree, Tree.parse e.options d.text = .ok tree ∧ e.validator.violations tree = [] := by
  unfold Engine.problems Engine.tree
  cases Xml.checkWellFormed d.text with
  | error error => simp [bind, Except.bind]
  | ok u => cases Tree.parse e.options d.text <;> simp [bind, Except.bind]

/-- A document without problems has a tree that satisfies the schema. -/
theorem satisfies_of_clean {schema : Schema}
    (hvalidator : Schema.Validator.ofSchema schema = .ok e.validator) (h : e.problems d = []) :
    Xml.checkWellFormed d.text = .ok () ∧ ∃ tree, Tree.parse e.options d.text = .ok tree ∧
      Schema.Satisfies NearestAtLeast schema tree := by
  obtain ⟨hcheck, tree, hparse, hviolations⟩ := problems_eq_nil_iff.1 h
  obtain ⟨hschema, hknown⟩ := Schema.allKnown_of_ofSchema hvalidator
  refine ⟨hcheck, tree, hparse, ?_⟩
  rw [← Schema.violationsAt_eq_nil_iff [] tree _ hknown, ← hschema]
  exact hviolations

/-- How a document is found to have no problems by evaluation. -/
theorem clean_of_checked {schema : Schema}
    (hvalidator : Schema.Validator.ofSchema schema = .ok e.validator)
    (hcheck : Xml.checkWellFormed d.text = .ok ())
    (hchecked : (Schema.Validator.ofSchema schema).toOption.bind (fun validator =>
      (Tree.parse e.options d.text).toOption.map fun tree =>
        (validator.violations tree).isEmpty) = some true) : e.problems d = [] := by
  obtain ⟨validator, hvalidator', hchecked⟩ := Option.bind_eq_some_iff.1 hchecked
  obtain ⟨tree, htree, hviolations⟩ := Option.map_eq_some_iff.1 hchecked
  obtain rfl := Except.ok.inj (hvalidator.symm.trans (ok_of_toOption hvalidator'))
  exact problems_eq_nil_iff.2 ⟨hcheck, tree, ok_of_toOption htree, List.isEmpty_iff.1 hviolations⟩

/-- The engine of descriptors has their schema, and reads them with conversion. -/
theorem descriptor_eq_ok (h : Engine.descriptor = .ok e) :
    Schema.Validator.ofSchema Schema.descriptor = .ok e.validator ∧
      e.options.plain = .descriptor := by
  obtain ⟨validator, hvalidator, h⟩ := bind_eq_ok_iff.1 h
  obtain rfl := Except.ok.inj h
  exact ⟨hvalidator, rfl⟩

end Engine

namespace Descriptor

variable {limit : Bound → Number → Prop} {tree : Value}

/-! ## Nodes of descriptors that satisfy the schema -/

theorem members_of_single {p : Place} {key : String} {w : Value} (hget : p.value.get? key = some w)
    (hw : w.isArray = false) : p.members key = [⟨p.path ++ [.key key], w⟩] := by
  unfold Place.members Place.member?
  rw [hget, Option.map_some]
  cases w with
  | array vs => contradiction
  | _ => rfl

theorem values_members {p : Place} {key : String} {vs : List Value}
    (hget : p.value.get? key = some (.array vs)) : (p.members key).map Place.value = vs := by
  unfold Place.members Place.member?
  rw [hget, Option.map_some]
  simp only [Place.entries, List.map_map]
  exact List.zipIdx_map_fst 0 vs

theorem child?_of_get? {v w : Value} {key : String} (h : v.get? key = some w) :
    v.child? (.key key) = some w := by
  cases v with
  | object members => exact h
  | _ => contradiction

/-- The nodes below the root node are written out from values that satisfy the schemas for them, as
far as there is one. -/
theorem rootNodes_of_satisfies (h : Schema.Satisfies limit Schema.descriptor tree) :
    ∃ elements : List Value,
      tree.at? [.key "save", .key "region", .key "node", .key "children", .key "node"] =
        some (.array elements) ∧
      (rootNodes (plain tree)).map Place.value = elements.map plain ∧
      (∀ w, elements[0]? = some w → Schema.Satisfies limit Schema.dependenciesNode w) ∧
      ∀ w, elements[1]? = some w → Schema.Satisfies limit Schema.moduleNode w := by
  obtain ⟨save, hsave, h⟩ := Schema.member_of_satisfies "save" _ rfl
    (List.mem_cons_of_mem _ List.mem_cons_self) (List.mem_cons_of_mem _ List.mem_cons_self) h
  obtain ⟨region, hregion, h⟩ := Schema.member_of_satisfies "region" _ rfl
    (List.mem_cons_of_mem _ List.mem_cons_self) (List.mem_cons_of_mem _ List.mem_cons_self) h
  obtain ⟨hsingleRegion, hidRegion, root, hroot, h⟩ := Schema.node_of_satisfies (by decide) h
  obtain ⟨hsingleRoot, hidRoot, children, hchildren, h⟩ := Schema.node_of_satisfies (by decide) h
  obtain ⟨nodes, hnodes, h⟩ := Schema.childNodes_of_satisfies h
  obtain ⟨elements, rfl, hplaces⟩ := Schema.array_of_satisfies_tupleOf h
  refine ⟨elements, ?_, ?_, fun w => hplaces 0 _ w rfl, fun w => hplaces 1 _ w rfl⟩
  · rw [Value.at?_cons, child?_of_get? hsave, Option.bind_some, Value.at?_cons,
      child?_of_get? hregion, Option.bind_some, Value.at?_cons, child?_of_get? hroot,
      Option.bind_some, Value.at?_cons, child?_of_get? hchildren, Option.bind_some, Value.at?_cons,
      child?_of_get? hnodes, Option.bind_some, Value.at?_nil]
  have hget : ∀ {v w : Value} {key : String}, v.get? key = some w →
      (plain v).get? key = some (plain w) := by
    intro v w key hv
    rw [get?_plain, hv, Option.map_some]
  have hrootNode : rootNode? (plain tree) = some ⟨[.key "save", .key "region", .key "node"],
      plain root⟩ := by
    unfold rootNode?
    rw [Place.top, Place.member?, hget hsave]
    simp only [Option.map_some, Option.bind_eq_bind, Option.bind_some]
    rw [members_of_single (hget hregion) ((isArray_plain _).trans hsingleRegion)]
    rw [List.find?_cons_of_pos (by simpa using id?_plain (hidRegion []))]
    simp only [Option.some_or, Option.bind_some]
    rw [members_of_single (hget hroot) ((isArray_plain _).trans hsingleRoot)]
    rw [List.find?_cons_of_pos (by simpa using id?_plain (hidRoot []))]
    rfl
  unfold rootNodes
  simp only [hrootNode]
  unfold childNodes Place.member?
  rw [hget hchildren, Option.map_some]
  exact values_members ((hget hnodes).trans (by rw [plain, plainItems_eq]))

/-- The path to the node of the module in a tree that satisfies the schema. -/
def modulePath : List Step :=
  [.key "save", .key "region", .key "node", .key "children", .key "node", .index 1]

/-- The node of the module is the second of the nodes. -/
theorem moduleNode_of_satisfies (h : Schema.Satisfies limit Schema.descriptor tree) :
    node? (plain tree) .moduleInfo = (rootNodes (plain tree))[1]? ∧
      ∀ node, node? (plain tree) .moduleInfo = some node →
        ∃ w, tree.at? modulePath = some w ∧ node.value = plain w ∧
          Schema.Satisfies limit Schema.moduleNode w := by
  obtain ⟨elements, hat, hvalues, hfirst, hsecond⟩ := rootNodes_of_satisfies h
  have hplace : ∀ (i : Nat) p, (rootNodes (plain tree))[i]? = some p →
      ∃ w, elements[i]? = some w ∧ p.value = plain w := by
    intro i p hp
    have hi := congrArg (·[i]?) hvalues
    simp only [List.getElem?_map, hp, Option.map_some] at hi
    obtain ⟨w, hw, hvalue⟩ := Option.map_eq_some_iff.1 hi.symm
    exact ⟨w, hw, hvalue.symm⟩
  have hid : ∀ (i : Nat) name p, (rootNodes (plain tree))[i]? = some p →
      (∀ w, elements[i]? = some w → ∀ path, Place.id? ⟨path, w⟩ = some name) →
        p.id? = some name := by
    intro i name p hp hname
    obtain ⟨w, hw, hvalue⟩ := hplace i p hp
    obtain ⟨path, v⟩ := p
    obtain rfl : v = plain w := hvalue
    exact id?_plain (hname w hw [])
  have hdependencies := fun p hp => hid 0 "Dependencies" p hp fun w hw =>
    Schema.id?_of_satisfies rfl List.mem_cons_self List.mem_cons_self (hfirst w hw)
  have hmodule := fun p hp => hid 1 "ModuleInfo" p hp fun w hw =>
    Schema.id?_of_satisfies rfl List.mem_cons_self List.mem_cons_self (hsecond w hw)
  have hnode : node? (plain tree) .moduleInfo = (rootNodes (plain tree))[1]? := by
    unfold node?
    cases hnodes : rootNodes (plain tree) with
    | nil => rfl
    | cons p ps =>
      rw [hnodes] at hdependencies hmodule
      rw [List.find?_cons_of_neg (by simp [hdependencies p rfl, NodeKind.id])]
      cases ps with
      | nil => rfl
      | cons q ps => exact List.find?_cons_of_pos (by simp [hmodule q rfl, NodeKind.id])
  refine ⟨hnode, fun node hfound => ?_⟩
  obtain ⟨w, hw, hvalue⟩ := hplace 1 node (hnode.symm.trans hfound)
  refine ⟨w, ?_, hvalue, hsecond w hw⟩
  show tree.at? ([.key "save", .key "region", .key "node", .key "children", .key "node"] ++
    [.index 1]) = some w
  rw [Value.at?_append, hat, Option.bind_some, Value.at?_cons, Value.child?, hw, Option.bind_some,
    Value.at?_nil]

/-- The value of the last attribute of a node with an id. -/
def lastValue? (node : Place) (id : String) : Option String :=
  ((attributePlaces node).reverse.find? (attributeId? · = some id)).map attributeValue

/-- What is known of a field is the value of the last attribute with its id. -/
theorem get?_moduleEntries (node : Place) (field : ModuleField) :
    Entries.get? field (Entries.extend [] ((attributePlaces node).filterMap moduleEntry)) =
      lastValue? node field.id := by
  rw [Entries.get?_extend_nil, ← List.filterMap_reverse, lastValue?]
  induction (attributePlaces node).reverse with
  | nil => rfl
  | cons p ps ih =>
    by_cases hid : attributeId? p = some field.id
    · rw [List.filterMap_cons_some (moduleEntry_of_id hid), Entries.get?, if_pos rfl,
        List.find?_cons_of_pos (by simpa using hid), Option.map_some]
    · rw [List.find?_cons_of_neg (by simpa using hid)]
      cases hentry : moduleEntry p with
      | none => rw [List.filterMap_cons_none hentry, ih]
      | some entry =>
        obtain ⟨field', value⟩ := entry
        have hne : field' ≠ field := fun he => hid (he ▸ id_of_moduleEntry hentry)
        rw [List.filterMap_cons_some hentry, Entries.get?, if_neg hne, ih]

variable {m : Descriptor} {text : String}

/-- A tree is that of a descriptor exactly if it has a node of the module. -/
theorem exists_parse_iff (h : Tree.parse .descriptor text = .ok tree) :
    (∃ m, Descriptor.parse text = .ok m) ↔ (node? tree .moduleInfo).isSome := by
  unfold Descriptor.parse infoOf
  rw [h, exists_bind_iff]
  cases hnode : node? tree .moduleInfo <;>
    simp [hnode, bind, Except.bind, pure, Except.pure]

/-- What a descriptor knows of a field when it is read. -/
theorem get?_of_parse (h : Descriptor.parse text = .ok m) :
    ∃ node, node? m.tree .moduleInfo = some node ∧
      ∀ field, m.get? field = lastValue? node field.id := by
  obtain ⟨node, hnode⟩ := (tracks_parse h).node
  have hinfo := (parse_eq_ok h).2.1
  rw [infoOf_eq hnode, moduleEntries_eq hnode, Except.ok.injEq] at hinfo
  exact ⟨node, hnode, fun field => by rw [Descriptor.get?, ← hinfo, get?_moduleEntries]⟩

/-- An attribute that is known can be written. -/
theorem exists_set {node : Place} (hnode : node? m.tree .moduleInfo = some node)
    {field : ModuleField} {known : String} (h : lastValue? node field.id = some known)
    (value : String) : ∃ m', m.set field value = .ok m' := by
  obtain ⟨q, hfind, -⟩ := Option.map_eq_some_iff.1 h
  have hmem : q ∈ attributePlaces node := List.mem_reverse.1 (List.mem_of_find?_eq_some hfind)
  have hid : attributeId? q = some field.id := by simpa using List.find?_some hfind
  have hsome : ((attributePlaces node).find? (attributeId? · = some field.id)).isSome := by
    rw [List.find?_isSome]
    exact ⟨q, hmem, by simpa using hid⟩
  obtain ⟨first, hfirst⟩ := Option.isSome_iff_exists.1 hsome
  have hfirstId : attributeId? first = some field.id := by simpa using List.find?_some hfirst
  obtain ⟨path, v⟩ := first
  unfold Descriptor.set
  simp only [hnode, attribute?, hfirst]
  cases v with
  | object members => exact ⟨_, rfl⟩
  | _ => simp [attributeId?, Value.get?] at hfirstId

/-- The version is that of the last attribute for it, if this is a number of 64 bits. -/
theorem exists_version_iff :
    (∃ v, m.version = .ok v) ↔ ∃ value n, m.get? .version = some value ∧
      Version.packed? (Text.trimBy Text.isBlank value.toList) = some n := by
  unfold Descriptor.version
  simp only [exists_bind_iff, require_eq_ok_iff, Version.parsePacked]
  refine exists_congr fun value => ?_
  cases Version.packed? (Text.trimBy Text.isBlank value.toList) <;> simp

/-- What holds of the entries of a node is known from the elements of which they are written
out. -/
theorem values_entries {node : Place} {w : Value} {elements : List Value}
    (hnode : node.value = plain w) (hattributes : w.get? "attribute" = some (.array elements)) :
    (node.members "attribute").map Place.value = elements.map plain := by
  refine values_members ?_
  rw [hnode, get?_plain, hattributes, Option.map_some, plain, plainItems_eq]

/-- The characters of a descriptor with the given nodes below its root node. -/
def charsWithNodes (nodes : List String) : List Char :=
  (["<?xml version=\"1.0\" encoding=\"utf-8\"?>", "<save><version major=\"4\" ",
    "minor=\"0\" revision=\"9\" build=\"0\"/>", "<region id=\"Config\"><node id=\"root\">",
    "<children><node id=\"Dependencies\"/>"] ++ nodes ++
    ["</children></node></region></save>"]).flatMap String.toList

/-- The text of a descriptor with the given nodes below its root node. -/
def textWithNodes (nodes : List String) : String := String.ofList (charsWithNodes nodes)

/-- The engine of descriptors with given patterns. -/
def engineOf (validator : Schema.Validator) : Engine :=
  ⟨Engine.defaultSource, validator, fun d => d.language = "xml" && d.nameEndsWith "meta.lsx",
    { Options.descriptor with convert := true }⟩

theorem descriptor_engineOf {validator : Schema.Validator}
    (h : Schema.Validator.ofSchema Schema.descriptor = .ok validator) :
    Engine.descriptor = .ok (engineOf validator) := by
  rw [Engine.descriptor, Engine.ofSchema, h]
  rfl

end Descriptor

end LsxKit
