import LsxKit.Proofs.Tree.Elements
import LsxKit.Proofs.Tree.Invariant
import LsxKit.Proofs.Tree.Plain

/-!
# Conversion and writing

A scalar is written as the text that it was read from, whether it became a number or a boolean, or
stayed a text. So a tree that is read with conversion and the tree that is read without it are
written as the same text, as long as only scalars stand where a scalar is expected: under the key
of texts and in groups of attributes.

* `Legible`: the trees in which that is so.
* `valueMarks_plain`, `write_plain`: such a tree is written like the tree with every scalar written
  out.
* `legible_elementValue`: the tree of an element is of this kind if those of its children are.
* `legible_parse`: the trees of texts in which no name is that of the group or of texts.
* `write_unconverted`: conversion is not seen in what is written.
-/

namespace LsxKit.Tree

open Json Xml

/-! ## Legible trees -/

/-- Whether a member of an element is what its role asks for; `inner` says that a child is
legible. -/
def MemberLegible (o : Options) (m : String × Value) (inner : Prop) : Prop :=
  match role o m.1 m.2 with
  | .text | .attribute => IsScalar m.2
  | .group => ∃ own, m.2 = .object own ∧ ∀ a ∈ own, IsScalar a.2
  | .child => inner

mutual

/-- Whether texts and attributes in a tree are scalars, and arrays are not nested. -/
def Legible (o : Options) : Value → Prop
  | .array items => AllLegible o items
  | .object members => MembersLegible o members
  | _ => True
  termination_by structural v => v

/-- Whether all values are legible, none of them an array. -/
def AllLegible (o : Options) : List Value → Prop
  | [] => True
  | v :: vs => (v.isArray = false ∧ Legible o v) ∧ AllLegible o vs
  termination_by structural vs => vs

/-- Whether all members of an element are what their roles ask for. -/
def MembersLegible (o : Options) : List (String × Value) → Prop
  | [] => True
  | (key, v) :: members => MemberLegible o (key, v) (Legible o v) ∧ MembersLegible o members
  termination_by structural members => members

end

variable {o : Options}

theorem allLegible_iff {vs : List Value} :
    AllLegible o vs ↔ ∀ v ∈ vs, v.isArray = false ∧ Legible o v := by
  induction vs with
  | nil => simp [AllLegible]
  | cons v vs ih => rw [AllLegible, ih, List.forall_mem_cons]

theorem membersLegible_iff {members : List (String × Value)} :
    MembersLegible o members ↔ ∀ m ∈ members, MemberLegible o m (Legible o m.2) := by
  induction members with
  | nil => simp [MembersLegible]
  | cons m members ih => rw [MembersLegible, ih, List.forall_mem_cons]

/-! ## Scalars written out -/

theorem render_plain {v : Value} (h : IsScalar v) : Scalar.render (plain v) = Scalar.render v := by
  rw [plain_of_isScalar h]
  rfl

theorem isObject_plain (v : Value) : (plain v).isObject = v.isObject := by
  cases v <;> rfl

theorem role_plain (key : String) (v : Value) : role o.plain key (plain v) = role o key v := by
  rw [role, role, isObject_plain, isArray_plain]
  rfl

theorem memberAttributes_plain (tag : String) {members : List (String × Value)}
    (h : MembersLegible o members) :
    ∃ attributes, memberAttributes o tag members = .ok attributes ∧
      memberAttributes o.plain tag (plainMembers members) = .ok attributes := by
  induction members with
  | nil => exact ⟨[], rfl, rfl⟩
  | cons m members ih =>
    obtain ⟨key, v⟩ := m
    obtain ⟨hm, hmembers⟩ := h
    obtain ⟨attributes, hown, hplain⟩ := ih hmembers
    unfold MemberLegible at hm
    have hkeep := role_plain (o := o) key v
    match hrole : role o key v with
    | .group =>
      rw [hrole] at hm hkeep
      obtain ⟨values, rfl, hscalars⟩ := hm
      have hvalues : (plainMembers values).map (fun a => (a.1, Scalar.render a.2)) =
          values.map fun a => (a.1, Scalar.render a.2) := by
        rw [plainMembers_eq, List.map_map]
        exact List.map_congr_left fun a ha => congrArg (Prod.mk a.1) (render_plain (hscalars a ha))
      rw [plain] at hkeep
      refine ⟨values.map (fun a => (a.1, Scalar.render a.2)) ++ attributes, ?_, ?_⟩
      · simp [memberAttributes, hrole, hown, bind, Except.bind, pure, Except.pure]
      · simp [plainMembers, plain, memberAttributes, hkeep, hplain, hvalues, bind, Except.bind,
          pure, Except.pure]
    | .attribute =>
      rw [hrole] at hm hkeep
      refine ⟨(key, Scalar.render v) :: attributes, ?_, ?_⟩
      · simp [memberAttributes, hrole, hown, bind, Except.bind, pure, Except.pure]
      · simp [plainMembers, memberAttributes, hkeep, hplain, render_plain hm, bind, Except.bind,
          pure, Except.pure]
    | .text | .child =>
      rw [hrole] at hkeep
      refine ⟨attributes, ?_, ?_⟩
      · simp [memberAttributes, hrole, hown]
      · simp [plainMembers, memberAttributes, hkeep, hplain]

theorem memberText_plain {members : Entries String Value} (h : MembersLegible o members) :
    memberText (plainMembers members) = memberText members := by
  rw [memberText, memberText, plainMembers_eq, Entries.get?_map]
  cases hget : Entries.get? textKey members with
  | none => rfl
  | some v =>
    have hm := membersLegible_iff.1 h _ (Entries.mem_of_get? hget)
    rw [MemberLegible, role_textKey] at hm
    exact render_plain hm

theorem all_not_child_plain (members : List (String × Value)) :
    ((plainMembers members).all fun m => role o.plain m.1 m.2 ≠ .child) =
      members.all fun m => role o m.1 m.2 ≠ .child := by
  rw [plainMembers_eq, List.all_map]
  simp only [Function.comp_def, role_plain]

/-! ## What is written -/

theorem declarationMark_declarationValue (d : Declaration) :
    declarationMark o (declarationValue o d) =
      .declaration d.version d.encoding d.standalone := by
  show Mark.declaration (declarationOf o (declarationValue o d)).version
    (declarationOf o (declarationValue o d)).encoding
    (declarationOf o (declarationValue o d)).standalone = _
  rw [declarationOf_declarationValue]

mutual

/-- A legible value is written, and like the value with every scalar written out. -/
theorem valueMarks_plain (tag : String) (v : Value) (h : Legible o v) :
    ∃ ms, valueMarks o tag v = .ok ms ∧ valueMarks o.plain tag (plain v) = .ok ms := by
  match v with
  | .array items => exact itemMarks_plain tag items h
  | .object members =>
    obtain ⟨attributes, hattributes, hattributes'⟩ := memberAttributes_plain tag h
    obtain ⟨children, hchildren, hchildren'⟩ := childMarks_plain members h
    rw [plain, valueMarks, valueMarks, hattributes, hattributes', hchildren, hchildren']
    refine ⟨_, rfl, ?_⟩
    rw [memberText_plain h]
    exact congrArg
      (fun noChildren => Except.ok
        (elementMarks tag attributes (memberText members) noChildren children))
      (all_not_child_plain members)
  | .null | .bool _ | .number _ | .string _ => exact ⟨_, rfl, rfl⟩
  termination_by structural v

/-- So are several values under a tag. -/
theorem itemMarks_plain (tag : String) (vs : List Value) (h : AllLegible o vs) :
    ∃ ms, itemMarks o tag vs = .ok ms ∧ itemMarks o.plain tag (plainItems vs) = .ok ms := by
  match vs with
  | [] => exact ⟨[], rfl, rfl⟩
  | v :: vs =>
    obtain ⟨⟨harray, hv⟩, hvs⟩ := h
    obtain ⟨own, hown, hown'⟩ := valueMarks_plain tag v hv
    obtain ⟨rest, hrest, hrest'⟩ := itemMarks_plain tag vs hvs
    refine ⟨own ++ rest, ?_, ?_⟩
    · rw [itemMarks, hown, hrest, harray]
      rfl
    · rw [plainItems, itemMarks, hown', hrest', isArray_plain, harray]
      rfl
  termination_by structural vs

/-- So are the children among members. -/
theorem childMarks_plain (members : List (String × Value)) (h : MembersLegible o members) :
    ∃ ms, childMarks o members = .ok ms ∧ childMarks o.plain (plainMembers members) = .ok ms := by
  match members with
  | [] => exact ⟨[], rfl, rfl⟩
  | (key, v) :: members =>
    obtain ⟨hm, hmembers⟩ := h
    obtain ⟨rest, hrest, hrest'⟩ := childMarks_plain members hmembers
    rw [plainMembers, childMarks, childMarks, role_plain, hrest, hrest']
    by_cases hrole : role o key v = .child
    · unfold MemberLegible at hm
      rw [hrole] at hm
      obtain ⟨own, hown, hown'⟩ := valueMarks_plain key v hm
      rw [if_pos hrole, if_pos hrole, hown, hown']
      exact ⟨own ++ rest, rfl, rfl⟩
    · rw [if_neg hrole, if_neg hrole]
      exact ⟨rest, rfl, rfl⟩
  termination_by structural members

end

/-- Whether a member of a document is a declaration or legible. -/
def RootLegible (o : Options) (m : String × Value) : Prop :=
  if m.1 = declarationKey then ∃ d, m.2 = declarationValue o d else Legible o m.2

theorem documentMarks_plain {members : List (String × Value)}
    (h : ∀ m ∈ members, RootLegible o m) :
    ∃ ms, documentMarks o members = .ok ms ∧
      documentMarks o.plain (plainMembers members) = .ok ms := by
  induction members with
  | nil => exact ⟨[], rfl, rfl⟩
  | cons m members ih =>
    obtain ⟨key, v⟩ := m
    rw [List.forall_mem_cons] at h
    obtain ⟨hm, hmembers⟩ := h
    obtain ⟨rest, hrest, hrest'⟩ := ih hmembers
    rw [plainMembers, documentMarks, documentMarks, hrest, hrest']
    unfold RootLegible at hm
    split_ifs at hm with hkey
    · obtain ⟨d, hd⟩ := hm
      obtain rfl : v = declarationValue o d := hd
      rw [if_pos hkey, if_pos hkey, plain_declarationValue, declarationMark_declarationValue,
        declarationMark_declarationValue]
      exact ⟨_, rfl, rfl⟩
    · obtain ⟨own, hown, hown'⟩ := valueMarks_plain key v hm
      rw [if_neg hkey, if_neg hkey, hown, hown']
      exact ⟨own ++ rest, rfl, rfl⟩

/-- Whether a value is a document with legible members. -/
def LegibleDocument (o : Options) (tree : Value) : Prop :=
  ∃ members, tree = .object members ∧ ∀ m ∈ members, RootLegible o m

/-- A legible document is written, and like the document with every scalar written out. -/
theorem write_plain {tree : Value} (h : LegibleDocument o tree) :
    ∃ written, write o tree = .ok written ∧ write o.plain (plain tree) = .ok written := by
  obtain ⟨members, rfl, hmembers⟩ := h
  obtain ⟨ms, hms, hms'⟩ := documentMarks_plain hmembers
  refine ⟨String.ofList (spaceEmptyTags (Mark.layout 0 false ms)), ?_, ?_⟩
  · rw [write, marks, hms]
  · rw [write, plain, marks, hms']

/-! ## What is read -/

theorem legible_of_isScalar {v : Value} (h : IsScalar v) : Legible o v := by
  obtain ⟨hobject, harray⟩ := h
  cases v with
  | object members => contradiction
  | array items => contradiction
  | _ => trivial

/-- A scalar may stand under every key but that of the group. -/
theorem memberLegible_of_isScalar {key : String} {v : Value} (hkey : o.group ≠ some key)
    (hv : IsScalar v) : MemberLegible o (key, v) (Legible o v) := by
  unfold MemberLegible
  cases hrole : role o key v with
  | text => exact hv
  | group =>
    unfold role at hrole
    split_ifs at hrole
  | child => exact legible_of_isScalar hv
  | _ => exact hv

/-- Whether a name is none of the keys that are not element names. -/
structure Options.Free (o : Options) (name : String) : Prop where
  text : name ≠ textKey
  group : o.group ≠ some name
  declaration : name ≠ declarationKey

/-- A legible value may stand under every other key. -/
theorem memberLegible_of_free {key : String} {v : Value} (hkey : o.Free key) (hv : Legible o v) :
    MemberLegible o (key, v) (Legible o v) := by
  unfold MemberLegible
  rw [role, if_neg hkey.text, if_neg hkey.group]
  split_ifs with hscalar
  · rw [Bool.and_eq_true, Bool.not_eq_true', Bool.or_eq_false_iff] at hscalar
    exact hscalar.2
  · exact hv

/-- The first members of an element are attributes or their group. -/
theorem legible_attributeMembers (hgroup : o.group ≠ some textKey)
    (attributes : List (String × String)) :
    ∀ m ∈ attributeMembers o attributes, MemberLegible o m (Legible o m.2) := by
  have hvalues : ∀ m ∈ attributeValues o attributes, IsScalar m.2 := by
    intro m hm
    rcases Entries.mem_extend hm with hm | hm
    · contradiction
    · obtain ⟨a, -, rfl⟩ := List.mem_map.1 hm
      exact isScalar_ofText _ _
  rw [attributeMembers]
  cases hg : o.group with
  | none => exact fun m hm => memberLegible_of_isScalar (by simp [hg]) (hvalues m hm)
  | some group =>
    intro m hm
    obtain rfl := List.mem_singleton.1 hm
    rw [MemberLegible, role_group hg fun he => hgroup (by rw [hg, he])]
    exact ⟨_, rfl, hvalues⟩

/-- The tree of an element is legible if those of its children are. -/
theorem legible_elementValue (hgroup : o.group ≠ some textKey)
    (attributes : List (String × String)) {children : Entries String Value} (text : List Char)
    (hchildren : ChildrenHold o.Free (Legible o) children) :
    Legible o (elementValue o attributes children text) := by
  rcases elementValue_cases o attributes children text with ⟨s, h⟩ | ⟨members, h, hmembers⟩
  · rw [h]
    exact legible_of_isScalar (isScalar_ofText _ _)
  · rw [h]
    refine membersLegible_iff.2 fun m hm => ?_
    rcases hmembers m hm with hattribute | hchild | ⟨s, rfl⟩
    · exact legible_attributeMembers hgroup attributes m hattribute
    · exact memberLegible_of_free (hchildren.2 m hchild).1 (hchildren.2 m hchild).2
    · exact memberLegible_of_isScalar hgroup (isScalar_ofText _ _)

theorem legible_invariant (hgroup : o.group ≠ some textKey) :
    ReadingInvariant o o.Free (fun _ => True) (Legible o) where
  good_ne _ h := h.declaration
  array _ := allLegible_iff
  element attributes _ text _ := legible_elementValue hgroup attributes text

/-- The tree of a text in which no name is that of the group or of texts is legible. -/
theorem legible_parse (hgroup : o.group ≠ some textKey) {text : String} {tree : Value}
    (hnames : ∀ n ∈ names text, n ≠ textKey ∧ o.group ≠ some n) (h : parse o text = .ok tree) :
    LegibleDocument o tree := by
  have hfree : ∀ n ∈ elementNames text, n.toList.head? ≠ some '?' → o.Free n := by
    intro n hn hhead
    obtain ⟨hntext, hngroup⟩ := hnames n (elementNames_subset text hn)
    refine ⟨hntext, hngroup, ?_⟩
    rintro rfl
    exact hhead (by decide)
  obtain ⟨members, rfl, -, hmembers⟩ :=
    (legible_invariant hgroup).parse hfree (fun _ _ => trivial) h
  refine ⟨members, rfl, fun m hm => ?_⟩
  rcases hmembers m hm with hdeclaration | ⟨hgood, hlegible⟩
  · rw [RootLegible, if_pos hdeclaration.1]
    exact hdeclaration.2
  · rwa [RootLegible, if_neg hgood.declaration]

/-! ## Both ways of reading -/

/-- With and without conversion the same texts are read, and then both trees are written as the
same text. This is so if no name in the text is that of the group or the key of texts. -/
theorem write_unconverted (o : Options) (text : String) (hgroup : o.group ≠ some textKey)
    (hnames : ∀ n ∈ names text, n ≠ textKey ∧ o.group ≠ some n) :
    ((∃ t, parse { o with convert := true } text = .ok t) ↔
      ∃ t, parse { o with convert := false } text = .ok t) ∧
    ∀ t t', parse { o with convert := true } text = .ok t →
      parse { o with convert := false } text = .ok t' →
      ∃ written, write { o with convert := true } t = .ok written ∧
        write { o with convert := false } t' = .ok written := by
  have hplain : parse { o with convert := false } text =
      (parse { o with convert := true } text).map plain :=
    parse_plain { o with convert := true } text
  rw [hplain]
  refine ⟨⟨fun ⟨t, ht⟩ => ⟨plain t, map_eq_ok_iff.2 ⟨t, ht, rfl⟩⟩, fun ⟨t', ht'⟩ => ?_⟩, ?_⟩
  · obtain ⟨t, ht, -⟩ := map_eq_ok_iff.1 ht'
    exact ⟨t, ht⟩
  · intro t t' ht ht'
    rw [ht] at ht'
    obtain rfl := Except.ok.inj ht'
    exact write_plain (legible_parse (o := { o with convert := true }) hgroup hnames ht)

/-- A number with leading zeros, one with an exponent and one that is converted. -/
theorem write_unconverted_numbers :
    ∃ t t' written, parse { Options.standard with convert := true }
        "<a x=\"007\"><b>1e3</b><b>2.5</b></a>" = .ok t ∧
      parse { Options.standard with convert := false }
        "<a x=\"007\"><b>1e3</b><b>2.5</b></a>" = .ok t' ∧
      write { Options.standard with convert := true } t = .ok written ∧
      write { Options.standard with convert := false } t' = .ok written := by
  have hread : (parse { Options.standard with convert := true }
      "<a x=\"007\"><b>1e3</b><b>2.5</b></a>").toOption.isSome = true := by decide +kernel
  obtain ⟨t, ht⟩ := Option.isSome_iff_exists.1 hread
  have ht := ok_of_toOption ht
  obtain ⟨hiff, hwrite⟩ := write_unconverted .standard
    "<a x=\"007\"><b>1e3</b><b>2.5</b></a>" (by decide) (by decide +kernel)
  obtain ⟨t', ht'⟩ := hiff.1 ⟨t, ht⟩
  obtain ⟨written, hwritten, hwritten'⟩ := hwrite t t' ht ht'
  exact ⟨t, t', written, ht, ht', hwritten, hwritten'⟩

end LsxKit.Tree
