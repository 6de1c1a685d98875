import LsxKit.Proofs.Tree.Change
import LsxKit.Proofs.Tree.Reread
import LsxKit.Proofs.Xml.Occurrence

/-!
# Elements that paths lead to

A key of a path into a document tree stands for the elements of that name inside an element, an
index for one of them. So a path that leads to a value which is no array leads to an element.

* `elementAt?`: the element to which a path leads.
* `get?_addContent`: the member under a name gathers the trees of the elements of that name.
* `exists_elementAt?`: where a path leads to in the tree of a document, an element occurs.
-/

namespace LsxKit

open Json

/-! ## Paths to elements -/

namespace Xml.Occurrence

/-- The element to which a path leads from elements of one name. At its end that is the first of
them; a key leads to the elements of a name inside the first of them, an index to one of them. -/
def lead (here : List Occurrence) : List Json.Step → Option Occurrence
  | [] => here.head?
  | .key k :: path =>
    match here with
    | [] => none
    | e :: _ => lead (named k e.inside) path
  | .index i :: path => lead here[i]?.toList path

/-- The element to which a path leads from root elements. -/
def elementAt? (roots : List Occurrence) : List Json.Step → Option Occurrence
  | .key k :: path => lead (named k roots) path
  | _ => none

end Xml.Occurrence

namespace Tree

open Xml Occurrence

variable {o : Options} {path tag : String} {members : Entries String Value}

/-! ## Members of a tree -/

theorem get?_addChild_of_ne {key : String} (h : tag ≠ key) (members : Entries String Value)
    (t : Value) (forced : Bool) :
    Entries.get? key (addChild members tag t forced) = Entries.get? key members := by
  rw [addChild, Entries.alter_eq_insert, Entries.get?_insert, if_neg h]

/-- The value under a tag after trees are added there depends only on the value before. -/
theorem get?_foldl_addChild {members' : Entries String Value}
    (h : Entries.get? tag members = Entries.get? tag members') (forced : Bool)
    (vs : List Value) :
    Entries.get? tag (vs.foldl (fun ms t => addChild ms tag t forced) members) =
      Entries.get? tag (vs.foldl (fun ms t => addChild ms tag t forced) members') := by
  induction vs generalizing members members' with
  | nil => exact h
  | cons v vs ih =>
    have hadd : Entries.get? tag (addChild members tag v forced) =
        Entries.get? tag (addChild members' tag v forced) := by
      rw [addChild, addChild, Entries.alter_eq_insert, Entries.alter_eq_insert,
        Entries.get?_insert, Entries.get?_insert, h]
    exact ih hadd

/-- The trees of the elements with a name, which stand at a dotted path. -/
def treesNamed (o : Options) (path name : String) : List Node → List Value
  | [] => []
  | .text _ :: ns => treesNamed o path name ns
  | .element n attributes content :: ns =>
    if n = name then
      elementValue o attributes (addContent o path [] content) (contentText content) ::
        treesNamed o path name ns
    else treesNamed o path name ns

theorem isArray_elementValue (attributes : List (String × String))
    (children : Entries String Value) (text : List Char) :
    (elementValue o attributes children text).isArray = false := by
  unfold elementValue
  dsimp only
  generalize (if attributes.isEmpty then children
    else Entries.extend (attributeMembers o attributes) children) = members
  split_ifs
  · exact isArray_ofText _ _
  · rfl
  · rfl

theorem isArray_treesNamed (path name : String) (ns : List Node) :
    ∀ v ∈ treesNamed o path name ns, v.isArray = false := by
  induction ns with
  | nil => exact nofun
  | cons n ns ih =>
    cases n with
    | text chars => exact ih
    | element n attributes content =>
      rw [treesNamed]
      split_ifs
      · exact List.forall_mem_cons.2 ⟨isArray_elementValue _ _ _, ih⟩
      · exact ih

/-- What stands under a key when trees are gathered there. -/
def gathered? (forced : Bool) (vs : List Value) : Option Value :=
  if vs = [] then none else some (gathered forced vs)

theorem gathered_forced (vs : List Value) : gathered true vs = .array vs := by
  unfold gathered
  split <;> rfl

theorem get?_foldl_nil (tag : String) (forced : Bool) {vs : List Value}
    (h : ∀ v ∈ vs, v.isArray = false) :
    Entries.get? tag (vs.foldl (fun ms t => addChild ms tag t forced) []) =
      gathered? forced vs := by
  unfold gathered?
  split_ifs with hvs
  · rw [hvs]
    rfl
  · have hnew : tag ∉ Entries.keys ([] : Entries String Value) := List.not_mem_nil
    rw [foldl_addChild hnew forced hvs h]
    simp [Entries.get?]

/-- The member under a name gathers the trees of the elements of that name. -/
theorem get?_addContent (path name : String) (ns : List Node) :
    Entries.get? name (addContent o path [] ns) =
      gathered? (o.alwaysArray name (path ++ "." ++ name))
        (treesNamed o (path ++ "." ++ name) name ns) := by
  -- each node is added to the members of those before it, whatever these are
  have hadd : ∀ members, Entries.get? name (addContent o path members ns) =
      Entries.get? name ((treesNamed o (path ++ "." ++ name) name ns).foldl
        (fun ms t => addChild ms name t (o.alwaysArray name (path ++ "." ++ name))) members) := by
    induction ns with
    | nil => exact fun _ => rfl
    | cons n ns ih =>
      intro members
      cases n with
      | text chars => exact ih members
      | element n attributes content =>
        rw [addContent, addNode, treesNamed, ih]
        split_ifs with hn
        · rw [hn]
          rfl
        · exact get?_foldl_addChild (get?_addChild_of_ne hn _ _ _) _ _
  rw [hadd, get?_foldl_nil name _ (isArray_treesNamed _ _ _)]

/-- The member under the name of a root element gathers the trees of the root elements of that
name. -/
theorem get?_items {name : String} (hname : name ≠ declarationKey) (d : Document) :
    Entries.get? name (d.foldl (addItem o) []) =
      gathered? (o.alwaysArray name name) (treesNamed o name name (Document.nodes d)) := by
  have hadd : ∀ members, Entries.get? name (d.foldl (addItem o) members) =
      Entries.get? name ((treesNamed o name name (Document.nodes d)).foldl
        (fun ms t => addChild ms name t (o.alwaysArray name name)) members) := by
    induction d with
    | nil => exact fun _ => rfl
    | cons i d ih =>
      intro members
      rw [List.foldl_cons, ih]
      cases i with
      | declaration declared =>
        refine get?_foldl_addChild ?_ _ _
        rw [addItem, Entries.get?_insert, if_neg (Ne.symm hname)]
      | element n attributes content =>
        have hnodes : Document.nodes (Item.element n attributes content :: d) =
            .element n attributes content :: (Document.nodes d) := rfl
        rw [hnodes, treesNamed]
        dsimp only [addItem]
        split_ifs with hn
        · rw [hn]
          rfl
        · exact get?_foldl_addChild (get?_addChild_of_ne hn _ _ _) _ _
  rw [hadd, get?_foldl_nil name _ (isArray_treesNamed _ _ _)]

/-! ## Members of the tree of an element -/

theorem nodup_keys_addContent (path : String) (ns : List Node) :
    (Entries.keys (addContent o path [] ns)).Nodup := by
  have hadd : ∀ members : Entries String Value, (Entries.keys members).Nodup →
      (Entries.keys (addContent o path members ns)).Nodup := by
    induction ns with
    | nil => exact fun _ h => h
    | cons n ns ih =>
      intro members h
      cases n with
      | text chars => exact ih members h
      | element n attributes content =>
        refine ih _ ?_
        rw [addNode, addChild, Entries.alter_eq_insert]
        exact Entries.nodup_keys_insert _ _ h
  exact hadd [] List.nodup_nil

/-- Besides attributes and text, the members of the tree of an element are its children. -/
theorem get?_of_child?_elementValue {group key : String} (hgroup : o.group = some group)
    (hkey : key ≠ group) (htext : key ≠ textKey) {attributes : List (String × String)}
    {children : Entries String Value} (hn : (Entries.keys children).Nodup) {text : List Char}
    {w : Value} (h : (elementValue o attributes children text).child? (.key key) = some w) :
    Entries.get? key children = some w := by
  have hmembers : ∀ w, Entries.get? key (if attributes.isEmpty then children
      else Entries.extend (attributeMembers o attributes) children) = some w →
        Entries.get? key children = some w := by
    intro w hw
    split_ifs at hw
    · exact hw
    · rcases Entries.mem_extend (Entries.mem_of_get? hw) with hmem | hmem
      · rw [attributeMembers, hgroup, List.mem_singleton] at hmem
        exact absurd (Prod.mk.inj hmem).1 hkey
      · exact Entries.get?_of_mem hn hmem
  unfold elementValue at h
  dsimp only at h
  generalize (if attributes.isEmpty then children
    else Entries.extend (attributeMembers o attributes) children) = members at h hmembers
  split_ifs at h
  · have hnone : ∀ s, (Scalar.ofText o.convert s).at? [.key key] = none :=
      fun s => at?_ofText (List.cons_ne_nil _ _)
    have hsome := hnone (String.ofList (Text.trimBy Text.isBlank text))
    rw [Value.at?_cons, h] at hsome
    contradiction
  · exact hmembers w h
  · rw [Value.child?, Entries.get?_insert, if_neg (Ne.symm htext)] at h
    exact hmembers w h

/-! ## Following a path -/

/-- Whether a value is the tree, at a dotted path, of an element. -/
def IsTree (o : Options) (path : String) (v : Value) (e : Occurrence) : Prop :=
  ∃ attributes content, Describes content e.inside ∧
    v = elementValue o attributes (addContent o path [] content) (contentText content)

theorem forall₂_treesNamed {ns : List Node} {es : List Occurrence} (h : Describes ns es)
    (path name : String) :
    List.Forall₂ (IsTree o path) (treesNamed o path name ns) (named name es) := by
  induction h with
  | nil => exact .nil
  | text chars _ ih => exact ih
  | @element attributes n content ns e es hname hinside _ _ ih =>
    rw [treesNamed, named, List.filter_cons]
    by_cases hn : n = name
    · simp only [hname, hn, decide_true, if_true]
      exact .cons ⟨attributes, content, hinside, rfl⟩ ih
    · simp only [hname, hn, decide_false, if_false, Bool.false_eq_true]
      exact ih

theorem gathered_cases (forced : Bool) (vs : List Value) :
    (∃ v, vs = [v] ∧ gathered forced vs = v) ∨ gathered forced vs = .array vs := by
  unfold gathered
  split
  · split_ifs
    · exact .inr rfl
    · exact .inl ⟨_, rfl, rfl⟩
  · exact .inr rfl

/-- Whether a key of a path can only stand for elements. -/
def IsElementKey (key : String) : Prop :=
  key ≠ attributesGroup ∧ key ≠ textKey ∧ key ≠ declarationKey

instance (key : String) : Decidable (IsElementKey key) :=
  inferInstanceAs (Decidable (_ ∧ _ ∧ _))

theorem child?_index_of_not_array {v : Value} (h : v.isArray = false) (i : Nat) :
    v.child? (.index i) = none := by
  cases v with
  | array items => contradiction
  | _ => rfl

theorem exists_getElem?_of_forall₂ {α β : Type} {r : α → β → Prop} {as : List α} {bs : List β}
    (h : List.Forall₂ r as bs) {i : Nat} {a : α} (ha : as[i]? = some a) :
    ∃ b, bs[i]? = some b ∧ r a b := by
  induction h generalizing i with
  | nil => contradiction
  | cons hab _ ih =>
    cases i with
    | zero =>
      obtain rfl := Option.some.inj ha
      exact ⟨_, rfl, hab⟩
    | succ i => exact ih ha

/-- A path from the trees of elements of one name that leads to a value which is no array leads to
an element with that tree. -/
theorem exists_lead (hgroup : o.group = some attributesGroup) {steps : List Json.Step}
    (hkeys : ∀ k, Json.Step.key k ∈ steps → IsElementKey k) (forced : Bool) {path : String}
    {vs : List Value} {es : List Occurrence} (htrees : List.Forall₂ (IsTree o path) vs es)
    {w v : Value} (hw : gathered? forced vs = some w) (h : w.at? steps = some v)
    (harray : v.isArray = false) : ∃ e inner, lead es steps = some e ∧ IsTree o inner v e := by
  -- behind an index one tree of an array is left, which is gathered as if it stood alone
  induction steps generalizing vs es forced path w with
  | nil =>
    unfold gathered? at hw
    split_ifs at hw
    obtain rfl := Option.some.inj hw
    obtain rfl := Option.some.inj h
    rcases gathered_cases forced vs with ⟨t, rfl, ht⟩ | ht
    · cases htrees with
      | cons htree _ =>
        refine ⟨_, path, rfl, ?_⟩
        rw [ht]
        exact htree
    · rw [ht] at harray
      contradiction
  | cons s steps ih =>
    obtain ⟨x, hx, hrest⟩ := Option.bind_eq_some_iff.1 h
    have hkeys' : ∀ k, Json.Step.key k ∈ steps → IsElementKey k :=
      fun k hk => hkeys k (List.mem_cons_of_mem _ hk)
    unfold gathered? at hw
    split_ifs at hw
    obtain rfl := Option.some.inj hw
    cases s with
    | key k =>
      obtain ⟨hattributes, htext, -⟩ := hkeys k List.mem_cons_self
      rcases gathered_cases forced vs with ⟨t, rfl, ht⟩ | ht
      · rw [ht] at hx
        cases htrees with
        | cons htree hnil =>
          cases hnil
          obtain ⟨attributes, content, hdescribes, rfl⟩ := htree
          have hget := get?_of_child?_elementValue hgroup hattributes htext
            (nodup_keys_addContent path content) hx
          rw [get?_addContent] at hget
          exact ih hkeys' _ (forall₂_treesNamed hdescribes _ k) hget hrest
      · rw [ht] at hx
        contradiction
    | index i =>
      rcases gathered_cases forced vs with ⟨t, rfl, ht⟩ | ht
      · rw [ht] at hx
        cases htrees with
        | cons htree _ =>
          obtain ⟨attributes, content, -, rfl⟩ := htree
          rw [child?_index_of_not_array (isArray_elementValue _ _ _)] at hx
          contradiction
      · rw [ht] at hx
        obtain ⟨e, he, htree⟩ := exists_getElem?_of_forall₂ htrees hx
        obtain ⟨e', inner, he', htree'⟩ := ih hkeys' false (.cons htree .nil) rfl hrest
        refine ⟨e', inner, ?_, htree'⟩
        rw [lead, he]
        exact he'

/-- A path that leads to a value of the tree of a document which is no array leads to an element
with that tree. -/
theorem exists_elementAt? (hgroup : o.group = some attributesGroup) {d : Document}
    {roots : List Occurrence} (hroots : Describes (Document.nodes d) roots)
    {steps : List Json.Step} (hne : steps ≠ [])
    (hkeys : ∀ k, Json.Step.key k ∈ steps → IsElementKey k) {v : Value}
    (h : (ofDocument o d).at? steps = some v) (harray : v.isArray = false) :
    ∃ e inner, elementAt? roots steps = some e ∧ IsTree o inner v e := by
  obtain ⟨s, steps, rfl⟩ := List.exists_cons_of_ne_nil hne
  obtain ⟨x, hx, hrest⟩ := Option.bind_eq_some_iff.1 h
  cases s with
  | index i => contradiction
  | key k =>
    have hget : Entries.get? k (d.foldl (addItem o) []) = some x := hx
    rw [get?_items (hkeys k List.mem_cons_self).2.2] at hget
    exact exists_lead hgroup (fun k hk => hkeys k (List.mem_cons_of_mem _ hk)) _
      (forall₂_treesNamed hroots k k) hget hrest harray

end Tree

end LsxKit
