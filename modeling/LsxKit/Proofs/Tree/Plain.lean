import LsxKit.Proofs.Tree.Shape
import LsxKit.Tree.Place

/-!
# Trees without conversion

With conversion, written numbers and booleans become such. Writing them out again gives the tree
that is read without conversion.

* `plain`: a tree with every scalar written out.
* `plain_ofDocument`, `parse_plain`: the tree that is read without conversion.
-/

namespace LsxKit

open Json

namespace Entries

variable {κ ν ν' : Type} [DecidableEq κ]

/-- Values that are mapped are mapped after a write, too. -/
theorem map_insert (f : ν → ν') (k : κ) (v : ν) (es : Entries κ ν) :
    (insert k v es).map (fun e => (e.1, f e.2)) =
      insert k (f v) (es.map fun e => (e.1, f e.2)) := by
  induction es with
  | nil => rfl
  | cons e es ih =>
    rw [insert, List.map_cons, insert]
    split_ifs
    · rfl
    · rw [List.map_cons, ih]

theorem map_extend (f : ν → ν') (es new : Entries κ ν) :
    (extend es new).map (fun e => (e.1, f e.2)) =
      extend (es.map fun e => (e.1, f e.2)) (new.map fun e => (e.1, f e.2)) := by
  induction new generalizing es with
  | nil => rfl
  | cons e new ih => rw [extend_cons, ih, map_insert, List.map_cons, extend_cons]

theorem get?_map (f : ν → ν') (k : κ) (es : Entries κ ν) :
    get? k (es.map fun e => (e.1, f e.2)) = (get? k es).map f := by
  induction es with
  | nil => rfl
  | cons e es ih =>
    rw [List.map_cons, get?, get?, ih]
    split_ifs <;> rfl

end Entries

namespace Tree

open Xml

mutual

/-- A tree with every scalar written out. -/
def plain : Value → Value
  | .array items => .array (plainItems items)
  | .object members => .object (plainMembers members)
  | v => .string (Scalar.render v)
  termination_by structural v => v

/-- Trees with every scalar written out. -/
def plainItems : List Value → List Value
  | [] => []
  | v :: vs => plain v :: plainItems vs
  termination_by structural vs => vs

/-- Members with every scalar written out. -/
def plainMembers : List (String × Value) → List (String × Value)
  | [] => []
  | (key, v) :: members => (key, plain v) :: plainMembers members
  termination_by structural members => members

end

theorem plainItems_eq (vs : List Value) : plainItems vs = vs.map plain := by
  induction vs with
  | nil => rfl
  | cons v vs ih => rw [plainItems, ih, List.map_cons]

theorem plainMembers_eq (members : List (String × Value)) :
    plainMembers members = members.map fun m => (m.1, plain m.2) := by
  induction members with
  | nil => rfl
  | cons m members ih => rw [plainMembers, ih, List.map_cons]

theorem isArray_plain (v : Value) : (plain v).isArray = v.isArray := by
  cases v <;> rfl

theorem get?_plain (key : String) (v : Value) : (plain v).get? key = (v.get? key).map plain := by
  cases v with
  | object members =>
    rw [plain, plainMembers_eq]
    exact Entries.get?_map plain key members
  | _ => rfl

/-- Whether a value is no object and no array. -/
def IsScalar (v : Value) : Prop := v.isObject = false ∧ v.isArray = false

theorem isScalar_ofText (convert : Bool) (s : String) : IsScalar (Scalar.ofText convert s) :=
  ⟨isObject_ofText convert s, isArray_ofText convert s⟩

theorem plain_of_isScalar {v : Value} (h : IsScalar v) : plain v = .string (Scalar.render v) := by
  obtain ⟨hobject, harray⟩ := h
  cases v with
  | object members => contradiction
  | array items => contradiction
  | _ => rfl

/-- A scalar is written out as the text it was read from. -/
theorem plain_ofText (convert : Bool) (s : String) :
    plain (Scalar.ofText convert s) = .string s := by
  rw [plain_of_isScalar (isScalar_ofText convert s), Scalar.render_ofText]

/-- An id that is a text is kept. -/
theorem id?_plain {path path' : List Json.Step} {v : Value} {s : String}
    (h : Place.id? ⟨path, v⟩ = some s) : Place.id? ⟨path', plain v⟩ = some s := by
  simp only [Place.id?, Option.bind_eq_some_iff] at h
  obtain ⟨id, ⟨own, hown, hid⟩, hs⟩ := h
  cases id with
  | string s' =>
    obtain rfl : s' = s := by simpa [Value.asString?] using hs
    simp [Place.id?, get?_plain, hown, hid, plain, Scalar.render, Value.asString?]
  | _ => simp [Value.asString?] at hs

/-! ## Reading -/

/-- The options without conversion. -/
def Options.plain (o : Options) : Options := { o with convert := false }

variable {o : Options}

theorem plainMembers_addChild (members : Entries String Value) (tag : String) (value : Value)
    (inArray : Bool) :
    plainMembers (addChild members tag value inArray) =
      addChild (plainMembers members) tag (plain value) inArray := by
  unfold addChild
  rw [Entries.alter_eq_insert, Entries.alter_eq_insert, plainMembers_eq, Entries.map_insert,
    plainMembers_eq, Entries.get?_map]
  congr 1
  cases Entries.get? tag members with
  | none => cases inArray <;> rfl
  | some first =>
    cases first with
    | array items => simp [plain, plainItems_eq]
    | _ => rfl

theorem plainMembers_attributeMembers (attributes : List (String × String)) :
    plainMembers (attributeMembers o attributes) = attributeMembers o.plain attributes := by
  have hvalues : plainMembers (Entries.extend [] (attributes.map fun a =>
      (a.1, Scalar.ofText o.convert a.2))) =
        Entries.extend [] (attributes.map fun a => (a.1, Scalar.ofText false a.2)) := by
    rw [plainMembers_eq, Entries.map_extend, List.map_map]
    congr 1
    exact List.map_congr_left fun a _ => congrArg (Prod.mk a.1) (plain_ofText o.convert a.2)
  unfold attributeMembers
  have hgroup : o.plain.group = o.group := rfl
  rw [hgroup]
  cases o.group with
  | none => exact hvalues
  | some group => exact congrArg (fun values => [(group, Value.object values)]) hvalues

theorem plain_elementValue (attributes : List (String × String))
    (children : Entries String Value) (text : List Char) :
    plain (elementValue o attributes children text) =
      elementValue o.plain attributes (plainMembers children) text := by
  have hempty : (plainMembers children).isEmpty = children.isEmpty := by
    cases children <;> rfl
  have hmembers : plainMembers (if attributes.isEmpty then children
      else Entries.extend (attributeMembers o attributes) children) =
        if attributes.isEmpty then plainMembers children
        else Entries.extend (attributeMembers o.plain attributes) (plainMembers children) := by
    split_ifs
    · rfl
    · rw [plainMembers_eq, Entries.map_extend, ← plainMembers_eq, ← plainMembers_eq,
        plainMembers_attributeMembers]
  unfold elementValue
  dsimp only
  rw [hempty, ← hmembers]
  generalize (if attributes.isEmpty then children
    else Entries.extend (attributeMembers o attributes) children) = members
  split_ifs
  · exact plain_ofText _ _
  · rfl
  · rw [plain, plainMembers_eq, Entries.map_insert, plain_ofText, ← plainMembers_eq]
    rfl

mutual

/-- A child that is added without conversion is the child written out. -/
theorem plainMembers_addNode (path : String) (members : Entries String Value) (n : Node) :
    plainMembers (addNode o path members n) = addNode o.plain path (plainMembers members) n := by
  match n with
  | .text _ => rfl
  | .element name attributes content =>
    rw [addNode, addNode, plainMembers_addChild, plain_elementValue,
      plainMembers_addContent _ [] content]
    rfl
  termination_by structural n

/-- So are the children of an element. -/
theorem plainMembers_addContent (path : String) (members : Entries String Value)
    (ns : List Node) :
    plainMembers (addContent o path members ns) =
      addContent o.plain path (plainMembers members) ns := by
  match ns with
  | [] => rfl
  | n :: ns =>
    rw [addContent, addContent, plainMembers_addContent path _ ns, plainMembers_addNode path _ n]
  termination_by structural ns

end

theorem plain_declarationValue (d : Declaration) :
    plain (declarationValue o d) = declarationValue o.plain d := by
  have hmembers : plainMembers (declarationMembers o d) = declarationMembers o.plain d := by
    obtain ⟨version, encoding, standalone⟩ := d
    simp only [declarationMembers, plainMembers_eq, List.cons_append, List.map_cons,
      List.map_append, plain_ofText]
    cases encoding <;> cases standalone <;> rfl
  unfold declarationValue
  have hgroup : o.plain.group = o.group := rfl
  rw [hgroup]
  cases o.group with
  | none => exact congrArg Value.object hmembers
  | some group => exact congrArg (fun members => Value.object [(group, .object members)]) hmembers

theorem plainMembers_addItem (members : Entries String Value) (i : Item) :
    plainMembers (addItem o members i) = addItem o.plain (plainMembers members) i := by
  cases i with
  | declaration d =>
    rw [addItem, addItem, plainMembers_eq, Entries.map_insert, plain_declarationValue,
      plainMembers_eq]
  | element name attributes content =>
    simp only [addItem]
    rw [plainMembers_addChild, plain_elementValue, plainMembers_addContent]
    rfl

/-- The tree of a document without conversion is the tree written out. -/
theorem plain_ofDocument (d : Document) : plain (ofDocument o d) = ofDocument o.plain d := by
  have hfold : ∀ members : Entries String Value,
      plainMembers (d.foldl (addItem o) members) =
        d.foldl (addItem o.plain) (plainMembers members) := by
    induction d with
    | nil => exact fun _ => rfl
    | cons i d ih =>
      intro members
      rw [List.foldl_cons, List.foldl_cons, ih, plainMembers_addItem]
  exact congrArg Value.object (hfold [])

/-- The tree that is read without conversion is the tree written out. -/
theorem parse_plain (o : Options) (text : String) :
    parse o.plain text = (parse o text).map plain := by
  unfold parse
  have hkeep : o.plain.ignoreDeclaration = o.ignoreDeclaration := rfl
  rw [hkeep]
  cases Document.read (!o.ignoreDeclaration) text with
  | error e => rfl
  | ok d => exact congrArg Except.ok (plain_ofDocument d).symm

end Tree

end LsxKit
