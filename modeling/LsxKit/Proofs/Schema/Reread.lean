import LsxKit.Proofs.Json.Fields
import LsxKit.Proofs.Schema.Satisfies
import LsxKit.Schema.Json

/-!
# Reading back schemas

A schema is read back from its JSON text keyword by keyword. Two kinds of values are written as
null, which stands for no value when it is read: the constant null, and a least number that is not
finite.

* `Schema.reread`: a schema without these.
* `shape_toJson`: the tree of a schema has the shape of the schema without these.
* `ofJson_toJson`: what is read from the text of a schema, and when it is the schema.
-/

namespace LsxKit

open Json

/-! ## Schemas as members -/

namespace Schema

/-- The value of a keyword in the JSON value of a schema, if it has one. -/
def keyword? (own : Keywords) (properties : List (String × Schema)) (items : Items)
    (anyOf : List Schema) : String → Option Value
  | "type" => own.types.map typesJson
  | "required" => if own.required.isEmpty then none else some (.array (own.required.map .string))
  | "properties" => if properties.isEmpty then none else some (.object (toJsonMembers properties))
  | "additionalProperties" => own.additional.map .bool
  | "items" => toJsonItems items
  | "const" => own.constant
  | "enum" => own.options.map .array
  | "pattern" => own.pattern.map .string
  | "minimum" => own.minimum.map boundJson
  | "anyOf" => if anyOf.isEmpty then none else some (.array (toJsonList anyOf))
  | "uniqueItems" => own.unique.map .bool
  | _ => none

variable {own : Keywords} {properties : List (String × Schema)} {items : Items}
  {anyOf : List Schema}

theorem toJsonMembers_eq (ms : List (String × Schema)) :
    toJsonMembers ms = ms.map fun m => (m.1, toJson m.2) := by
  induction ms with
  | nil => rfl
  | cons m ms ih => rw [toJsonMembers, ih, List.map_cons]

theorem toJsonList_eq (ss : List Schema) : toJsonList ss = ss.map toJson := by
  induction ss with
  | nil => rfl
  | cons s ss ih => rw [toJsonList, ih, List.map_cons]

theorem member?_eq {α : Type} (key : String) (f : α → Value) (x : Option α) :
    member? key f x = ((x.map f).map fun v => (key, v)).toList := by
  cases x <;> rfl

theorem listMember_eq {α : Type} (key : String) (f : α → Value) (as : List α) :
    listMember key (as.map f) =
      ((if as.isEmpty then none else some (.array (as.map f))).map fun v => (key, v)).toList := by
  cases as <;> rfl

theorem propertiesMember_eq (ms : List (String × Schema)) :
    (if (toJsonMembers ms).isEmpty then []
      else [("properties", Value.object (toJsonMembers ms))]) =
      ((if ms.isEmpty then none else some (Value.object (toJsonMembers ms))).map fun v =>
        ("properties", v)).toList := by
  cases ms <;> rfl

/-- A schema is written as the keywords that have a value. -/
theorem toJson_eq : toJson (.mk own properties items anyOf) =
    .object (Entries.choose (keyword? own properties items anyOf) keywordNames) := by
  have hconstant : member? "const" id own.constant =
      (own.constant.map fun v => ("const", v)).toList := by cases own.constant <;> rfl
  have hitems : member? "items" id (toJsonItems items) =
      ((toJsonItems items).map fun v => ("items", v)).toList := by
    cases toJsonItems items <;> rfl
  rw [toJson, propertiesMember_eq, hconstant, hitems, toJsonList_eq anyOf]
  simp only [member?_eq, listMember_eq, List.append_assoc]
  simp only [keywordNames, Entries.choose_cons, Entries.choose_nil, List.append_nil, keyword?,
    toJsonList_eq]

/-! ## What is read back -/

/-- A value that is not null. -/
def present? : Value → Option Value
  | .null => none
  | v => some v

/-- A least number that is finite. -/
def finite? : Bound → Option Bound
  | .finite x => some (.finite x)
  | _ => none

/-- Keywords without what is written as null. -/
def rereadOwn (own : Keywords) : Keywords :=
  { own with constant := own.constant.bind present?, minimum := own.minimum.bind finite? }

mutual

/-- A schema without what is written as null. -/
def reread : Schema → Schema
  | .mk own properties items anyOf =>
    .mk (rereadOwn own) (rereadMembers properties) (rereadItems items) (rereadList anyOf)
  termination_by structural s => s

/-- The schemas of members without what is written as null. -/
def rereadMembers : List (String × Schema) → List (String × Schema)
  | [] => []
  | (key, s) :: ms => (key, reread s) :: rereadMembers ms
  termination_by structural ms => ms

/-- The schemas of elements without what is written as null. -/
def rereadItems : Items → Items
  | .free => .free
  | .each s => .each (reread s)
  | .tuple ss => .tuple (rereadList ss)
  termination_by structural i => i

/-- Several schemas without what is written as null. -/
def rereadList : List Schema → List Schema
  | [] => []
  | s :: ss => reread s :: rereadList ss
  termination_by structural ss => ss

end

theorem rereadMembers_eq (ms : List (String × Schema)) :
    rereadMembers ms = ms.map fun m => (m.1, reread m.2) := by
  induction ms with
  | nil => rfl
  | cons m ms ih => rw [rereadMembers, ih, List.map_cons]

theorem rereadList_eq (ss : List Schema) : rereadList ss = ss.map reread := by
  induction ss with
  | nil => rfl
  | cons s ss ih => rw [rereadList, ih, List.map_cons]

/-! ## Keywords -/

theorem typeShape_typeJson (t : JsonType) : typeShape (Term.ofValue (typeJson t)) = .ok t := by
  cases t <;> rfl

theorem typesShape_typesJson (types : TypeSet) :
    typesShape (Term.ofValue (typesJson types)) = .ok types := by
  cases types with
  | single t =>
    exact bind_eq_ok_iff.2 ⟨_, rfl, bind_eq_ok_iff.2 ⟨t, typeShape_typeJson t, rfl⟩⟩
  | many ts =>
    have hdistinct : Tree.Distinct (typesJson (.many ts)) := by
      refine Tree.allDistinct_iff.2 fun v hv => ?_
      obtain ⟨t, -, rfl⟩ := List.mem_map.1 hv
      trivial
    have hts : (Term.ofValues (ts.map typeJson)).mapM typeShape = .ok ts :=
      Shape.mapM_ofValues_self fun t _ => typeShape_typeJson t
    exact bind_eq_ok_iff.2 ⟨_, Term.toValue_ofValue _ hdistinct, bind_eq_ok_iff.2 ⟨_, hts, rfl⟩⟩

/-- A constant is read back unless it is null, which stands for none. -/
theorem optional_constant {v : Value} (h : Tree.Distinct v) :
    Shape.optional Term.toValue (Term.ofValue v) = .ok (present? v) := by
  by_cases hnull : v = .null
  · rw [hnull]
    rfl
  · have hpresent : present? v = some v := by cases v <;> first | contradiction | rfl
    rw [Shape.optional_ofValue hnull (Term.toValue_ofValue v h), hpresent]

/-- A least number is read back if it is finite; else it was written as null. -/
theorem optional_bound (b : Bound) :
    ∃ x, Shape.optional Shape.binary64 (Term.ofValue (boundJson b)) = .ok x ∧
      x.map Bound.finite = finite? b := by
  cases b <;> exact ⟨_, rfl, rfl⟩

/-- The fields that are read from the JSON value of a schema. -/
def keywordFields (own : Keywords) (properties : List (String × Schema)) (items : Items)
    (anyOf : List Schema) : Entries String Term :=
  Entries.choose (fun name => (keyword? own properties items anyOf name).map Term.ofValue)
    keywordNames

theorem get?_keywordFields {name : String} (h : name ∈ keywordNames) :
    Entries.get? name (keywordFields own properties items anyOf) =
      (keyword? own properties items anyOf name).map Term.ofValue :=
  Entries.get?_choose _ h

/-- The keywords without sub-schemas are read back, but for what was written as null. -/
theorem keywordsShape_eq
    (hdistinct : ∀ name ∈ keywordNames, ∀ v ∈ keyword? own properties items anyOf name,
      Tree.Distinct v) :
    keywordsShape (keywordFields own properties items anyOf) = .ok (rereadOwn own) := by
  generalize hfs : keywordFields own properties items anyOf = fs
  have hfields : ∀ name ∈ keywordNames, fs.get? name =
      (keyword? own properties items anyOf name).map Term.ofValue :=
    fun name hname => hfs ▸ get?_keywordFields hname
  have htypes : Shape.withDefault fs "type" none (Shape.optional typesShape) = .ok own.types :=
    Shape.withDefault_kept (hfields "type" (by decide)) fun types _ =>
      ⟨by cases types <;> simp [typesJson, typeJson], typesShape_typesJson types⟩
  have hrequired : Shape.withDefault fs "required" [] (Shape.listOf Shape.string) =
      .ok own.required := by
    have hread : (Term.ofValues (own.required.map .string)).mapM Shape.string =
        .ok own.required := Shape.mapM_ofValues_self fun s _ => rfl
    exact Shape.withDefault_nonempty (hfields "required" (by decide)) id
      (bind_eq_ok_iff.2 ⟨_, rfl, hread⟩)
  have hadditional : Shape.withDefault fs "additionalProperties" none
      (Shape.optional Shape.boolean) = .ok own.additional :=
    Shape.withDefault_kept (hfields "additionalProperties" (by decide)) fun b _ => ⟨by simp, rfl⟩
  have hconstant : Shape.withDefault fs "const" none (Shape.optional Term.toValue) =
      .ok (own.constant.bind present?) := by
    refine Shape.withDefault_optional (f := id) ?_ fun v hv =>
      optional_constant (hdistinct "const" (by decide) v hv)
    rw [Option.map_id]
    exact hfields "const" (by decide)
  have hoptions : Shape.withDefault fs "enum" none (Shape.optional (Shape.listOf Term.toValue)) =
      .ok own.options := by
    refine Shape.withDefault_kept (hfields "enum" (by decide)) fun vs hvs => ⟨by simp, ?_⟩
    have hvs' : Tree.AllDistinct vs := hdistinct "enum" (by decide) (.array vs)
      (Option.mem_map_of_mem Value.array hvs)
    have hread : (Term.ofValues (vs.map id)).mapM Term.toValue = .ok vs :=
      Shape.mapM_ofValues_self fun v hv =>
        Term.toValue_ofValue v (Tree.allDistinct_iff.1 hvs' v hv)
    rw [List.map_id] at hread
    exact bind_eq_ok_iff.2 ⟨_, rfl, hread⟩
  have hpattern : Shape.withDefault fs "pattern" none (Shape.optional Shape.string) =
      .ok own.pattern :=
    Shape.withDefault_kept (hfields "pattern" (by decide)) fun s _ => ⟨by simp, rfl⟩
  have hminimum : ∃ x, Shape.withDefault fs "minimum" none (Shape.optional Shape.binary64) =
      .ok x ∧ x.map Bound.finite = own.minimum.bind finite? := by
    have hget : fs.get? "minimum" = (own.minimum.map boundJson).map Term.ofValue :=
      hfields "minimum" (by decide)
    cases hbound : own.minimum with
    | none =>
      rw [hbound] at hget
      exact ⟨none, Shape.withDefault_of_none hget, rfl⟩
    | some b =>
      rw [hbound] at hget
      obtain ⟨x, hx, hfinite⟩ := optional_bound b
      exact ⟨x, (Shape.withDefault_of_some hget).trans hx, hfinite⟩
  have hunique : Shape.withDefault fs "uniqueItems" none (Shape.optional Shape.boolean) =
      .ok own.unique :=
    Shape.withDefault_kept (hfields "uniqueItems" (by decide)) fun b _ => ⟨by simp, rfl⟩
  obtain ⟨x, hx, hfinite⟩ := hminimum
  unfold keywordsShape
  simp only [htypes, hrequired, hadditional, hconstant, hoptions, hpattern, hx, hunique]
  rw [rereadOwn, ← hfinite]
  rfl

/-! ## Schemas -/

/-- The sub-schemas of elements are read back, if each of them is. -/
theorem itemsShape_eq (own : Keywords) (properties : List (String × Schema))
    (anyOf : List Schema) {levels : Nat}
    (hdistinct : ∀ v ∈ toJsonItems items, Tree.Distinct v)
    (heach : ∀ s, items = .each s → shape levels (Term.ofValue (toJson s)) = .ok (reread s))
    (htuple : ∀ ss, items = .tuple ss → ∀ s ∈ ss,
      shape levels (Term.ofValue (toJson s)) = .ok (reread s)) :
    (Shape.withDefault (keywordFields own properties items anyOf) "items" Items.free fun t => do
      let _ ← t.toValue
      match t with
      | .null => return .free
      | .array ts =>
        match ts.mapM (shape levels) with
        | .ok ss => return .tuple ss
        | .error _ => return .each (← shape levels t)
      | t => return .each (← shape levels t)) = .ok (rereadItems items) := by
  have hfield : (keywordFields own properties items anyOf).get? "items" =
      (toJsonItems items).map Term.ofValue := get?_keywordFields (by decide)
  cases items with
  | free => exact Shape.withDefault_of_none hfield
  | each s =>
    refine (Shape.withDefault_of_some hfield).trans ?_
    refine bind_eq_ok_iff.2 ⟨_, Term.toValue_ofValue _ (hdistinct _ rfl), ?_⟩
    -- a schema is written as an object, so what was written is not taken for a list
    obtain ⟨own, properties, items, anyOf⟩ := s
    exact bind_eq_ok_iff.2 ⟨_, heach _ rfl, rfl⟩
  | tuple ss =>
    have hread : (Term.ofValues (toJsonList ss)).mapM (shape levels) = .ok (rereadList ss) := by
      rw [toJsonList_eq, rereadList_eq]
      exact Shape.mapM_ofValues (htuple ss rfl)
    refine (Shape.withDefault_of_some hfield).trans ?_
    refine bind_eq_ok_iff.2 ⟨_, Term.toValue_ofValue _ (hdistinct _ rfl), ?_⟩
    simp only [Term.ofValue, hread]
    rfl

theorem membersShape_eq {levels : Nat} {ms : List (String × Schema)}
    (h : ∀ m ∈ ms, shape levels (Term.ofValue (toJson m.2)) = .ok (reread m.2)) :
    (((toJsonMembers ms).map fun m => (m.1, Term.ofValue m.2)).mapM fun (key, t) => do
      return (key, ← shape levels t)) = .ok (rereadMembers ms) := by
  induction ms with
  | nil => rfl
  | cons m ms ih =>
    rw [List.forall_mem_cons] at h
    rw [toJsonMembers, List.map_cons, List.mapM_cons]
    exact bind_eq_ok_iff.2 ⟨_, bind_eq_ok_iff.2 ⟨_, h.1, rfl⟩, bind_eq_ok_iff.2 ⟨_, ih h.2, rfl⟩⟩

/-- Members with distinct keys are all kept. -/
theorem extend_rereadMembers
    (hdistinct : ∀ v ∈ keyword? own properties items anyOf "properties", Tree.Distinct v) :
    Entries.extend [] (rereadMembers properties) = rereadMembers properties := by
  have hnodup : (Entries.keys (rereadMembers properties)).Nodup := by
    cases properties with
    | nil => exact List.nodup_nil
    | cons m ms =>
      have hkeys : Entries.keys (rereadMembers (m :: ms)) =
          Entries.keys (toJsonMembers (m :: ms)) := by
        simp [rereadMembers_eq, toJsonMembers_eq, Entries.keys]
      rw [hkeys]
      exact (hdistinct (.object (toJsonMembers (m :: ms))) rfl).1
  rw [Entries.extend_of_nodup [] hnodup, List.nil_append]

/-- A schema is read back, if the schemas in it are. -/
theorem shape_mk {levels : Nat}
    (hdistinct : ∀ name ∈ keywordNames, ∀ v ∈ keyword? own properties items anyOf name,
      Tree.Distinct v)
    (hproperties : ∀ m ∈ properties, shape levels (Term.ofValue (toJson m.2)) = .ok (reread m.2))
    (heach : ∀ s, items = .each s → shape levels (Term.ofValue (toJson s)) = .ok (reread s))
    (htuple : ∀ ss, items = .tuple ss → ∀ s ∈ ss,
      shape levels (Term.ofValue (toJson s)) = .ok (reread s))
    (hanyOf : ∀ s ∈ anyOf, shape levels (Term.ofValue (toJson s)) = .ok (reread s)) :
    shape (levels + 1) (Term.ofValue (toJson (.mk own properties items anyOf))) =
      .ok (reread (.mk own properties items anyOf)) := by
  have hproperties' : (Shape.withDefault (keywordFields own properties items anyOf) "properties" []
      fun t => do (← Shape.members t).mapM fun (key, t) => return (key, ← shape levels t)) =
        .ok (rereadMembers properties) :=
    Shape.withDefault_nonempty (get?_keywordFields (by decide)) (fun hempty => by rw [hempty]; rfl)
      (bind_eq_ok_iff.2 ⟨_, Shape.members_ofMembers _, membersShape_eq hproperties⟩)
  have hitems := itemsShape_eq own properties anyOf (hdistinct "items" (by decide)) heach htuple
  have hanyOf' : Shape.withDefault (keywordFields own properties items anyOf) "anyOf" []
      (Shape.listOf (shape levels)) = .ok (rereadList anyOf) := by
    refine Shape.withDefault_nonempty (get?_keywordFields (by decide))
      (fun hempty => by rw [hempty]; rfl) ?_
    rw [toJsonList_eq, rereadList_eq]
    exact bind_eq_ok_iff.2 ⟨_, rfl, Shape.mapM_ofValues hanyOf⟩
  rw [toJson_eq, shape, reread, ← extend_rereadMembers (hdistinct "properties" (by decide))]
  exact bind_eq_ok_iff.2 ⟨_, Shape.fields_choose "Schema" (by decide), bind_eq_ok_iff.2 ⟨_,
    keywordsShape_eq hdistinct, bind_eq_ok_iff.2 ⟨_, hproperties', bind_eq_ok_iff.2 ⟨_, hitems,
      bind_eq_ok_iff.2 ⟨_, hanyOf', rfl⟩⟩⟩⟩⟩

/-! ## Nested schemas -/

/-- The schemas in a list have distinct keys and are no deeper than the list. -/
theorem distinct_of_mem_list {levels : Nat} {s : Schema} {ss : List Schema} (hs : s ∈ ss)
    (h : Tree.Distinct (.array (toJsonList ss)) ∧ (Value.array (toJsonList ss)).depth ≤ levels) :
    Tree.Distinct s.toJson ∧ s.toJson.depth ≤ levels := by
  have hmem : s.toJson ∈ toJsonList ss := by
    rw [toJsonList_eq]
    exact List.mem_map_of_mem hs
  exact ⟨Tree.allDistinct_iff.1 h.1 _ hmem,
    Nat.le_trans (Value.depth_le_depthItems hmem) (Nat.le_of_succ_le h.2)⟩

/-- The schemas of members have distinct keys and are no deeper than the members. -/
theorem distinct_of_mem_members {levels : Nat} {m : String × Schema} {ms : List (String × Schema)}
    (hm : m ∈ ms) (h : Tree.Distinct (.object (toJsonMembers ms)) ∧
      (Value.object (toJsonMembers ms)).depth ≤ levels) :
    Tree.Distinct m.2.toJson ∧ m.2.toJson.depth ≤ levels := by
  have hmem : (m.1, m.2.toJson) ∈ toJsonMembers ms := by
    rw [toJsonMembers_eq]
    exact List.mem_map_of_mem (f := fun m : String × Schema => (m.1, m.2.toJson)) hm
  exact ⟨Tree.membersDistinct_iff.1 h.1.2 _ hmem,
    Nat.le_trans (Value.depth_le_depthMembers hmem) (Nat.le_of_succ_le h.2)⟩

/-- The tree of a schema has the shape of the schema, but for what was written as null. -/
theorem shape_toJson {levels : Nat} {s : Schema} (hdistinct : Tree.Distinct s.toJson)
    (hdepth : s.toJson.depth ≤ levels) :
    shape levels (Term.ofValue s.toJson) = .ok s.reread := by
  -- on the levels left to the reader: a schema inside another one is at least a level deeper
  induction levels generalizing s with
  | zero =>
    obtain ⟨own, properties, items, anyOf⟩ := s
    exact absurd hdepth (Nat.not_succ_le_zero _)
  | succ levels ih =>
    obtain ⟨own, properties, items, anyOf⟩ := s
    rw [toJson_eq] at hdistinct hdepth
    have hkeyword : ∀ name ∈ keywordNames, ∀ v ∈ keyword? own properties items anyOf name,
        Tree.Distinct v ∧ v.depth ≤ levels := by
      intro name hname v hv
      have hmem := Entries.mem_choose hname hv
      exact ⟨Tree.membersDistinct_iff.1 hdistinct.2 _ hmem,
        Nat.le_trans (Value.depth_le_depthMembers hmem) (Nat.le_of_succ_le_succ hdepth)⟩
    refine shape_mk (fun name hname v hv => (hkeyword name hname v hv).1) ?_ ?_ ?_ ?_
    · intro m hm
      have hkey : keyword? own properties items anyOf "properties" =
          some (.object (toJsonMembers properties)) :=
        if_neg (by simpa using List.ne_nil_of_mem hm)
      obtain ⟨hd, hl⟩ := distinct_of_mem_members hm (hkeyword "properties" (by decide) _ hkey)
      exact ih hd hl
    · rintro s rfl
      obtain ⟨hd, hl⟩ := hkeyword "items" (by decide) _ rfl
      exact ih hd hl
    · rintro ss rfl s hs
      obtain ⟨hd, hl⟩ := distinct_of_mem_list hs (hkeyword "items" (by decide) _ rfl)
      exact ih hd hl
    · intro s hs
      have hkey : keyword? own properties items anyOf "anyOf" =
          some (.array (toJsonList anyOf)) :=
        if_neg (by simpa using List.ne_nil_of_mem hs)
      obtain ⟨hd, hl⟩ := distinct_of_mem_list hs (hkeyword "anyOf" (by decide) _ hkey)
      exact ih hd hl

/-! ## Schemas that are read back as they are -/

/-- Whether keywords have nothing that is written as null. -/
def Lossless (own : Keywords) : Prop :=
  own.constant ≠ some .null ∧ ∀ b ∈ own.minimum, ∃ x, b = .finite x

theorem bind_present?_eq_self_iff {constant : Option Value} :
    constant.bind present? = constant ↔ constant ≠ some .null := by
  cases constant with
  | none => simp
  | some v => cases v <;> simp [present?]

theorem bind_finite?_eq_self_iff {minimum : Option Bound} :
    minimum.bind finite? = minimum ↔ ∀ b ∈ minimum, ∃ x, b = .finite x := by
  cases minimum with
  | none => simp
  | some b => cases b <;> simp [finite?]

theorem rereadOwn_eq_self_iff : rereadOwn own = own ↔ Lossless own := by
  rw [Lossless, ← bind_present?_eq_self_iff, ← bind_finite?_eq_self_iff]
  constructor
  · intro h
    exact ⟨congrArg Keywords.constant h, congrArg Keywords.minimum h⟩
  · rintro ⟨hconstant, hminimum⟩
    rw [rereadOwn, hconstant, hminimum]

mutual

theorem reread_eq_self_iff (s : Schema) : reread s = s ↔ ∀ t ∈ s.nodes, Lossless t.own := by
  match s with
  | .mk own properties items anyOf =>
    rw [reread, Schema.mk.injEq, rereadOwn_eq_self_iff, rereadMembers_eq_self_iff properties,
      rereadItems_eq_self_iff items, rereadList_eq_self_iff anyOf, nodes, List.forall_mem_cons,
      List.forall_mem_append, List.forall_mem_append, and_assoc]
    rfl
  termination_by structural s

theorem rereadMembers_eq_self_iff (ms : List (String × Schema)) :
    rereadMembers ms = ms ↔ ∀ t ∈ nodesOfMembers ms, Lossless t.own := by
  match ms with
  | [] => exact iff_of_true rfl nofun
  | (key, s) :: ms =>
    rw [rereadMembers, List.cons.injEq, Prod.mk.injEq, reread_eq_self_iff s,
      rereadMembers_eq_self_iff ms, nodesOfMembers, List.forall_mem_append]
    simp
  termination_by structural ms

theorem rereadItems_eq_self_iff (i : Items) :
    rereadItems i = i ↔ ∀ t ∈ nodesOfItems i, Lossless t.own := by
  match i with
  | .free => exact iff_of_true rfl nofun
  | .each s => rw [rereadItems, Items.each.injEq, reread_eq_self_iff s, nodesOfItems]
  | .tuple ss => rw [rereadItems, Items.tuple.injEq, rereadList_eq_self_iff ss, nodesOfItems]
  termination_by structural i

theorem rereadList_eq_self_iff (ss : List Schema) :
    rereadList ss = ss ↔ ∀ t ∈ nodesOfList ss, Lossless t.own := by
  match ss with
  | [] => exact iff_of_true rfl nofun
  | s :: ss =>
    rw [rereadList, List.cons.injEq, reread_eq_self_iff s, rereadList_eq_self_iff ss, nodesOfList,
      List.forall_mem_append]
  termination_by structural ss

end

/-- What is read from the text of a schema. -/
theorem ofJson_compact {s : Schema} (hdistinct : Tree.Distinct s.toJson)
    (hdepth : s.toJson.depth ≤ maxDepth) (hnumbers : ∀ n ∈ s.toJson.numbers, n.ReadsBack) :
    ofJson s.toJson.compact = .ok s.reread := by
  have hshape := shape_toJson hdistinct (Nat.le_succ_of_le hdepth)
  unfold ofJson Term.readAs
  rw [Term.read_compact hdepth hnumbers]
  simp only [Except.mapError, bind, Except.bind, hshape]

/-- A schema is read back from its text, but for the constants that are null and the least numbers
that are not finite; they are lost. The keys of its objects are distinct, it does not nest too deep,
and its numbers are read back. -/
theorem ofJson_toJson {s : Schema} (hdistinct : Tree.Distinct s.toJson)
    (hdepth : s.toJson.depth ≤ maxDepth) (hnumbers : ∀ n ∈ s.toJson.numbers, n.ReadsBack) :
    ofJson s.toJson.compact = .ok s.reread ∧
      (ofJson s.toJson.compact = .ok s ↔
        ∀ t ∈ s.nodes, t.own.constant ≠ some .null ∧ ∀ b ∈ t.own.minimum, ∃ x, b = .finite x) := by
  have hread := ofJson_compact hdistinct hdepth hnumbers
  refine ⟨hread, ?_⟩
  rw [hread, Except.ok.injEq, reread_eq_self_iff]
  rfl

/-- Objects with a number that is at least two and a half. -/
theorem ofJson_toJson_bounded :
    ofJson (toJson (((ofType .object).require ["n"]).property "n"
      ((ofType .number).minimum ⟨false, 0x4004000000000000, by decide⟩))).compact =
        .ok (((ofType .object).require ["n"]).property "n"
          ((ofType .number).minimum ⟨false, 0x4004000000000000, by decide⟩)) := by
  refine (ofJson_toJson ?_ (by decide) (by decide +kernel)).2.2 ?_
  · exact ⟨by decide, trivial, ⟨trivial, trivial⟩,
      ⟨by decide, ⟨by decide, trivial, trivial, trivial⟩, trivial⟩, trivial⟩
  · refine List.forall_mem_cons.2 ⟨⟨nofun, nofun⟩, List.forall_mem_cons.2 ⟨⟨nofun, ?_⟩, nofun⟩⟩
    rintro b ⟨⟩
    exact ⟨_, rfl⟩

/-- The constant null is lost: the schema that is read accepts everything. -/
theorem ofJson_toJson_null :
    ¬ ∀ s : Schema, Tree.Distinct s.toJson → s.toJson.depth ≤ maxDepth →
      (∀ n ∈ s.toJson.numbers, n.ReadsBack) →
      (∀ t ∈ s.nodes, ∀ b ∈ t.own.minimum, ∃ x, b = .finite x) →
      ∃ s', ofJson s.toJson.compact = .ok s' ∧
        ∀ limit v, Satisfies limit s' v ↔ Satisfies limit s v := by
  intro hall
  have hdistinct : Tree.Distinct (toJson (any.constant .null)) := ⟨by decide, trivial, trivial⟩
  have hnumbers : ∀ n ∈ (toJson (any.constant .null)).numbers, n.ReadsBack := nofun
  have hminimum : ∀ t ∈ (any.constant .null).nodes, ∀ b ∈ t.own.minimum, ∃ x, b = .finite x := by
    intro t ht
    obtain rfl := List.mem_singleton.1 ht
    exact nofun
  obtain ⟨s', hs', hsame⟩ := hall _ hdistinct (by decide) hnumbers hminimum
  rw [ofJson_compact hdistinct (by decide) hnumbers] at hs'
  obtain rfl : any = s' := Except.ok.inj hs'
  have hany : Satisfies AtLeast any (.bool true) :=
    ⟨⟨nofun, nofun, nofun, trivial⟩, trivial, fun h => absurd rfl h⟩
  exact absurd (((hsame AtLeast _).1 hany).1.constant _ rfl) Bool.false_ne_true

end Schema

end LsxKit
