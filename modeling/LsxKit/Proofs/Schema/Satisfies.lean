import LsxKit.Schema.Validate
import Mathlib.Algebra.Order.Field.Rat
import Mathlib.Algebra.Order.Ring.Cast

/-!
# What a schema says

The reading of a schema that does not mention violations, paths or the order of checks.

* `Number.exact`: the exact value of a number.
* `Schema.Satisfies`: whether a value satisfies a schema, by recursion on the schema.
* `membersSatisfy_iff`, `tupleSatisfies_iff`, `satisfiesSome_iff`: the nested readings in terms of
  members, positions and alternatives.
* `Schema.Nested`: the schemas that are reached from a schema.
-/

namespace LsxKit

open Json Decimal

/-! ## Numbers -/

theorem Decimal.unitsPerOne_pos : 0 < unitsPerOne := by decide +kernel

/-- The exact value. -/
def Decimal.Binary64.exact (x : Binary64) : ℚ := x.value / unitsPerOne

/-- The exact value. -/
def Json.Number.exact : Number → ℚ
  | .int i => i
  | .float x => x.exact

/-- Whether a value is not below a least number. -/
def Bound.Admits (b : Bound) (q : ℚ) : Prop :=
  match b with
  | .finite least => least.exact ≤ q
  | .infinite negative => negative = true
  | .nan => True

/-- Whether a number is not below a least number. -/
def AtLeast (b : Bound) (n : Number) : Prop := b.Admits n.exact

/-- Whether the binary64 value nearest to a number is not below a least number. -/
def NearestAtLeast (b : Bound) (n : Number) : Prop :=
  ∀ x, n.toBinary64 = some x → b.Admits x.exact

theorem exact_le_exact_iff {x y : Binary64} : x.exact ≤ y.exact ↔ x.value ≤ y.value := by
  have hpos : (0 : ℚ) < unitsPerOne := Nat.cast_pos.2 unitsPerOne_pos
  rw [Binary64.exact, Binary64.exact, div_le_div_iff_of_pos_right hpos, Int.cast_le]

/-- A value is an integer exactly if it has no fractional part. -/
theorem isIntegral_iff {x : Binary64} : x.isIntegral = true ↔ ∃ i : ℤ, x.exact = i := by
  have hunit : (unitsPerOne : ℚ) ≠ 0 := Nat.cast_ne_zero.2 unitsPerOne_pos.ne'
  have hvalue : (unitsPerOne : ℤ) ∣ x.value ↔ unitsPerOne ∣ x.magnitude := by
    unfold Binary64.value
    split_ifs
    · rw [Int.dvd_neg, Int.natCast_dvd_natCast]
    · rw [Int.natCast_dvd_natCast]
  rw [Binary64.isIntegral, beq_iff_eq, ← Nat.dvd_iff_mod_eq_zero, ← hvalue, Binary64.exact]
  constructor
  · rintro ⟨i, hi⟩
    refine ⟨i, ?_⟩
    rw [hi, Int.cast_mul, Int.cast_natCast, mul_div_cancel_left₀ _ hunit]
  · rintro ⟨i, hi⟩
    rw [div_eq_iff hunit] at hi
    refine ⟨i, ?_⟩
    exact_mod_cast hi.trans (mul_comm _ _)

/-! ## Keywords -/

/-- Whether a value is of a type. -/
def JsonType.Holds : JsonType → Value → Prop
  | .object, v => ∃ members, v = .object members
  | .array, v => ∃ elements, v = .array elements
  | .string, v => ∃ s, v = .string s
  | .number, v => ∃ n, v = .number n
  | .integer, v => ∃ n, v = .number n ∧ ∃ i : ℤ, n.exact = i
  | .boolean, v => ∃ b, v = .bool b
  | .null, v => v = .null

theorem JsonType.accepts_iff {t : JsonType} {v : Value} : t.accepts v = true ↔ t.Holds v := by
  cases t with
  | integer =>
    cases v with
    | number n =>
      cases n with
      | int i => simp [accepts, Holds, Number.exact]
      | float x => simp [accepts, Holds, Number.exact, isIntegral_iff]
    | _ => simp [accepts, Holds]
  | _ => cases v <;> simp [accepts, Holds]

/-- Whether a text has a piece of the pattern that a source writes. -/
def Matches (source text : String) : Prop :=
  ∃ p, Pattern.read? source = some p ∧ p.occursIn text = true

/-- Whether a value is what the keywords for its kind ask for; `limit` is how numbers are compared
with a least one. -/
def Keywords.MeetsKind (limit : Bound → Number → Prop) (own : Keywords) : Value → Prop
  | .string s => ∀ source, own.pattern = some source → Matches source s
  | .number n => ∀ least, own.minimum = some least → limit least n
  | .object members => ∀ key ∈ own.required, key ∈ Entries.keys members
  | .array elements => own.unique = some true → elements.Pairwise fun v w => w.same v = false
  | .bool _ | .null => True

/-- Whether a value is what the keywords without sub-schemas ask for. -/
structure Keywords.Meets (limit : Bound → Number → Prop) (own : Keywords) (v : Value) : Prop where
  types : ∀ ts, own.types = some ts → ∃ t ∈ ts.types, t.Holds v
  constant : ∀ w, own.constant = some w → v.same w = true
  options : ∀ ws, own.options = some ws → ∃ w ∈ ws, w.same v = true
  kind : own.MeetsKind limit v

/-! ## Schemas -/

namespace Schema

mutual

/-- Whether a value satisfies a schema. -/
def Satisfies (limit : Bound → Number → Prop) : Schema → Value → Prop
  | .mk own properties items anyOf, v =>
    own.Meets limit v ∧
    (match v with
      | .object members => MembersSatisfy limit properties members ∧
        (own.additional = some false →
          ∀ key ∈ Entries.keys members, key ∈ properties.map Prod.fst)
      | .array elements => ElementsSatisfy limit items elements
      | _ => True) ∧
    (anyOf ≠ [] → SatisfiesSome limit anyOf v)
  termination_by structural s => s

/-- Whether the members with a sub-schema satisfy it. -/
def MembersSatisfy (limit : Bound → Number → Prop) :
    List (String × Schema) → Entries String Value → Prop
  | [], _ => True
  | (key, s) :: properties, members =>
    (∀ v, Entries.get? key members = some v → Satisfies limit s v) ∧
      MembersSatisfy limit properties members
  termination_by structural properties => properties

/-- Whether elements satisfy the schemas for them. -/
def ElementsSatisfy (limit : Bound → Number → Prop) : Items → List Value → Prop
  | .free, _ => True
  | .each s, elements => ∀ v ∈ elements, Satisfies limit s v
  | .tuple ss, elements => TupleSatisfies limit ss elements
  termination_by structural items => items

/-- Whether each element satisfies the schema at its place, if there is one. -/
def TupleSatisfies (limit : Bound → Number → Prop) : List Schema → List Value → Prop
  | [], _ => True
  | s :: ss, elements =>
    match elements with
    | [] => True
    | v :: vs => Satisfies limit s v ∧ TupleSatisfies limit ss vs
  termination_by structural ss => ss

/-- Whether a value satisfies one of several schemas. -/
def SatisfiesSome (limit : Bound → Number → Prop) : List Schema → Value → Prop
  | [], _ => False
  | s :: ss, v => Satisfies limit s v ∨ SatisfiesSome limit ss v
  termination_by structural ss => ss

end

variable {limit : Bound → Number → Prop}

theorem meets_of_satisfies {s : Schema} {v : Value} (h : Satisfies limit s v) :
    s.own.Meets limit v := by
  obtain ⟨own, properties, items, anyOf⟩ := s
  cases v <;> exact h.1

theorem membersSatisfy_iff {properties : List (String × Schema)} {members : Entries String Value} :
    MembersSatisfy limit properties members ↔
      ∀ p ∈ properties, ∀ v, Entries.get? p.1 members = some v → Satisfies limit p.2 v := by
  induction properties with
  | nil => simp [MembersSatisfy]
  | cons p properties ih => rw [MembersSatisfy, ih, List.forall_mem_cons]

theorem tupleSatisfies_iff {ss : List Schema} {elements : List Value} :
    TupleSatisfies limit ss elements ↔
      ∀ (i : Nat) s v, ss[i]? = some s → elements[i]? = some v → Satisfies limit s v := by
  induction ss generalizing elements with
  | nil => simp [TupleSatisfies]
  | cons s ss ih =>
    cases elements with
    | nil => simp [TupleSatisfies]
    | cons v vs =>
      rw [TupleSatisfies, ih]
      constructor
      · rintro ⟨hfirst, hrest⟩ i s' v' hs hv
        cases i with
        | zero =>
          obtain rfl : s = s' := by simpa using hs
          obtain rfl : v = v' := by simpa using hv
          exact hfirst
        | succ i => exact hrest i s' v' (by simpa using hs) (by simpa using hv)
      · intro h
        exact ⟨h 0 s v rfl rfl, fun i s' v' hs hv => h (i + 1) s' v' (by simpa using hs)
          (by simpa using hv)⟩

theorem satisfiesSome_iff {ss : List Schema} {v : Value} :
    SatisfiesSome limit ss v ↔ ∃ s ∈ ss, Satisfies limit s v := by
  induction ss with
  | nil => simp [SatisfiesSome]
  | cons s ss ih => simp [SatisfiesSome, ih]

/-- The schemas that are reached from a schema through members, elements and alternatives. -/
inductive Nested : Schema → Schema → Prop where
  | refl (s : Schema) : Nested s s
  | property {s sub t : Schema} {key : String} (h : (key, sub) ∈ s.properties) :
    Nested sub t → Nested s t
  | each {s sub t : Schema} (h : s.items = .each sub) : Nested sub t → Nested s t
  | tuple {s sub t : Schema} {subs : List Schema} (h : s.items = .tuple subs) (hsub : sub ∈ subs) :
    Nested sub t → Nested s t
  | anyOf {s sub t : Schema} (h : sub ∈ s.anyOf) : Nested sub t → Nested s t

theorem nodesOfList_eq (ss : List Schema) : nodesOfList ss = ss.flatMap nodes := by
  induction ss with
  | nil => rfl
  | cons s ss ih => rw [nodesOfList, ih, List.flatMap_cons]

theorem nodesOfMembers_eq (properties : List (String × Schema)) :
    nodesOfMembers properties = properties.flatMap fun p => nodes p.2 := by
  induction properties with
  | nil => rfl
  | cons p properties ih => rw [nodesOfMembers, ih, List.flatMap_cons]

/-- Every schema that is reached is one of the nested schemas. -/
theorem mem_nodes_of_nested {s t : Schema} (h : Nested s t) : t ∈ s.nodes := by
  induction h with
  | refl s =>
    obtain ⟨own, properties, items, anyOf⟩ := s
    rw [nodes]
    exact List.mem_cons_self
  | @property s sub t key hmem _ ih =>
    obtain ⟨own, properties, items, anyOf⟩ := s
    rw [nodes, nodesOfMembers_eq]
    refine List.mem_cons_of_mem _ (List.mem_append_left _ (List.mem_append_left _ ?_))
    exact List.mem_flatMap.2 ⟨_, hmem, ih⟩
  | @each s sub t hitems _ ih =>
    obtain ⟨own, properties, items, anyOf⟩ := s
    obtain rfl : items = .each sub := hitems
    rw [nodes, nodesOfItems]
    exact List.mem_cons_of_mem _ (List.mem_append_left _ (List.mem_append_right _ ih))
  | @tuple s sub t subs hitems hsub _ ih =>
    obtain ⟨own, properties, items, anyOf⟩ := s
    obtain rfl : items = .tuple subs := hitems
    rw [nodes, nodesOfItems, nodesOfList_eq subs]
    refine List.mem_cons_of_mem _ (List.mem_append_left _ (List.mem_append_right _ ?_))
    exact List.mem_flatMap.2 ⟨sub, hsub, ih⟩
  | @anyOf s sub t hmem _ ih =>
    obtain ⟨own, properties, items, anyOf⟩ := s
    rw [nodes, nodesOfList_eq]
    exact List.mem_cons_of_mem _ (List.mem_append_right _ (List.mem_flatMap.2 ⟨sub, hmem, ih⟩))

end Schema

end LsxKit
