import LsxKit.Proofs.Tree.Distinct
import Mathlib.Data.List.Forall2
import Mathlib.Data.List.Perm.Subperm

/-!
# Values that are equal up to the order of members

On values with distinct keys the equality is symmetric and transitive, so equal values are equal to
the same values.

* `same_cases`: equal values are of one kind.
* `same_trans`, `same_symm`: the equality is transitive, and symmetric where keys are distinct.
* `Alike`: values with distinct keys that are equal; they are equal to the same values, have the
  same keys, and what they hold is equal again.
-/

namespace LsxKit.Json

open LsxKit.Tree (Distinct AllDistinct MembersDistinct allDistinct_iff membersDistinct_iff
  sameMembers_iff)

/-! ## Numbers -/

theorem Number.same_symm {m n : Number} (h : m.same n = true) : n.same m = true := by
  cases m <;> cases n <;> simp_all [Number.same, Decimal.Binary64.sameValue]

theorem Number.same_trans {m n p : Number} (h : m.same n = true) (h' : n.same p = true) :
    m.same p = true := by
  cases m <;> cases n <;> cases p <;> simp_all [Number.same, Decimal.Binary64.sameValue]

namespace Value

/-- Equal values are of one kind. -/
theorem same_cases {v w : Value} (h : v.same w = true) :
    (v = .null ∧ w = .null) ∨ (∃ b, v = .bool b ∧ w = .bool b) ∨
      (∃ m n, v = .number m ∧ w = .number n ∧ m.same n = true) ∨
      (∃ s, v = .string s ∧ w = .string s) ∨
      (∃ vs ws, v = .array vs ∧ w = .array ws ∧ sameItems vs ws = true) ∨
      ∃ ms ns, v = .object ms ∧ w = .object ns ∧ ms.length = ns.length ∧
        sameMembers ms ns = true := by
  cases v <;> cases w <;> simp_all [same]

theorem sameItems_iff {vs ws : List Value} :
    sameItems vs ws = true ↔ List.Forall₂ (fun v w => v.same w = true) vs ws := by
  induction vs generalizing ws with
  | nil => cases ws <;> simp [sameItems]
  | cons v vs ih => cases ws <;> simp [sameItems, ih]

/-! ## An equivalence -/

mutual

theorem same_trans (v : Value) {w x : Value} (h : v.same w = true) (h' : w.same x = true) :
    v.same x = true := by
  match v with
  | .array vs =>
    cases w with
    | array ws =>
      cases x with
      | array xs => exact sameItems_trans vs h h'
      | _ => simp [same] at h'
    | _ => simp [same] at h
  | .object ms =>
    cases w with
    | object ns =>
      cases x with
      | object ps =>
        simp only [same, Bool.and_eq_true, beq_iff_eq] at h h' ⊢
        exact ⟨h.1.trans h'.1, sameMembers_trans ms h.2 h'.2⟩
      | _ => simp [same] at h'
    | _ => simp [same] at h
  | .number m =>
    cases w with
    | number n =>
      cases x with
      | number p => exact Number.same_trans h h'
      | _ => simp [same] at h'
    | _ => simp [same] at h
  | .null | .bool _ | .string _ => cases w <;> cases x <;> simp_all [same]
  termination_by structural v

theorem sameItems_trans (vs : List Value) {ws xs : List Value} (h : sameItems vs ws = true)
    (h' : sameItems ws xs = true) : sameItems vs xs = true := by
  match vs with
  | [] => cases ws <;> cases xs <;> simp_all [sameItems]
  | v :: vs =>
    cases ws with
    | nil => simp [sameItems] at h
    | cons w ws =>
      cases xs with
      | nil => simp [sameItems] at h'
      | cons x xs =>
        simp only [sameItems, Bool.and_eq_true] at h h' ⊢
        exact ⟨same_trans v h.1 h'.1, sameItems_trans vs h.2 h'.2⟩
  termination_by structural vs

theorem sameMembers_trans (ms : List (String × Value)) {ns ps : List (String × Value)}
    (h : sameMembers ms ns = true) (h' : sameMembers ns ps = true) :
    sameMembers ms ps = true := by
  match ms with
  | [] => rfl
  | (key, v) :: ms =>
    have hms := sameMembers_iff.1 h
    rw [List.forall_mem_cons] at hms
    obtain ⟨⟨w, hw, hvw⟩, hrest⟩ := hms
    obtain ⟨x, hx, hwx⟩ := sameMembers_iff.1 h' (key, w) (Entries.mem_of_get? hw)
    rw [sameMembers, hx, Bool.and_eq_true]
    exact ⟨same_trans v hvw hwx, sameMembers_trans ms (sameMembers_iff.2 hrest) h'⟩
  termination_by structural ms

end

/-- Objects with equal members have the same keys, those of the first being distinct. -/
theorem perm_keys_of_same {ms ns : Entries String Value} (hms : (Entries.keys ms).Nodup)
    (hlength : ms.length = ns.length) (h : sameMembers ms ns = true) :
    (Entries.keys ms).Perm (Entries.keys ns) := by
  have hsub : Entries.keys ms ⊆ Entries.keys ns := by
    intro key hkey
    obtain ⟨m, hm, rfl⟩ := List.mem_map.1 hkey
    obtain ⟨w, hw, -⟩ := sameMembers_iff.1 h m hm
    exact List.mem_map.2 ⟨(m.1, w), Entries.mem_of_get? hw, rfl⟩
  refine (List.subperm_of_subset hms hsub).perm_of_length_le ?_
  simp [Entries.keys, hlength]

/-- Objects with distinct keys are equal if they have the same keys, with equal values under
them. -/
theorem same_object_of_get? {ms ns : Entries String Value} (hms : (Entries.keys ms).Nodup)
    (hns : (Entries.keys ns).Nodup) (hkeys : Entries.keys ns ⊆ Entries.keys ms)
    (h : ∀ key v, Entries.get? key ms = some v →
      ∃ w, Entries.get? key ns = some w ∧ v.same w = true) :
    (Value.object ms).same (.object ns) = true := by
  have hsame : sameMembers ms ns = true :=
    sameMembers_iff.2 fun m hm => h m.1 m.2 (Entries.get?_of_mem hms hm)
  have hsub : Entries.keys ms ⊆ Entries.keys ns := by
    intro key hkey
    obtain ⟨m, hm, rfl⟩ := List.mem_map.1 hkey
    obtain ⟨w, hw, -⟩ := sameMembers_iff.1 hsame m hm
    exact List.mem_map.2 ⟨(m.1, w), Entries.mem_of_get? hw, rfl⟩
  have hlength : (Entries.keys ms).length = (Entries.keys ns).length :=
    Nat.le_antisymm (List.subperm_of_subset hms hsub).length_le
      (List.subperm_of_subset hns hkeys).length_le
  rw [same, hsame, Bool.and_true, beq_iff_eq]
  simpa [Entries.keys] using hlength

mutual

theorem same_symm (v : Value) {w : Value} (hv : Distinct v) (hw : Distinct w)
    (h : v.same w = true) : w.same v = true := by
  match v with
  | .array vs =>
    cases w with
    | array ws => exact sameItems_symm vs hv hw h
    | _ => simp [same] at h
  | .object ms =>
    cases w with
    | object ns =>
      simp only [same, Bool.and_eq_true, beq_iff_eq] at h ⊢
      refine ⟨h.1.symm, sameMembers_iff.2 fun n hn => ?_⟩
      -- the keys are the same, and what stands under a key is known from the first object
      have hkey : n.1 ∈ Entries.keys ms :=
        (perm_keys_of_same hv.1 h.1 h.2).mem_iff.2 (List.mem_map_of_mem hn)
      obtain ⟨m, hm, hmn⟩ := List.mem_map.1 hkey
      obtain ⟨w, hget, hsame⟩ := sameMembers_iff.1 h.2 m hm
      rw [hmn, Entries.get?_of_mem hw.1 hn] at hget
      obtain rfl := Option.some.inj hget
      exact ⟨m.2, hmn ▸ Entries.get?_of_mem hv.1 hm,
        sameMembers_symm ms hv.2 m hm (membersDistinct_iff.1 hw.2 n hn) hsame⟩
    | _ => simp [same] at h
  | .number m =>
    cases w with
    | number n => exact Number.same_symm h
    | _ => simp [same] at h
  | .null | .bool _ | .string _ => cases w <;> simp_all [same]
  termination_by structural v

theorem sameItems_symm (vs : List Value) {ws : List Value} (hvs : AllDistinct vs)
    (hws : AllDistinct ws) (h : sameItems vs ws = true) : sameItems ws vs = true := by
  match vs with
  | [] => cases ws <;> simp_all [sameItems]
  | v :: vs =>
    cases ws with
    | nil => simp [sameItems] at h
    | cons w ws =>
      simp only [sameItems, Bool.and_eq_true] at h ⊢
      exact ⟨same_symm v hvs.1 hws.1 h.1, sameItems_symm vs hvs.2 hws.2 h.2⟩
  termination_by structural vs

theorem sameMembers_symm (ms : List (String × Value)) (hms : MembersDistinct ms) :
    ∀ m ∈ ms, ∀ {w : Value}, Distinct w → m.2.same w = true → w.same m.2 = true := by
  match ms with
  | [] => exact nofun
  | (key, v) :: ms =>
    rw [List.forall_mem_cons]
    exact ⟨fun hw h => same_symm v hms.1 hw h, sameMembers_symm ms hms.2⟩
  termination_by structural ms

end

/-! ## Values with distinct keys -/

/-- Two values with distinct keys that are equal up to the order of members. -/
structure Alike (v w : Value) : Prop where
  left : Distinct v
  right : Distinct w
  same : v.same w = true

namespace Alike

variable {v w x y : Value} {vs ws : List Value} {ms ns : Entries String Value}

/-- Such values are equal to the same values. -/
theorem same_left (h : Alike v w) (x : Value) : v.same x = w.same x :=
  Bool.eq_iff_iff.2 ⟨same_trans w (same_symm v h.left h.right h.same), same_trans v h.same⟩

/-- The same values are equal to them. -/
theorem same_right (h : Alike v w) (x : Value) : x.same v = x.same w :=
  Bool.eq_iff_iff.2 ⟨fun hx => same_trans x hx h.same,
    fun hx => same_trans x hx (same_symm v h.left h.right h.same)⟩

/-- The elements of two arrays, position by position. -/
theorem items (h : Alike (.array vs) (.array ws)) : List.Forall₂ Alike vs ws := by
  obtain ⟨hvs, hws, hsame⟩ := h
  rw [Value.same, sameItems_iff] at hsame
  induction hsame with
  | nil => exact .nil
  | cons hvw _ ih => exact .cons ⟨hvs.1, hws.1, hvw⟩ (ih hvs.2 hws.2)

/-- The keys of two objects. -/
theorem keys (h : Alike (.object ms) (.object ns)) :
    (Entries.keys ms).Perm (Entries.keys ns) := by
  obtain ⟨hms, -, hsame⟩ := h
  rw [Value.same, Bool.and_eq_true, beq_iff_eq] at hsame
  exact perm_keys_of_same hms.1 hsame.1 hsame.2

/-- Under a key of two objects there is nothing in either, or there are such values again. -/
theorem get? (h : Alike (.object ms) (.object ns)) (key : String) :
    (Entries.get? key ms = none ∧ Entries.get? key ns = none) ∨
      ∃ v w, Entries.get? key ms = some v ∧ Entries.get? key ns = some w ∧ Alike v w := by
  obtain ⟨hms, hns, hsame⟩ := id h
  rw [Value.same, Bool.and_eq_true] at hsame
  cases hget : Entries.get? key ms with
  | none =>
    refine .inl ⟨rfl, ?_⟩
    rw [Entries.get?_eq_none_iff] at hget ⊢
    exact fun hkey => hget (h.keys.mem_iff.2 hkey)
  | some v =>
    have hv := Entries.mem_of_get? hget
    obtain ⟨w, hw, hvw⟩ := sameMembers_iff.1 hsame.2 (key, v) hv
    exact .inr ⟨v, w, rfl, hw, membersDistinct_iff.1 hms.2 _ hv,
      membersDistinct_iff.1 hns.2 _ (Entries.mem_of_get? hw), hvw⟩

end Alike

end Value

end LsxKit.Json
