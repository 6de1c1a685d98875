import LsxKit.Json.Shape
import LsxKit.Proofs.Json.Compact

/-!
# Reading back the fields of records

A record that was written as an object has the fields that had a value, in the order of their names.

* `Entries.choose`: the entries for the names that have a value.
* `Shape.fields_choose`: the fields that are read from such an object.
* `Shape.withDefault_optional`, `withDefault_nonempty`: what is read from one of them.
-/

namespace LsxKit

open Json

/-! ## Entries by name -/

namespace Entries

variable {κ ν : Type}

/-- The entries for the names that have a value, in the order of the names. -/
def choose (value? : κ → Option ν) (names : List κ) : Entries κ ν :=
  names.flatMap fun name => ((value? name).map fun v => (name, v)).toList

theorem choose_nil (value? : κ → Option ν) : choose value? [] = [] := rfl

theorem choose_cons (value? : κ → Option ν) (name : κ) (names : List κ) :
    choose value? (name :: names) =
      ((value? name).map fun v => (name, v)).toList ++ choose value? names :=
  List.flatMap_cons

theorem keys_choose_sublist (value? : κ → Option ν) (names : List κ) :
    (keys (choose value? names)).Sublist names := by
  induction names with
  | nil => exact List.Sublist.refl []
  | cons name names ih =>
    rw [choose_cons]
    cases value? name with
    | none => exact ih.cons name
    | some v => exact ih.cons_cons name

theorem mem_choose {value? : κ → Option ν} {names : List κ} {name : κ} {v : ν} (h : name ∈ names)
    (hv : value? name = some v) : (name, v) ∈ choose value? names :=
  List.mem_flatMap.2 ⟨name, h, by rw [hv]; exact List.mem_singleton_self _⟩

theorem get?_choose [DecidableEq κ] (value? : κ → Option ν) {name : κ} {names : List κ}
    (h : name ∈ names) : get? name (choose value? names) = value? name := by
  induction names with
  | nil => contradiction
  | cons name' names ih =>
    rw [choose_cons]
    by_cases hmem : name ∈ names
    · cases hvalue : value? name' with
      | none => exact ih hmem
      | some v =>
        by_cases hname : name' = name
        · subst hname
          simp [get?, hvalue]
        · simp [get?, hname, ih hmem]
    · obtain rfl : name = name' := (List.mem_cons.1 h).resolve_right hmem
      have hnone : get? name (choose value? names) = none :=
        (get?_eq_none_iff name _).2 fun hk => hmem ((keys_choose_sublist value? names).subset hk)
      cases value? name with
      | none => exact hnone
      | some v => simp [get?]

end Entries

namespace Json.Shape

/-! ## Fields by name -/

variable {names : List String} {α β : Type}

theorem members_ofMembers (ms : List (String × Value)) :
    members (.object (Term.ofMembers ms)) = .ok (ms.map fun m => (m.1, Term.ofValue m.2)) := by
  rw [members, Term.ofMembers_eq]
  induction ms with
  | nil => rfl
  | cons m ms ih =>
    rw [List.map_cons, List.mapM_cons, List.map_cons]
    exact bind_eq_ok_iff.2 ⟨_, rfl, bind_eq_ok_iff.2 ⟨_, ih, rfl⟩⟩

/-- Members whose names are known and distinct are all picked. -/
theorem known_eq {found fs : Entries String Term} (hnames : ∀ key ∈ Entries.keys fs, key ∈ names)
    (hnodup : (Entries.keys (found ++ fs)).Nodup) : known names found fs = .ok (found ++ fs) := by
  induction fs generalizing found with
  | nil => rw [known, List.append_nil]
  | cons m fs ih =>
    obtain ⟨key, t⟩ := m
    rw [Entries.keys_cons, List.forall_mem_cons] at hnames
    have hsplit : found ++ (key, t) :: fs = found ++ [(key, t)] ++ fs := by simp
    have hnew : key ∉ Entries.keys found := by
      rw [Entries.keys_append, Entries.keys_cons, List.nodup_append] at hnodup
      exact fun hk => hnodup.2.2 key hk key List.mem_cons_self rfl
    have hmissing : ¬found.contains key = true := by
      rw [Entries.contains, (Entries.get?_eq_none_iff key found).2 hnew]
      exact Bool.false_ne_true
    rw [known, if_pos hnames.1, if_neg hmissing, Entries.insert_of_not_mem hnew,
      ih hnames.2 (hsplit ▸ hnodup), hsplit]

/-- The fields of a record that was written with some of its names in order. -/
theorem fields_choose {value? : String → Option Value} (record : String) (hnames : names.Nodup) :
    fields record names (Term.ofValue (.object (Entries.choose value? names))) =
      .ok (Entries.choose (fun name => (value? name).map Term.ofValue) names) := by
  have hterms : (Entries.choose value? names).map (fun m => (m.1, Term.ofValue m.2)) =
      Entries.choose (fun name => (value? name).map Term.ofValue) names := by
    rw [Entries.choose, Entries.choose, List.map_flatMap]
    congr 1
    funext name
    cases value? name <;> rfl
  have hkeys := Entries.keys_choose_sublist (fun name => (value? name).map Term.ofValue) names
  rw [Term.ofValue, fields]
  refine bind_eq_ok_iff.2 ⟨_, members_ofMembers _, ?_⟩
  rw [hterms]
  exact known_eq (fun key hk => hkeys.subset hk) (hnames.sublist hkeys)

/-! ## Values of fields -/

variable {fs : Entries String Term} {name : String}

theorem withDefault_of_none {default : β} {shape : Term → Except Cause β}
    (hget : fs.get? name = none) : withDefault fs name default shape = .ok default := by
  rw [withDefault, hget]

theorem withDefault_of_some {default : β} {shape : Term → Except Cause β} {t : Term}
    (hget : fs.get? name = some t) : withDefault fs name default shape = shape t := by
  rw [withDefault, hget]

/-- What is read under an optional keyword that was written if it had a value. -/
theorem withDefault_optional {shape : Term → Except Cause β} {x : Option α} {f : α → Value}
    {g : α → Option β} (hget : fs.get? name = (x.map f).map Term.ofValue)
    (h : ∀ a ∈ x, optional shape (Term.ofValue (f a)) = .ok (g a)) :
    withDefault fs name none (optional shape) = .ok (x.bind g) := by
  cases x with
  | none => exact withDefault_of_none hget
  | some a => exact (withDefault_of_some hget).trans (h a rfl)

theorem optional_ofValue {shape : Term → Except Cause α} {v : Value} {a : α} (hnull : v ≠ .null)
    (h : shape (Term.ofValue v) = .ok a) : optional shape (Term.ofValue v) = .ok (some a) := by
  have hshape : optional shape (Term.ofValue v) = (shape (Term.ofValue v)).map some := by
    cases v <;> first | contradiction | rfl
  rw [hshape, h]
  rfl

/-- What is read under an optional keyword whose values are read back. -/
theorem withDefault_kept {x : Option α} {f : α → Value} {shape : Term → Except Cause α}
    (hget : fs.get? name = (x.map f).map Term.ofValue)
    (h : ∀ a ∈ x, f a ≠ .null ∧ shape (Term.ofValue (f a)) = .ok a) :
    withDefault fs name none (optional shape) = .ok x := by
  have hread := withDefault_optional hget fun a ha => optional_ofValue (h a ha).1 (h a ha).2
  simpa using hread

/-- What is read under a keyword that was written unless a list was empty. -/
theorem withDefault_nonempty {shape : Term → Except Cause (List β)} {as : List α} {bs : List β}
    {w : Value} (hget : fs.get? name = (if as.isEmpty then none else some w).map Term.ofValue)
    (hempty : as = [] → bs = []) (h : shape (Term.ofValue w) = .ok bs) :
    withDefault fs name [] shape = .ok bs := by
  cases as with
  | nil =>
    rw [hempty rfl]
    exact withDefault_of_none hget
  | cons a as => exact (withDefault_of_some hget).trans h

/-- The elements of a list that was written are read back, if each of them is. -/
theorem mapM_ofValues {shape : Term → Except Cause β} {f : α → Value} {g : α → β}
    {as : List α} (h : ∀ a ∈ as, shape (Term.ofValue (f a)) = .ok (g a)) :
    (Term.ofValues (as.map f)).mapM shape = .ok (as.map g) := by
  rw [Term.ofValues_eq]
  induction as with
  | nil => rfl
  | cons a as ih =>
    rw [List.forall_mem_cons] at h
    rw [List.map_cons, List.map_cons, List.mapM_cons]
    exact bind_eq_ok_iff.2 ⟨_, h.1, bind_eq_ok_iff.2 ⟨_, ih h.2, rfl⟩⟩

theorem mapM_ofValues_self {shape : Term → Except Cause α} {f : α → Value} {as : List α}
    (h : ∀ a ∈ as, shape (Term.ofValue (f a)) = .ok a) :
    (Term.ofValues (as.map f)).mapM shape = .ok as := by
  have hread := mapM_ofValues (g := id) h
  rwa [List.map_id] at hread

end Json.Shape

end LsxKit
