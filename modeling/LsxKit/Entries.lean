/-!
# Entries in order of insertion

A table is the list of its entries, in the order in which their keys were first written. A key
that is written again keeps its place and takes the new value.

* `get?_insert`: what a look-up finds after a write; `alter_eq_insert`: a change is a write.
* `keys_insert`: a new key goes to the end, a present one moves nothing.
* `get?_erase`: what a look-up finds after a removal.
-/

namespace LsxKit

/-- The entries of a table, each key with its value. -/
abbrev Entries (κ ν : Type) := List (κ × ν)

namespace Entries

variable {κ ν : Type} [DecidableEq κ]

/-- The value of a key. -/
def get? (k : κ) : Entries κ ν → Option ν
  | [] => none
  | (k', v) :: es => if k' = k then some v else get? k es

/-- Writes a value: in place if the key is present, at the end otherwise. -/
def insert (k : κ) (v : ν) : Entries κ ν → Entries κ ν
  | [] => [(k, v)]
  | (k', v') :: es => if k' = k then (k', v) :: es else (k', v') :: insert k v es

/-- Writes a value that depends on the one before: in place if the key is present, at the end
otherwise. -/
def alter (k : κ) (f : Option ν → ν) : Entries κ ν → Entries κ ν
  | [] => [(k, f none)]
  | (k', v) :: es => if k' = k then (k', f (some v)) :: es else (k', v) :: alter k f es

/-- Removes a key; the others keep their order. -/
def erase (k : κ) (es : Entries κ ν) : Entries κ ν :=
  es.filter (·.1 ≠ k)

/-- The keys, in order. -/
def keys (es : Entries κ ν) : List κ := es.map Prod.fst

/-- Whether a key is present. -/
def contains (k : κ) (es : Entries κ ν) : Bool := (es.get? k).isSome

/-- Writes all entries of `new` in order. -/
def extend (es new : Entries κ ν) : Entries κ ν :=
  new.foldl (fun t (k, v) => t.insert k v) es

theorem get?_insert (k k' : κ) (v : ν) (es : Entries κ ν) :
    get? k' (insert k v es) = if k = k' then some v else get? k' es := by
  induction es with
  | nil => simp [insert, get?]
  | cons e es ih =>
    obtain ⟨a, b⟩ := e
    by_cases h : a = k <;> by_cases h' : a = k' <;> simp_all [insert, get?]
    all_goals intro hk; simp_all

/-- A changed value is a written one. -/
theorem alter_eq_insert (k : κ) (f : Option ν → ν) (es : Entries κ ν) :
    alter k f es = insert k (f (get? k es)) es := by
  induction es with
  | nil => rfl
  | cons e es ih =>
    obtain ⟨a, b⟩ := e
    by_cases h : a = k <;> simp [alter, insert, get?, h, ih]

theorem keys_insert (k : κ) (v : ν) (es : Entries κ ν) :
    keys (insert k v es) = if k ∈ keys es then keys es else keys es ++ [k] := by
  induction es with
  | nil => simp [insert, keys]
  | cons e es ih =>
    obtain ⟨a, b⟩ := e
    by_cases h : a = k
    · simp [insert, keys, h]
    · have h' : ¬ k = a := fun e => h e.symm
      simp only [keys] at ih
      by_cases hk : k ∈ es.map Prod.fst <;> simp_all [insert, keys]

theorem get?_eq_none_iff (k : κ) (es : Entries κ ν) : get? k es = none ↔ k ∉ keys es := by
  induction es with
  | nil => simp [get?, keys]
  | cons e es ih =>
    obtain ⟨a, b⟩ := e
    by_cases h : a = k
    · simp [get?, keys, h]
    · have h' : ¬ k = a := fun e => h e.symm
      simp_all [get?, keys]

theorem nodup_keys_insert (k : κ) (v : ν) {es : Entries κ ν} (h : (keys es).Nodup) :
    (keys (insert k v es)).Nodup := by
  rw [keys_insert]
  split
  · exact h
  · next hk => exact List.nodup_append.2 ⟨h, by simp, by simp_all; intro a ha e; simp_all⟩

theorem get?_erase (k k' : κ) (es : Entries κ ν) :
    get? k' (erase k es) = if k = k' then none else get? k' es := by
  induction es with
  | nil => simp [erase, get?]
  | cons e es ih =>
    obtain ⟨a, b⟩ := e
    simp only [erase] at ih
    by_cases h : a = k <;> by_cases h' : a = k' <;> simp_all [erase, get?]
    all_goals intro hk; simp_all

end Entries

end LsxKit
