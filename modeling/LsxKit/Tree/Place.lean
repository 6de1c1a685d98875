import LsxKit.Json.Path
import LsxKit.Tree.Options

/-!
# Places in document trees

A place is a path into a tree together with the value there, so that what was found in a tree can
also be replaced in it.

* `Place.member?`, `Place.entries`, `Place.id?`: moving on from a place.
* `Place.Within`: the path leads to the value; the moves keep that.
-/

namespace LsxKit.Tree

open Json

/-- A path and the value to which it leads. -/
structure Place where
  path : List Step
  value : Value

namespace Place

/-- The place of a whole tree. -/
def top (tree : Value) : Place := ⟨[], tree⟩

/-- The member under a key. -/
def member? (p : Place) (key : String) : Option Place :=
  (p.value.get? key).map fun v => ⟨p.path ++ [.key key], v⟩

/-- The elements of an array, or the place itself as the only one. -/
def entries (p : Place) : List Place :=
  match p.value with
  | .array vs => vs.zipIdx.map fun (v, i) => ⟨p.path ++ [.index i], v⟩
  | _ => [p]

/-- The entries of the member under a key; none if there is no such member. -/
def members (p : Place) (key : String) : List Place :=
  match p.member? key with
  | some q => q.entries
  | none => []

/-- The attribute `id` of an element. -/
def id? (p : Place) : Option String :=
  ((p.value.get? attributesGroup).bind (·.get? "id")).bind (·.asString?)

/-- Whether the path leads to the value. -/
def Within (tree : Value) (p : Place) : Prop := tree.at? p.path = some p.value

theorem within_top (tree : Value) : Within tree (top tree) := rfl

theorem within_member? {tree : Value} {p q : Place} {key : String} (hp : Within tree p)
    (h : p.member? key = some q) : Within tree q := by
  obtain ⟨v, hv, rfl⟩ := Option.map_eq_some_iff.1 h
  cases hw : p.value <;>
    simp_all [Within, Value.at?_append, Value.child?, Value.get?]

theorem within_entries {tree : Value} {p q : Place} (hp : Within tree p)
    (h : q ∈ p.entries) : Within tree q := by
  unfold entries at h
  split at h
  · next vs hv =>
    obtain ⟨⟨v, i⟩, hi, rfl⟩ := List.mem_map.1 h
    have hi := List.mk_mem_zipIdx_iff_getElem?.1 hi
    simp_all [Within, Value.at?_append, Value.child?]
  · simp_all

end Place

end LsxKit.Tree
