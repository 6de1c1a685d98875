import LsxKit.Json.Value

/-!
# Paths into JSON values

A path is a list of steps, each a key of an object or a place in an array.

* `Step`, `renderPath`: a path and its written form.
* `Value.at?`: the value to which a path leads; `at?_append`: a longer path leads on from there.
* `Value.replaceAt`: another value at a path; `at?_replaceAt`: the path leads to it.
-/

namespace LsxKit.Json

/-- One step into a value: a key of an object or a place in an array. -/
inductive Step where
  | key (k : String)
  | index (i : Nat)
  deriving Repr, DecidableEq

/-- The key of a step. -/
def Step.key? : Step → Option String
  | .key k => some k
  | .index _ => none

/-! ## Written paths -/

/-- Whether a character can begin an identifier. -/
def isIdentifierStart (c : Char) : Bool := c.isAlpha || c == '_' || c == '$'

/-- Whether a key can be written after a dot. -/
def isIdentifier (key : String) : Bool :=
  match key.toList with
  | [] => false
  | c :: cs => isIdentifierStart c && cs.all fun d => isIdentifierStart d || d.isDigit

/-- A step as it is written. -/
def Step.render : Step → String
  | .key k => if isIdentifier k then "." ++ k else "[\"" ++ k ++ "\"]"
  | .index i => "[" ++ toString i ++ "]"

/-- A path as it is written, from the whole value on. -/
def renderPath (path : List Step) : String :=
  "instance" ++ String.join (path.map Step.render)

namespace Value

/-! ## Following a path -/

/-- The value one step inside. -/
def child? : Value → Step → Option Value
  | .object ms, .key k => Entries.get? k ms
  | .array vs, .index i => vs[i]?
  | _, _ => none

/-- The value to which a path leads. -/
def at? (v : Value) : List Step → Option Value
  | [] => some v
  | s :: path => (v.child? s).bind fun w => w.at? path

@[simp] theorem at?_nil (v : Value) : v.at? [] = some v := rfl

@[simp] theorem at?_cons (v : Value) (s : Step) (path : List Step) :
    v.at? (s :: path) = (v.child? s).bind fun w => w.at? path := rfl

/-- Following `p ++ q` is following `p`, then `q` from there. -/
theorem at?_append (v : Value) (p q : List Step) :
    v.at? (p ++ q) = (v.at? p).bind fun w => w.at? q := by
  induction p generalizing v with
  | nil => rfl
  | cons s p ih => cases h : v.child? s <;> simp [h, ih]

/-! ## Replacing the value at a path -/

/-- Another value one step inside; a step that leads nowhere changes nothing. -/
def setChild (v : Value) (s : Step) (new : Value) : Value :=
  match v, s with
  | .object ms, .key k => if Entries.contains k ms then .object (Entries.insert k new ms) else v
  | .array vs, .index i => .array (vs.set i new)
  | v, _ => v

/-- Another value at a path; a path that leads nowhere changes nothing. -/
def replaceAt (v : Value) (path : List Step) (new : Value) : Value :=
  match path with
  | [] => new
  | s :: path =>
    match v.child? s with
    | some w => v.setChild s (w.replaceAt path new)
    | none => v

theorem child?_setChild {v : Value} {s : Step} (h : (v.child? s).isSome) (new : Value) :
    (v.setChild s new).child? s = some new := by
  cases v <;> cases s <;> simp_all [child?, setChild, Entries.contains, Entries.get?_insert]

/-- The path leads to the value that was put there. -/
theorem at?_replaceAt {v : Value} {path : List Step} (h : (v.at? path).isSome) (new : Value) :
    (v.replaceAt path new).at? path = some new := by
  induction path generalizing v with
  | nil => rfl
  | cons s path ih =>
    cases hw : v.child? s with
    | none => simp [hw] at h
    | some w =>
      have hw' : (v.child? s).isSome := by simp [hw]
      simp only [replaceAt, hw, at?_cons, child?_setChild hw', Option.bind_some]
      exact ih (by simpa [hw] using h)

end Value

end LsxKit.Json
