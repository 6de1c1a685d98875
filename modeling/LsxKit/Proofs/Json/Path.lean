import LsxKit.Json.Path
import LsxKit.Proofs.Text.Trim
import LsxKit.Text.Digits

/-!
# Written paths

The steps of a path are written one after the other, without separators and without escapes. The
first characters of a step tell its kind, and its kind tells where it ends: an identifier at the
next dot or bracket, an index after its digits, any other key at its second quote. So each step is
read back if no key has a quote inside, and different paths are written differently.

* `Step.IsUnquoted`: whether a step is no key with a quote inside.
* `Step.read?`: the step at the beginning of a written path.
* `Step.read?_render`: a step is read back, whatever steps come after it.
* `stepChars`: the steps of a path as they are written.
* `renderPath_inj`: paths that are written alike are equal.
-/

namespace LsxKit.Json

namespace Step

/-- Whether a step is no key with a double quote inside. -/
def IsUnquoted (s : Step) : Prop := ∀ k ∈ s.key?, '"' ∉ k.toList

/-- Whether a text is empty or begins as a step does. -/
def Begins (rest : List Char) : Prop := ∀ c ∈ rest.head?, c = '.' ∨ c = '['

/-- Whether a character can stand in an identifier after the first one. -/
def inIdentifier (c : Char) : Bool := isIdentifierStart c || c.isDigit

/-- The step at the beginning of a written path, with what comes after it. -/
def read? : List Char → Option (Step × List Char)
  | '.' :: cs =>
    some (.key (String.ofList (cs.takeWhile inIdentifier)), cs.dropWhile inIdentifier)
  | '[' :: '"' :: cs =>
    some (.key (String.ofList (cs.takeWhile (· ≠ '"'))), (cs.dropWhile (· ≠ '"')).drop 2)
  | '[' :: cs =>
    some (.index (Nat.ofDigitChars 10 (cs.takeWhile Char.isDigit) 0),
      (cs.dropWhile Char.isDigit).drop 1)
  | _ => none

variable {k : String} {rest : List Char}

/-! ## Written steps -/

theorem toList_render_identifier (h : isIdentifier k = true) :
    (Step.key k).render.toList = '.' :: k.toList := by
  rw [render, if_pos h, String.toList_append]
  rfl

theorem toList_render_quoted (h : isIdentifier k = false) :
    (Step.key k).render.toList = '[' :: '"' :: (k.toList ++ ['"', ']']) := by
  rw [render, if_neg (by simp [h]), String.toList_append, String.toList_append]
  rfl

theorem toList_render_index (i : Nat) :
    (Step.index i).render.toList = '[' :: (Nat.toDigits 10 i ++ [']']) := by
  rw [render, Nat.toString_eq_repr, String.toList_append, String.toList_append, Nat.toList_repr]
  rfl

/-- A step begins with a dot or a bracket. -/
theorem begins_render (s : Step) (rest : List Char) : Begins (s.render.toList ++ rest) := by
  intro c hc
  cases s with
  | key k =>
    cases hk : isIdentifier k with
    | true =>
      rw [toList_render_identifier hk] at hc
      exact .inl (Option.some.inj hc).symm
    | false =>
      rw [toList_render_quoted hk] at hc
      exact .inr (Option.some.inj hc).symm
  | index i =>
    rw [toList_render_index] at hc
    exact .inr (Option.some.inj hc).symm

theorem inIdentifier_of_isIdentifier (h : isIdentifier k = true) :
    ∀ c ∈ k.toList, inIdentifier c = true := by
  unfold isIdentifier at h
  split at h
  · contradiction
  · next c cs hk =>
    rw [Bool.and_eq_true, List.all_eq_true] at h
    rw [hk]
    refine List.forall_mem_cons.2 ⟨?_, h.2⟩
    rw [inIdentifier, h.1, Bool.true_or]

theorem not_inIdentifier_of_begins (h : Begins rest) :
    ∀ c ∈ rest.head?, inIdentifier c = false := by
  intro c hc
  rcases h c hc with rfl | rfl <;> decide

/-! ## Reading them back -/

theorem read?_identifier (h : isIdentifier k = true) (hrest : Begins rest) :
    read? ('.' :: (k.toList ++ rest)) = some (.key k, rest) := by
  have hk := inIdentifier_of_isIdentifier h
  have hend := not_inIdentifier_of_begins hrest
  rw [read?, Text.takeWhile_all_append hk hend, Text.dropWhile_all_append hk hend,
    String.ofList_toList]

theorem read?_quoted (h : '"' ∉ k.toList) (rest : List Char) :
    read? ('[' :: '"' :: (k.toList ++ '"' :: ']' :: rest)) = some (.key k, rest) := by
  have hk : ∀ c ∈ k.toList, decide (c ≠ '"') = true := by
    intro c hc
    exact decide_eq_true fun he => h (he ▸ hc)
  have hend : ∀ c ∈ ('"' :: ']' :: rest).head?, decide (c ≠ '"') = false := by simp
  rw [read?, Text.takeWhile_all_append hk hend, Text.dropWhile_all_append hk hend,
    String.ofList_toList]
  rfl

theorem read?_index (i : Nat) (rest : List Char) :
    read? ('[' :: (Nat.toDigits 10 i ++ ']' :: rest)) = some (.index i, rest) := by
  have hdigits : ∀ c ∈ Nat.toDigits 10 i, c.isDigit = true :=
    fun c hc => Nat.isDigit_of_mem_toDigits (by decide) (by decide) hc
  have hend : ∀ c ∈ (']' :: rest).head?, c.isDigit = false := by simp
  -- the first digit is no quote, so the step is not a key
  have hquote : ∀ cs, Nat.toDigits 10 i ++ ']' :: rest ≠ '"' :: cs := by
    intro cs hcs
    obtain ⟨d, ds, hd⟩ := List.exists_cons_of_ne_nil (@Nat.toDigits_ne_nil i 10)
    rw [hd] at hcs hdigits
    obtain ⟨rfl, -⟩ := List.cons.inj hcs
    exact absurd (hdigits '"' List.mem_cons_self) (by decide)
  rw [read?.eq_3 _ hquote, Text.takeWhile_all_append hdigits hend,
    Text.dropWhile_all_append hdigits hend, Nat.ofDigitChars_ten_toDigits]
  rfl

/-- A step is read back, whatever steps come after it. -/
theorem read?_render {s : Step} (h : s.IsUnquoted) (hrest : Begins rest) :
    read? (s.render.toList ++ rest) = some (s, rest) := by
  cases s with
  | key k =>
    cases hk : isIdentifier k with
    | true =>
      rw [toList_render_identifier hk]
      exact read?_identifier hk hrest
    | false =>
      rw [toList_render_quoted hk, List.cons_append, List.cons_append, List.append_assoc]
      exact read?_quoted (h k rfl) rest
  | index i =>
    rw [toList_render_index, List.cons_append, List.append_assoc]
    exact read?_index i rest

end Step

/-! ## Paths -/

/-- The characters of the steps of a path, one step after the other. -/
def stepChars (path : List Step) : List Char := path.flatMap fun s => s.render.toList

variable {s : Step} {p q : List Step}

theorem stepChars_cons (s : Step) (path : List Step) :
    stepChars (s :: path) = s.render.toList ++ stepChars path :=
  List.flatMap_cons

theorem toList_renderPath (path : List Step) :
    (renderPath path).toList = "instance".toList ++ stepChars path := by
  rw [renderPath, String.toList_append, String.toList_join, List.flatMap_map]
  rfl

theorem begins_stepChars (path : List Step) : Step.Begins (stepChars path) := by
  cases path with
  | nil => exact fun c hc => absurd hc (Option.not_mem_none c)
  | cons s path =>
    rw [stepChars_cons]
    exact Step.begins_render s _

/-- The first step of a path is read back, and the other steps are left. -/
theorem read?_stepChars (h : s.IsUnquoted) (path : List Step) :
    Step.read? (stepChars (s :: path)) = some (s, stepChars path) := by
  rw [stepChars_cons]
  exact Step.read?_render h (begins_stepChars path)

/-- Reading one step after the other tells which path was written. -/
theorem eq_of_stepChars_eq (hp : ∀ s ∈ p, s.IsUnquoted) (hq : ∀ s ∈ q, s.IsUnquoted)
    (h : stepChars p = stepChars q) : p = q := by
  -- what is read of the first path is also what is read of the other one
  induction p generalizing q with
  | nil =>
    cases q with
    | nil => rfl
    | cons t q =>
      have hread := read?_stepChars (hq t List.mem_cons_self) q
      rw [← h] at hread
      contradiction
  | cons s p ih =>
    rw [List.forall_mem_cons] at hp
    have hread := read?_stepChars hp.1 p
    rw [h] at hread
    cases q with
    | nil => contradiction
    | cons t q =>
      rw [List.forall_mem_cons] at hq
      rw [read?_stepChars hq.1 q] at hread
      obtain ⟨rfl, hrest⟩ := Prod.mk.inj (Option.some.inj hread)
      rw [ih hp.2 hq.2 hrest.symm]

/-- Paths without quotes inside keys are written alike exactly if they are equal. -/
theorem renderPath_inj (hp : ∀ s ∈ p, s.IsUnquoted) (hq : ∀ s ∈ q, s.IsUnquoted) :
    renderPath p = renderPath q ↔ p = q := by
  refine ⟨fun h => ?_, congrArg renderPath⟩
  have hsteps := congrArg String.toList h
  rw [toList_renderPath, toList_renderPath] at hsteps
  exact eq_of_stepChars_eq hp hq (List.append_cancel_left hsteps)

/-- A key that is empty, and one that is not the index with the same digits. -/
theorem renderPath_inj_digits :
    let p := [Step.key "", .key "0"]
    let q := [Step.key "", .index 0]
    (∀ s ∈ p, s.IsUnquoted) ∧ (∀ s ∈ q, s.IsUnquoted) ∧ renderPath p ≠ renderPath q := by
  intro p q
  have hp : ∀ s ∈ p, s.IsUnquoted := by simp [p, Step.IsUnquoted, Step.key?]
  have hq : ∀ s ∈ q, s.IsUnquoted := by simp [q, Step.IsUnquoted, Step.key?]
  exact ⟨hp, hq, fun h => absurd ((renderPath_inj hp hq).1 h) (by decide)⟩

/-- A quote inside a key can look like its end. -/
example : renderPath [.key "0\"][\"1"] = renderPath [.key "0", .key "1"] := by decide

end LsxKit.Json
