import LsxKit.Text.Blank
import Mathlib.Data.List.TakeWhile

/-!
# Texts without blanks at their ends

* `Trimmed`: no character of a class stands at an end of a text.
* `trimmed_trimBy`: trimming gives such a text.
* `trimBy_of_forall`: trimming does not change a text without characters of the class.
* `trimBy_gaps`: trimming removes what stands around such a text, and nothing else; `gapBefore`,
  `gapAfter`: what it removes.
-/

namespace LsxKit.Text

variable {p : Char → Bool}

/-- Whether no character of the class `p` stands at an end of `s`. -/
def Trimmed (p : Char → Bool) (s : List Char) : Prop :=
  (∀ c ∈ s.head?, p c = false) ∧ ∀ c ∈ s.getLast?, p c = false

@[simp] theorem trimmed_nil : Trimmed p [] := by simp [Trimmed]

/-- The characters of a class with which a text begins are the same in front of a text that does
not begin with one. -/
theorem takeWhile_append_of_head (s : List Char) {rest : List Char}
    (hrest : ∀ c ∈ rest.head?, p c = false) : (s ++ rest).takeWhile p = s.takeWhile p := by
  induction s with
  | nil =>
    cases rest with
    | nil => rfl
    | cons c rest => exact List.takeWhile_cons_of_neg (by simp [hrest c rfl])
  | cons c s ih => simp only [List.cons_append, List.takeWhile_cons, ih]

theorem dropWhile_append_of_head (s : List Char) {rest : List Char}
    (hrest : ∀ c ∈ rest.head?, p c = false) :
    (s ++ rest).dropWhile p = s.dropWhile p ++ rest := by
  have hsplit := List.takeWhile_append_dropWhile (p := p) (l := s ++ rest)
  rw [takeWhile_append_of_head s hrest] at hsplit
  refine List.append_cancel_left (hsplit.trans ?_)
  rw [← List.append_assoc, List.takeWhile_append_dropWhile]

theorem takeWhile_all_append {s rest : List Char} (hs : ∀ c ∈ s, p c = true)
    (hrest : ∀ c ∈ rest.head?, p c = false) : (s ++ rest).takeWhile p = s := by
  rw [takeWhile_append_of_head s hrest, List.takeWhile_eq_self_iff.2 hs]

theorem dropWhile_all_append {s rest : List Char} (hs : ∀ c ∈ s, p c = true)
    (hrest : ∀ c ∈ rest.head?, p c = false) : (s ++ rest).dropWhile p = rest := by
  rw [dropWhile_append_of_head s hrest, List.dropWhile_eq_nil_iff.2 hs, List.nil_append]

theorem head?_dropWhile (s : List Char) : ∀ c ∈ (s.dropWhile p).head?, p c = false := by
  induction s with
  | nil => simp
  | cons d s ih =>
    by_cases hd : p d = true
    · rwa [List.dropWhile_cons_of_pos hd]
    · rw [List.dropWhile_cons_of_neg hd]
      simpa using hd

/-- What trimming at the end leaves is how a text begins. -/
theorem head?_trimEndBy (t : List Char) : ∀ c ∈ (trimEndBy p t).head?, c ∈ t.head? := by
  intro c hc
  have hsplit : t = trimEndBy p t ++ (t.reverse.takeWhile p).reverse := by
    rw [trimEndBy, ← List.reverse_append, List.takeWhile_append_dropWhile, List.reverse_reverse]
  rw [hsplit, List.head?_append]
  simp only [Option.mem_def] at hc ⊢
  rw [hc]
  rfl

/-- Trimming gives a text without the characters of the class at its ends. -/
theorem trimmed_trimBy (s : List Char) : Trimmed p (trimBy p s) := by
  constructor
  · intro c hc
    exact head?_dropWhile s c (head?_trimEndBy _ c hc)
  · intro c hc
    rw [trimBy, trimEndBy, List.getLast?_reverse] at hc
    exact head?_dropWhile _ c hc

/-- Trimming removes what stands around a text, and nothing else. -/
theorem trimBy_gaps {a s b : List Char} (ha : ∀ c ∈ a, p c = true)
    (hb : ∀ c ∈ b, p c = true) (hs : Trimmed p s) : trimBy p (a ++ (s ++ b)) = s := by
  cases s with
  | nil =>
    have hall : ∀ c ∈ a ++ b, p c = true := by
      intro c hc
      rcases List.mem_append.1 hc with h | h
      · exact ha c h
      · exact hb c h
    simp [trimBy, List.dropWhile_eq_nil_iff.2 hall, trimEndBy]
  | cons c s =>
    have hfront : (a ++ (c :: s ++ b)).dropWhile p = c :: s ++ b :=
      dropWhile_all_append ha (by simpa using hs.1)
    have hback : (b.reverse ++ (c :: s).reverse).dropWhile p = (c :: s).reverse := by
      apply dropWhile_all_append (by simpa using hb)
      rw [List.head?_reverse]
      exact hs.2
    rw [trimBy, hfront, trimEndBy, List.reverse_append, hback, List.reverse_reverse]

/-- What trimming removes at the beginning of a text. -/
def gapBefore (p : Char → Bool) (s : List Char) : List Char := s.takeWhile p

/-- What trimming removes at the end of a text. -/
def gapAfter (p : Char → Bool) (s : List Char) : List Char :=
  ((s.dropWhile p).reverse.takeWhile p).reverse

theorem of_mem_gapBefore {s : List Char} : ∀ c ∈ gapBefore p s, p c = true :=
  fun _ hc => List.mem_takeWhile_imp hc

theorem of_mem_gapAfter {s : List Char} : ∀ c ∈ gapAfter p s, p c = true :=
  fun _ hc => List.mem_takeWhile_imp (List.mem_reverse.1 hc)

/-- A text is what trimming leaves of it between what it removes. -/
theorem gaps_trimBy (p : Char → Bool) (s : List Char) :
    gapBefore p s ++ (trimBy p s ++ gapAfter p s) = s := by
  rw [gapBefore, gapAfter, trimBy, trimEndBy, ← List.reverse_append,
    List.takeWhile_append_dropWhile, List.reverse_reverse, List.takeWhile_append_dropWhile]

/-- A trimmed text is not changed by trimming. -/
theorem trimBy_of_trimmed {s : List Char} (hs : Trimmed p s) : trimBy p s = s := by
  have := trimBy_gaps (a := []) (b := []) (by simp) (by simp) hs
  simpa using this

/-- A text without characters of the class is not changed by trimming. -/
theorem trimBy_of_forall {s : List Char} (h : ∀ c ∈ s, p c = false) : trimBy p s = s :=
  trimBy_of_trimmed
    ⟨fun c hc => h c (List.mem_of_mem_head? hc), fun c hc => h c (List.mem_of_mem_getLast? hc)⟩

/-- What holds of a mark and of all characters of some texts holds of all characters of these texts
with the mark between them. -/
theorem forall_mem_intercalate {P : Char → Prop} {mark : Char} {groups : List (List Char)}
    (hmark : P mark) (hgroups : ∀ group ∈ groups, ∀ c ∈ group, P c) :
    ∀ c ∈ [mark].intercalate groups, P c := by
  induction groups with
  | nil => simp
  | cons group groups ih =>
    rw [List.forall_mem_cons] at hgroups
    cases groups with
    | nil => simpa using hgroups.1
    | cons next groups =>
      rw [List.intercalate_cons_cons]
      simp only [List.forall_mem_append, List.forall_mem_singleton]
      exact ⟨⟨hgroups.1, hmark⟩, ih hgroups.2⟩

end LsxKit.Text
