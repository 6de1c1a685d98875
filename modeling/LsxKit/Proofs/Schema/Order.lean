import LsxKit.Proofs.Json.Same
import LsxKit.Proofs.Schema.Satisfies

/-!
# The order of members and validation

Members are looked up by the keys that a schema declares, in its order. Only the keys that it does
not declare are listed in the order of the value. So two values that are equal up to the order of
members have the same violations, and only those of additional keys may be listed in another order.

* `Agree`: lists of violations that differ at most in the order of additional keys.
* `typeBreach?_of_alike` and its like: what the keywords without sub-schemas find.
* `violationsAt_agree`: what a schema finds, with all of its sub-schemas.
* `violations_agree`: what a validator finds.
-/

namespace LsxKit.Schema

open Json Decimal
open Json.Value (Alike)

/-- Whether the violation is about a key that is not allowed. -/
def Violation.isAdditional (x : Violation) : Bool :=
  match x.breach with
  | .additional _ => true
  | _ => false

/-! ## Lists of violations -/

/-- Lists of violations that differ at most in the order of additional keys. -/
structure Agree (xs ys : List Violation) : Prop where
  perm : xs.Perm ys
  others : xs.filter (!·.isAdditional) = ys.filter (!·.isAdditional)

namespace Agree

variable {xs ys xs' ys' : List Violation}

theorem refl (xs : List Violation) : Agree xs xs := ⟨.refl xs, rfl⟩

theorem append (h : Agree xs ys) (h' : Agree xs' ys') : Agree (xs ++ xs') (ys ++ ys') :=
  ⟨h.perm.append h'.perm, by rw [List.filter_append, List.filter_append, h.others, h'.others]⟩

theorem isEmpty_eq (h : Agree xs ys) : xs.isEmpty = ys.isEmpty := by
  rw [Bool.eq_iff_iff, List.isEmpty_iff, List.isEmpty_iff]
  exact ⟨fun hxs => List.nil_perm.1 (hxs ▸ h.perm), fun hys => List.perm_nil.1 (hys ▸ h.perm)⟩

/-- Violations of additional keys agree in any order. -/
theorem of_additional (h : xs.Perm ys) (hxs : ∀ x ∈ xs, x.isAdditional = true) : Agree xs ys := by
  refine ⟨h, ?_⟩
  rw [List.filter_eq_nil_iff.2 (by simpa using hxs),
    List.filter_eq_nil_iff.2 (by simpa [← h.mem_iff] using hxs)]

/-- What is found at each position agrees if it does for every pair of elements. -/
theorem flatMap_zipIdx {α : Type} {R : α → α → Prop} {vs ws : List α}
    {f : α × Nat → List Violation} (hf : ∀ v w i, R v w → Agree (f (v, i)) (f (w, i)))
    (h : List.Forall₂ R vs ws) (i : Nat) :
    Agree ((vs.zipIdx i).flatMap f) ((ws.zipIdx i).flatMap f) := by
  induction h generalizing i with
  | nil => exact refl _
  | cons hvw _ ih =>
    rw [List.zipIdx_cons, List.zipIdx_cons, List.flatMap_cons, List.flatMap_cons]
    exact (hf _ _ i hvw).append (ih (i + 1))

end Agree

/-! ## Keywords -/

section Keywords

variable {own : Keywords} {v w : Value} {ms ns : Entries String Value}

/-- A type is that of a whole class of equal values. -/
theorem accepts_of_same (h : v.same w = true) (t : JsonType) : t.accepts v = t.accepts w := by
  obtain ⟨rfl, rfl⟩ | ⟨b, rfl, rfl⟩ | ⟨m, n, rfl, rfl, hmn⟩ | ⟨s, rfl, rfl⟩ |
    ⟨vs, ws, rfl, rfl, -⟩ | ⟨ms, ns, rfl, rfl, -⟩ := Value.same_cases h
  case inr.inr.inl =>
    cases m <;> cases n <;> try contradiction
    case int => cases t <;> rfl
    case float x y =>
      have hvalue : x.value = y.value := Binary64.sameValue_iff.1 hmn
      cases t with
      | integer =>
        rw [Bool.eq_iff_iff, JsonType.accepts, JsonType.accepts, isIntegral_iff, isIntegral_iff,
          Binary64.exact, Binary64.exact, hvalue]
      | _ => rfl
  all_goals cases t <;> rfl

theorem typeBreach?_of_same (h : v.same w = true) : typeBreach? own v = typeBreach? own w := by
  have haccepts : ∀ types : TypeSet, types.accepts v = types.accepts w := fun types => by
    simp only [TypeSet.accepts, accepts_of_same h]
  simp only [typeBreach?, haccepts]

theorem constantBreach_of_alike (h : Alike v w) : constantBreach own v = constantBreach own w := by
  simp only [constantBreach, h.same_left]

theorem optionsBreach_of_alike (h : Alike v w) : optionsBreach own v = optionsBreach own w := by
  simp only [optionsBreach, h.same_right]

theorem minimumBreach_of_same {m n : Number} (h : m.same n = true) :
    minimumBreach own m = minimumBreach own n := by
  cases m <;> cases n <;> try contradiction
  case int i j =>
    obtain rfl : i = j := by simpa [Number.same] using h
    rfl
  case float x y =>
    have hvalue : x.value = y.value := Binary64.sameValue_iff.1 h
    have hexceeds : ∀ least : Bound, least.exceeds x = least.exceeds y := fun least => by
      cases least <;> simp only [Bound.exceeds, Binary64.isLess, hvalue]
    unfold minimumBreach
    cases own.minimum with
    | none => rfl
    | some least => simp only [Number.toBinary64, hexceeds]

theorem contains_of_alike (h : Alike (.object ms) (.object ns)) (key : String) :
    Entries.contains key ms = Entries.contains key ns := by
  rcases h.get? key with ⟨hms, hns⟩ | ⟨v, w, hms, hns, -⟩ <;> simp [Entries.contains, hms, hns]

theorem requiredBreaches_of_alike (h : Alike (.object ms) (.object ns)) :
    requiredBreaches own ms = requiredBreaches own ns := by
  simp only [requiredBreaches, contains_of_alike h]

theorem additionalKeys_perm (h : Alike (.object ms) (.object ns))
    (properties : List (String × Schema)) :
    (additionalKeys own properties ms).Perm (additionalKeys own properties ns) := by
  unfold additionalKeys
  split_ifs
  · exact h.keys.filter _
  · exact .refl _

theorem hasRepetition_of_alike {vs ws : List Value} (h : List.Forall₂ Alike vs ws) :
    hasRepetition vs = hasRepetition ws := by
  have hany : ∀ {v w}, Alike v w → ∀ {xs ys}, List.Forall₂ Alike xs ys →
      (xs.any fun x => x.same v) = ys.any fun y => y.same w := by
    intro v w hvw xs ys hxs
    induction hxs with
    | nil => rfl
    | cons hxy _ ih => rw [List.any_cons, List.any_cons, ih, hxy.same_left, hvw.same_right]
  induction h with
  | nil => rfl
  | cons hvw hvs ih => rw [hasRepetition, hasRepetition, hany hvw hvs, ih]

end Keywords

/-! ## Values -/

variable {patterns : Entries String Pattern}

mutual

/-- A schema finds the same in equal values. -/
theorem violationsAt_agree (path : List Step) {v w : Value} (h : Alike v w) (s : Schema) :
    Agree (violationsAt patterns path v s) (violationsAt patterns path w s) := by
  match s with
  | .mk own properties items anyOf =>
    simp only [violationsAt, typeBreach?_of_same h.same, constantBreach_of_alike h,
      optionsBreach_of_alike h, satisfiesOne_of_alike h anyOf]
    cases typeBreach? own w with
    | some breach => exact .refl _
    | none =>
      refine ((Agree.refl _).append ?_).append (.refl _)
      obtain ⟨rfl, rfl⟩ | ⟨b, rfl, rfl⟩ | ⟨m, n, rfl, rfl, hmn⟩ | ⟨s, rfl, rfl⟩ |
        ⟨vs, ws, rfl, rfl, -⟩ | ⟨ms, ns, rfl, rfl, -⟩ := Value.same_cases h.same
      case inr.inr.inl =>
        dsimp only
        rw [minimumBreach_of_same hmn]
        exact .refl _
      case inr.inr.inr.inr.inl =>
        dsimp only
        rw [uniqueBreach, uniqueBreach, hasRepetition_of_alike h.items]
        exact (itemViolations_agree path h.items items).append (.refl _)
      case inr.inr.inr.inr.inr =>
        dsimp only
        rw [requiredBreaches_of_alike h]
        refine ((Agree.refl _).append (memberViolations_agree path h properties)).append ?_
        refine .of_additional ((additionalKeys_perm h properties).map _) fun x hx => ?_
        obtain ⟨key, -, rfl⟩ := List.mem_map.1 hx
        rfl
      all_goals exact .refl _
  termination_by structural s

/-- The members with a sub-schema are visited in the order of the schema. -/
theorem memberViolations_agree (path : List Step) {ms ns : Entries String Value}
    (h : Alike (.object ms) (.object ns)) (properties : List (String × Schema)) :
    Agree (memberViolations patterns path ms properties)
      (memberViolations patterns path ns properties) := by
  match properties with
  | [] => exact .refl _
  | (key, s) :: properties =>
    rw [memberViolations, memberViolations]
    refine .append ?_ (memberViolations_agree path h properties)
    rcases h.get? key with ⟨hms, hns⟩ | ⟨v, w, hms, hns, hvw⟩
    · rw [hms, hns]
      exact .refl _
    · rw [hms, hns]
      exact violationsAt_agree (path ++ [.key key]) hvw s
  termination_by structural properties

theorem itemViolations_agree (path : List Step) {vs ws : List Value}
    (h : List.Forall₂ Alike vs ws) (items : Items) :
    Agree (itemViolations patterns path vs items) (itemViolations patterns path ws items) := by
  match items with
  | .free => exact .refl _
  | .each s =>
    exact .flatMap_zipIdx (fun _ _ i hvw => violationsAt_agree (path ++ [.index i]) hvw s) h 0
  | .tuple ss => exact tupleViolations_agree path 0 h ss
  termination_by structural items

theorem tupleViolations_agree (path : List Step) (i : Nat) {vs ws : List Value}
    (h : List.Forall₂ Alike vs ws) (ss : List Schema) :
    Agree (tupleViolations patterns path i vs ss) (tupleViolations patterns path i ws ss) := by
  match ss with
  | [] => exact .refl _
  | s :: ss =>
    cases h with
    | nil => exact .refl _
    | cons hvw hvs =>
      exact (violationsAt_agree (path ++ [.index i]) hvw s).append
        (tupleViolations_agree path (i + 1) hvs ss)
  termination_by structural ss

/-- The nested runs find nothing in equal values, or something in both of them. -/
theorem satisfiesOne_of_alike {v w : Value} (h : Alike v w) (ss : List Schema) :
    satisfiesOne patterns v ss = satisfiesOne patterns w ss := by
  match ss with
  | [] => rfl
  | s :: ss =>
    rw [satisfiesOne, satisfiesOne, (violationsAt_agree [] h s).isEmpty_eq,
      satisfiesOne_of_alike h ss]
  termination_by structural ss

end

/-! ## Validators -/

/-- A validator finds the same violations, equally often, in two values with distinct keys that are
equal up to the order of members; those that are not about additional keys come in the same
order. -/
theorem violations_agree (validator : Validator) {v w : Value} (hv : Tree.Distinct v)
    (hw : Tree.Distinct w) (h : v.same w = true) :
    (validator.violations v).Perm (validator.violations w) ∧
      (validator.violations v).filter (!·.isAdditional) =
        (validator.violations w).filter (!·.isAdditional) :=
  have hagree : Agree (validator.violations v) (validator.violations w) :=
    violationsAt_agree [] ⟨hv, hw, h⟩ validator.schema
  ⟨hagree.perm, hagree.others⟩

/-- Two keys that are not allowed, in both orders, beside a text that should be a number. -/
theorem violations_agree_swapped :
    let v := Value.object [("b", .null), ("n", .string "x"), ("a", .null)]
    let w := Value.object [("a", .null), ("b", .null), ("n", .string "x")]
    let validator : Validator := ⟨(any.property "n" (ofType .number)).closed, []⟩
    Tree.Distinct v ∧ Tree.Distinct w ∧ v.same w = true ∧
      (validator.violations v).Perm (validator.violations w) ∧
        (validator.violations v).filter (!·.isAdditional) =
          (validator.violations w).filter (!·.isAdditional) := by
  intro v w validator
  have hv : Tree.Distinct v := by simp [v, Tree.Distinct, Tree.MembersDistinct]
  have hw : Tree.Distinct w := by simp [w, Tree.Distinct, Tree.MembersDistinct]
  have hsame : v.same w = true := by decide +kernel
  exact ⟨hv, hw, hsame, violations_agree validator hv hw hsame⟩

end LsxKit.Schema
