import LsxKit.Proofs.Decimal.Rounding
import LsxKit.Proofs.Schema.Verdict

/-!
# What violations say

A violation names a path and a keyword. The path leads to a value, and through the sub-schemas of
members and elements to the schema that this value breaks.

* `nearestAtLeast_of_atLeast`: rounding takes no number below a least one.
* `Leads`: where a path leads from a schema.
* `Genuine`: a violation is about a value that is there and breaks what it is said to break.
* `genuine_violationsAt`: so is every violation at a path, from there on.
* `genuine_of_mem_violations`: so is every violation that a validator reports.
-/

namespace LsxKit

open Json Decimal

/-! ## Exact and rounded comparison -/

/-- The binary64 value nearest to an integer is not below any that the integer is not below. -/
theorem value_le_of_ofInt {least x : Binary64} {i : Int} (hx : Binary64.ofInt i = some x)
    (h : least.value ≤ i * unitsPerOne) : least.value ≤ x.value := by
  obtain ⟨negative, rank, hrank⟩ := x
  have hparts : negative = decide (i < 0) ∧ rank = nearestRank (i.natAbs * unitsPerOne) 1 := by
    unfold Binary64.ofInt Binary64.ofRatio Binary64.ofRank? at hx
    split_ifs at hx with hfinite
    obtain ⟨hnegative, hrank⟩ := Binary64.mk.inj (Option.some.inj hx)
    exact ⟨hnegative.symm, hrank.symm⟩
  obtain ⟨rfl, rfl⟩ := hparts
  unfold Binary64.value Binary64.magnitude at *
  by_cases hi : i < 0
  · have habs : i * unitsPerOne = -((i.natAbs * unitsPerOne : Nat) : ℤ) := by
      rw [Nat.cast_mul, Int.ofNat_natAbs_of_nonpos hi.le, neg_mul, neg_neg]
    rw [habs] at h
    have hpos : 0 < i.natAbs * unitsPerOne :=
      Nat.mul_pos (Int.natAbs_pos.2 hi.ne) unitsPerOne_pos
    by_cases hnegative : least.negative = true
    · -- both are negative: the larger magnitude is the smaller value
      rw [if_pos hnegative] at h
      rw [if_pos hnegative, if_pos (by simpa using hi), neg_le_neg_iff, Nat.cast_le]
      refine units_mono (nearestRank_le one_pos ?_)
      omega
    · rw [if_neg hnegative] at h
      omega
  · have habs : i * unitsPerOne = ((i.natAbs * unitsPerOne : Nat) : ℤ) := by
      rw [Nat.cast_mul, Int.natAbs_of_nonneg (not_lt.1 hi)]
    rw [habs] at h
    rw [if_neg (show ¬ decide (i < 0) = true by simpa using hi)]
    by_cases hnegative : least.negative = true
    · rw [if_pos hnegative]
      omega
    · rw [if_neg hnegative] at h ⊢
      refine Nat.cast_le.2 (units_mono (le_nearestRank one_pos ?_))
      omega

/-- A number that is not below a least one is not below it after rounding either. -/
theorem nearestAtLeast_of_atLeast {b : Bound} {n : Number} (h : AtLeast b n) :
    NearestAtLeast b n := by
  intro x hx
  cases n with
  | float y =>
    obtain rfl : y = x := by simpa [Number.toBinary64] using hx
    exact h
  | int i =>
    cases b with
    | infinite negative => exact h
    | nan => exact h
    | finite least =>
      have hle : least.exact ≤ i := h
      refine exact_le_exact_iff.2 (value_le_of_ofInt hx ?_)
      rw [Binary64.exact, div_le_iff₀ (Nat.cast_pos.2 unitsPerOne_pos)] at hle
      exact_mod_cast hle

namespace Schema

variable {limit limit' : Bound → Number → Prop}

theorem meets_mono (hlimit : ∀ b n, limit b n → limit' b n) {own : Keywords} {v : Value}
    (h : own.Meets limit v) : own.Meets limit' v := by
  obtain ⟨types, constant, options, kind⟩ := h
  refine ⟨types, constant, options, ?_⟩
  cases v with
  | number n => exact fun least hleast => hlimit _ _ (kind least hleast)
  | _ => exact kind

mutual

/-- A weaker reading of least numbers makes a weaker reading of schemas. -/
theorem satisfies_mono (hlimit : ∀ b n, limit b n → limit' b n) (s : Schema) (v : Value)
    (h : Satisfies limit s v) : Satisfies limit' s v := by
  match s with
  | .mk own properties items anyOf =>
    have hanyOf := satisfiesSome_mono hlimit anyOf v
    cases v with
    | object members =>
      obtain ⟨hown, ⟨hmembers, hclosed⟩, hsome⟩ := h
      exact ⟨meets_mono hlimit hown,
        ⟨membersSatisfy_mono hlimit properties members hmembers, hclosed⟩,
        fun hne => hanyOf (hsome hne)⟩
    | array elements =>
      obtain ⟨hown, helements, hsome⟩ := h
      exact ⟨meets_mono hlimit hown, elementsSatisfy_mono hlimit items elements helements,
        fun hne => hanyOf (hsome hne)⟩
    | _ =>
      obtain ⟨hown, hfree, hsome⟩ := h
      exact ⟨meets_mono hlimit hown, hfree, fun hne => hanyOf (hsome hne)⟩
  termination_by structural s

/-- So do members. -/
theorem membersSatisfy_mono (hlimit : ∀ b n, limit b n → limit' b n)
    (properties : List (String × Schema)) (members : Entries String Value)
    (h : MembersSatisfy limit properties members) : MembersSatisfy limit' properties members := by
  match properties with
  | [] => trivial
  | (key, s) :: properties =>
    exact ⟨fun v hv => satisfies_mono hlimit s v (h.1 v hv),
      membersSatisfy_mono hlimit properties members h.2⟩
  termination_by structural properties

/-- So do elements. -/
theorem elementsSatisfy_mono (hlimit : ∀ b n, limit b n → limit' b n) (items : Items)
    (elements : List Value) (h : ElementsSatisfy limit items elements) :
    ElementsSatisfy limit' items elements := by
  match items with
  | .free => trivial
  | .each s => exact fun v hv => satisfies_mono hlimit s v (h v hv)
  | .tuple ss => exact tupleSatisfies_mono hlimit ss elements h
  termination_by structural items

/-- So do elements with a schema each. -/
theorem tupleSatisfies_mono (hlimit : ∀ b n, limit b n → limit' b n) (ss : List Schema)
    (elements : List Value) (h : TupleSatisfies limit ss elements) :
    TupleSatisfies limit' ss elements := by
  match ss with
  | [] => trivial
  | s :: ss =>
    cases elements with
    | nil => trivial
    | cons v vs => exact ⟨satisfies_mono hlimit s v h.1, tupleSatisfies_mono hlimit ss vs h.2⟩
  termination_by structural ss

/-- So do alternatives. -/
theorem satisfiesSome_mono (hlimit : ∀ b n, limit b n → limit' b n) (ss : List Schema) (v : Value)
    (h : SatisfiesSome limit ss v) : SatisfiesSome limit' ss v := by
  match ss with
  | [] => exact h
  | s :: ss =>
    exact h.imp (satisfies_mono hlimit s v) (satisfiesSome_mono hlimit ss v)
  termination_by structural ss

end

/-! ## Where a path leads -/

/-- The sub-schema for what is one step inside a value. -/
inductive Sub : Schema → Step → Schema → Prop where
  | member {s sub : Schema} {key : String} (h : (key, sub) ∈ s.properties) : Sub s (.key key) sub
  | each {s sub : Schema} {i : Nat} (h : s.items = .each sub) : Sub s (.index i) sub
  | place {s sub : Schema} {subs : List Schema} {i : Nat} (h : s.items = .tuple subs)
    (hi : subs[i]? = some sub) : Sub s (.index i) sub

/-- The schema to which a path leads, through the sub-schemas of members and elements. -/
inductive Leads : Schema → List Step → Schema → Prop where
  | here (s : Schema) : Leads s [] s
  | step {s sub t : Schema} {step : Step} {path : List Step} (h : Sub s step sub)
    (hrest : Leads sub path t) : Leads s (step :: path) t

/-! ## Genuine violations -/

/-- Whether a value breaks a schema in the way that a breach says. An additional key is a breach
of the object around it, and no breach of a value by itself. -/
def Breaks (s : Schema) (v : Value) : Breach → Prop
  | .type ts => s.own.types = some ts ∧ ∀ t ∈ ts.types, ¬ t.Holds v
  | .constant w => s.own.constant = some w ∧ v.same w = false
  | .options ws => s.own.options = some ws ∧ ∀ w ∈ ws, w.same v = false
  | .pattern source =>
    s.own.pattern = some source ∧ ∃ text, v = .string text ∧ ¬ Matches source text
  | .minimum least => s.own.minimum = some least ∧ ∃ n, v = .number n ∧ ¬ AtLeast least n
  | .required key =>
    key ∈ s.own.required ∧ ∃ members, v = .object members ∧ key ∉ Entries.keys members
  | .additional _ => False
  | .repeated =>
    s.own.unique = some true ∧
      ∃ elements, v = .array elements ∧ ¬ elements.Pairwise fun v w => w.same v = false
  | .noneOf count => s.anyOf ≠ [] ∧ count = s.anyOf.length ∧ ¬ SatisfiesSome AtLeast s.anyOf v

/-- A violation that is about a value inside, and about what this value breaks. -/
inductive Genuine (s : Schema) (v : Value) : Violation → Prop where
  /-- The path leads to the value that breaks the schema there. -/
  | broken {path : List Step} {t : Schema} {w : Value} {breach : Breach}
    (hschema : Leads s path t) (hvalue : v.at? path = some w) (h : Breaks t w breach) :
    Genuine s v ⟨path, breach⟩
  /-- The path leads to a member of an object that may not have it. -/
  | stray {path : List Step} {t : Schema} {members : Entries String Value} {key : String}
    (hschema : Leads s path t) (hvalue : v.at? path = some (.object members))
    (hkey : key ∈ Entries.keys members) (hclosed : t.own.additional = some false)
    (hfree : key ∉ t.properties.map Prod.fst) :
    Genuine s v ⟨path ++ [.key key], .additional key⟩

/-- A violation one step inside, seen from outside. -/
theorem genuine_step {s sub : Schema} {v w : Value} {step : Step} {rest : List Step}
    {breach : Breach} (hsub : Sub s step sub) (hchild : v.child? step = some w)
    (h : Genuine sub w ⟨rest, breach⟩) : Genuine s v ⟨step :: rest, breach⟩ := by
  generalize he : (⟨rest, breach⟩ : Violation) = e at h
  cases h with
  | @broken _ t u _ hschema hvalue h =>
    obtain ⟨rfl, rfl⟩ := Violation.mk.inj he
    have hvalue' : v.at? (step :: rest) = some u := by
      rw [Value.at?_cons, hchild]
      exact hvalue
    exact .broken (.step hsub hschema) hvalue' h
  | @stray path t members key hschema hvalue hkey hclosed hfree =>
    obtain ⟨rfl, rfl⟩ := Violation.mk.inj he
    have hvalue' : v.at? (step :: path) = some (.object members) := by
      rw [Value.at?_cons, hchild]
      exact hvalue
    exact .stray (.step hsub hschema) hvalue' hkey hclosed hfree

/-- The path of a genuine violation leads to a value. -/
theorem at?_of_genuine {s : Schema} {v : Value} {e : Violation} (h : Genuine s v e) :
    ∃ w, v.at? e.path = some w := by
  cases h with
  | @broken path t w breach _ hvalue _ => exact ⟨w, hvalue⟩
  | @stray path t members key _ hvalue hkey _ _ =>
    have hget : Entries.get? key members ≠ none := by
      rw [ne_eq, Entries.get?_eq_none_iff, not_not]
      exact hkey
    obtain ⟨w, hw⟩ := Option.ne_none_iff_exists'.1 hget
    exact ⟨w, by simp [Value.at?_append, hvalue, Value.child?, hw]⟩

/-! ## Keywords -/

section Keywords

variable {own : Keywords} {properties : List (String × Schema)} {items : Items}
  {anyOf : List Schema} {v : Value} {breach : Breach} {patterns : Entries String Pattern}

theorem breaks_of_typeBreach? (h : typeBreach? own v = some breach) :
    Breaks (.mk own properties items anyOf) v breach := by
  unfold typeBreach? at h
  cases htypes : own.types with
  | none => simp [htypes] at h
  | some ts =>
    rw [htypes] at h
    dsimp only at h
    split_ifs at h with haccepts
    obtain rfl := Option.some.inj h
    refine ⟨htypes, fun t ht hholds => haccepts ?_⟩
    exact List.any_eq_true.2 ⟨t, ht, JsonType.accepts_iff.2 hholds⟩

theorem breaks_of_mem_constantBreach (h : breach ∈ constantBreach own v) :
    Breaks (.mk own properties items anyOf) v breach := by
  unfold constantBreach at h
  cases hconstant : own.constant with
  | none => simp [hconstant] at h
  | some w =>
    simp only [hconstant, List.mem_ite_nil_left, List.mem_singleton] at h
    obtain ⟨hsame, rfl⟩ := h
    exact ⟨hconstant, Bool.eq_false_iff.2 hsame⟩

theorem breaks_of_mem_optionsBreach (h : breach ∈ optionsBreach own v) :
    Breaks (.mk own properties items anyOf) v breach := by
  unfold optionsBreach at h
  cases hoptions : own.options with
  | none => simp [hoptions] at h
  | some ws =>
    simp only [hoptions, List.mem_ite_nil_left, List.mem_singleton] at h
    obtain ⟨hany, rfl⟩ := h
    exact ⟨hoptions, by simpa using hany⟩

theorem breaks_of_mem_patternBreach
    (hknown : ∀ source, own.pattern = some source → Known patterns source) {text : String}
    (h : breach ∈ patternBreach patterns own text) :
    Breaks (.mk own properties items anyOf) (.string text) breach := by
  have hnot := mt (patternBreach_eq_nil_iff hknown).2 (List.ne_nil_of_mem h)
  unfold patternBreach at h
  cases hpattern : own.pattern with
  | none => simp [hpattern] at h
  | some source =>
    obtain ⟨p, hread, hget⟩ := hknown source hpattern
    simp only [hpattern, hget, List.mem_ite_nil_left, List.mem_singleton] at h
    obtain ⟨-, rfl⟩ := h
    simp only [hpattern, Option.some.injEq, forall_eq'] at hnot
    exact ⟨hpattern, text, rfl, hnot⟩

theorem breaks_of_mem_minimumBreach {n : Number} (h : breach ∈ minimumBreach own n) :
    Breaks (.mk own properties items anyOf) (.number n) breach := by
  have hnot := mt minimumBreach_eq_nil_iff.2 (List.ne_nil_of_mem h)
  unfold minimumBreach at h
  cases hminimum : own.minimum with
  | none => simp [hminimum] at h
  | some least =>
    have heq : breach = .minimum least := by
      cases hx : n.toBinary64 with
      | none => simp [hminimum, hx] at h
      | some x =>
        simp only [hminimum, hx, List.mem_ite_nil_right, List.mem_singleton] at h
        exact h.2
    simp only [hminimum, Option.some.injEq, forall_eq'] at hnot
    exact heq ▸ ⟨hminimum, n, rfl, mt nearestAtLeast_of_atLeast hnot⟩

theorem breaks_of_mem_requiredBreaches {members : Entries String Value}
    (h : breach ∈ requiredBreaches own members) :
    Breaks (.mk own properties items anyOf) (.object members) breach := by
  obtain ⟨key, hkey, rfl⟩ := List.mem_map.1 h
  obtain ⟨hrequired, hmissing⟩ := List.mem_filter.1 hkey
  refine ⟨hrequired, members, rfl, (Entries.get?_eq_none_iff key members).1 ?_⟩
  simpa [Entries.contains] using hmissing

theorem breaks_of_mem_uniqueBreach {elements : List Value}
    (h : breach ∈ uniqueBreach own elements) :
    Breaks (.mk own properties items anyOf) (.array elements) breach := by
  obtain ⟨hunique, hnot⟩ :=
    Classical.not_imp.1 (mt uniqueBreach_eq_nil_iff.2 (List.ne_nil_of_mem h))
  simp only [uniqueBreach, List.mem_ite_nil_right, List.mem_singleton] at h
  obtain ⟨-, rfl⟩ := h
  exact ⟨hunique, elements, rfl, hnot⟩

theorem breaks_of_unsatisfied (hknown : AllKnown patterns (nodesOfList anyOf)) (hne : anyOf ≠ [])
    (h : satisfiesOne patterns v anyOf = false) :
    Breaks (.mk own properties items anyOf) v (.noneOf anyOf.length) := by
  refine ⟨hne, rfl, fun hsome => ?_⟩
  have hone := (satisfiesOne_iff v anyOf hknown).2
    (satisfiesSome_mono (fun _ _ => nearestAtLeast_of_atLeast) anyOf v hsome)
  exact Bool.eq_false_iff.1 h hone

theorem mem_additionalKeys {members : Entries String Value} {key : String} :
    key ∈ additionalKeys own properties members ↔ own.additional = some false ∧
      key ∈ Entries.keys members ∧ key ∉ properties.map Prod.fst := by
  have hfree : (!properties.any fun p => p.1 = key) = true ↔ key ∉ properties.map Prod.fst := by
    rw [Bool.not_eq_true', ← Bool.not_eq_true, List.any_eq_true, List.mem_map]
    simp only [decide_eq_true_eq]
  unfold additionalKeys
  split_ifs with h
  · rw [List.mem_filter, hfree, and_iff_right h]
  · simp [h]

end Keywords

/-! ## Values -/

variable {patterns : Entries String Pattern}

/-- Whether a violation is about what is inside a value at a path, and genuine from there on. -/
def GenuineFrom (path : List Step) (s : Schema) (v : Value) (e : Violation) : Prop :=
  ∃ rest, e.path = path ++ rest ∧ Genuine s v ⟨rest, e.breach⟩

theorem genuineFrom_here {path : List Step} {s : Schema} {v : Value} {breach : Breach}
    (h : Breaks s v breach) : GenuineFrom path s v ⟨path, breach⟩ :=
  ⟨[], (List.append_nil path).symm, .broken (.here s) rfl h⟩

theorem genuineFrom_step {path : List Step} {s sub : Schema} {v w : Value} {step : Step}
    {e : Violation} (hsub : Sub s step sub) (hchild : v.child? step = some w)
    (h : GenuineFrom (path ++ [step]) sub w e) : GenuineFrom path s v e := by
  obtain ⟨rest, hpath, hgenuine⟩ := h
  exact ⟨step :: rest, by rw [hpath, List.append_assoc]; rfl, genuine_step hsub hchild hgenuine⟩

mutual

/-- Every violation of a value at a path is genuine from there on. -/
theorem genuine_violationsAt (path : List Step) (v : Value) (s : Schema)
    (hknown : AllKnown patterns s.nodes) {e : Violation}
    (he : e ∈ violationsAt patterns path v s) : GenuineFrom path s v e := by
  match s with
  | .mk own properties items anyOf =>
    obtain ⟨hpattern, hnested⟩ := List.forall_mem_cons.1 hknown
    rw [← AllKnown, allKnown_append, allKnown_append] at hnested
    obtain ⟨⟨hproperties, hitems⟩, hanyOf⟩ := hnested
    cases htype : typeBreach? own v with
    | some breach =>
      simp only [violationsAt, htype, List.mem_singleton] at he
      subst he
      exact genuineFrom_here (breaks_of_typeBreach? htype)
    | none =>
      have hlisted : ∀ breaches : List Breach, (∀ breach ∈ breaches,
          Breaks (.mk own properties items anyOf) v breach) →
          ∀ e ∈ breaches.map (⟨path, ·⟩ : Breach → Violation),
            GenuineFrom path (.mk own properties items anyOf) v e := by
        intro breaches hbreaks e he
        obtain ⟨breach, hbreach, rfl⟩ := List.mem_map.1 he
        exact genuineFrom_here (hbreaks breach hbreach)
      have hhere := hlisted (constantBreach own v ++ optionsBreach own v) fun breach hbreach =>
        (List.mem_append.1 hbreach).elim breaks_of_mem_constantBreach breaks_of_mem_optionsBreach
      have halternatives : e ∈ (if anyOf.isEmpty || satisfiesOne patterns v anyOf then []
          else [(⟨path, .noneOf anyOf.length⟩ : Violation)]) →
            GenuineFrom path (.mk own properties items anyOf) v e := by
        simp only [List.mem_ite_nil_left, List.mem_singleton, Bool.or_eq_true, not_or,
          List.isEmpty_iff, Bool.not_eq_true]
        rintro ⟨⟨hne, hone⟩, rfl⟩
        exact genuineFrom_here (breaks_of_unsatisfied hanyOf hne hone)
      cases v with
      | string text =>
        simp only [violationsAt, htype, List.mem_append] at he
        obtain (he | he) | he := he
        · exact hhere e he
        · exact hlisted _ (fun _ => breaks_of_mem_patternBreach hpattern) e he
        · exact halternatives he
      | number n =>
        simp only [violationsAt, htype, List.mem_append] at he
        obtain (he | he) | he := he
        · exact hhere e he
        · exact hlisted _ (fun _ => breaks_of_mem_minimumBreach) e he
        · exact halternatives he
      | object members =>
        simp only [violationsAt, htype, List.mem_append] at he
        obtain (he | (he | he) | he) | he := he
        · exact hhere e he
        · exact hlisted _ (fun _ => breaks_of_mem_requiredBreaches) e he
        · obtain ⟨key, sub, w, hmem, hget, hw⟩ :=
            genuine_memberViolations path members properties hproperties he
          exact genuineFrom_step (.member hmem) hget hw
        · obtain ⟨key, hkey, rfl⟩ := List.mem_map.1 he
          obtain ⟨hclosed, hpresent, hfree⟩ := mem_additionalKeys.1 hkey
          have hstray : Genuine (.mk own properties items anyOf) (.object members)
              ⟨[] ++ [.key key], .additional key⟩ := .stray (.here _) rfl hpresent hclosed hfree
          exact ⟨[.key key], rfl, hstray⟩
        · exact halternatives he
      | array elements =>
        simp only [violationsAt, htype, List.mem_append] at he
        obtain (he | he | he) | he := he
        · exact hhere e he
        · obtain ⟨i, sub, w, hsub, hget, hw⟩ :=
            genuine_itemViolations path elements items hitems he
          exact genuineFrom_step (hsub own properties anyOf) hget hw
        · exact hlisted _ (fun _ => breaks_of_mem_uniqueBreach) e he
        · exact halternatives he
      | bool b =>
        simp only [violationsAt, htype, List.mem_append, List.append_nil] at he
        exact he.elim (hhere e) halternatives
      | null =>
        simp only [violationsAt, htype, List.mem_append, List.append_nil] at he
        exact he.elim (hhere e) halternatives
  termination_by structural s

/-- So is every violation of a member, from the member on. -/
theorem genuine_memberViolations (path : List Step) (members : Entries String Value)
    (properties : List (String × Schema)) (hknown : AllKnown patterns (nodesOfMembers properties))
    {e : Violation} (he : e ∈ memberViolations patterns path members properties) :
    ∃ key sub w, (key, sub) ∈ properties ∧ Entries.get? key members = some w ∧
      GenuineFrom (path ++ [.key key]) sub w e := by
  match properties with
  | [] => simp [memberViolations] at he
  | (key, s) :: properties =>
    obtain ⟨hs, hproperties⟩ := allKnown_append.1 hknown
    rw [memberViolations, List.mem_append] at he
    rcases he with he | he
    · cases hget : Entries.get? key members with
      | none => simp [hget] at he
      | some w =>
        rw [hget] at he
        exact ⟨key, s, w, List.mem_cons_self, hget, genuine_violationsAt _ w s hs he⟩
    · obtain ⟨key, sub, w, hmem, h⟩ :=
        genuine_memberViolations path members properties hproperties he
      exact ⟨key, sub, w, List.mem_cons_of_mem _ hmem, h⟩
  termination_by structural properties

/-- So is every violation of an element, from the element on. -/
theorem genuine_itemViolations (path : List Step) (elements : List Value) (items : Items)
    (hknown : AllKnown patterns (nodesOfItems items)) {e : Violation}
    (he : e ∈ itemViolations patterns path elements items) :
    ∃ (i : Nat) (sub : Schema) (w : Value),
      (∀ own properties anyOf, Sub (.mk own properties items anyOf) (.index i) sub) ∧
      elements[i]? = some w ∧ GenuineFrom (path ++ [.index i]) sub w e := by
  match items with
  | .free => simp [itemViolations] at he
  | .each s =>
    rw [itemViolations, List.mem_flatMap] at he
    obtain ⟨⟨w, i⟩, hw, he⟩ := he
    exact ⟨i, s, w, fun _ _ _ => .each rfl, List.mk_mem_zipIdx_iff_getElem?.1 hw,
      genuine_violationsAt _ w s hknown he⟩
  | .tuple ss =>
    obtain ⟨j, sub, w, hsub, hget, hw⟩ := genuine_tupleViolations path 0 elements ss hknown he
    rw [Nat.zero_add] at hw
    exact ⟨j, sub, w, fun _ _ _ => .place rfl hsub, hget, hw⟩
  termination_by structural items

/-- So is every violation of an element with a schema of its own. -/
theorem genuine_tupleViolations (path : List Step) (i : Nat) (elements : List Value)
    (ss : List Schema) (hknown : AllKnown patterns (nodesOfList ss)) {e : Violation}
    (he : e ∈ tupleViolations patterns path i elements ss) :
    ∃ (j : Nat) (sub : Schema) (w : Value), ss[j]? = some sub ∧ elements[j]? = some w ∧
      GenuineFrom (path ++ [.index (i + j)]) sub w e := by
  match ss with
  | [] => simp [tupleViolations] at he
  | s :: ss =>
    obtain ⟨hs, hss⟩ := allKnown_append.1 hknown
    cases elements with
    | nil => simp [tupleViolations] at he
    | cons v vs =>
      rw [tupleViolations, List.mem_append] at he
      rcases he with he | he
      · exact ⟨0, s, v, rfl, rfl, genuine_violationsAt _ v s hs he⟩
      · obtain ⟨j, sub, w, hsub, hget, hw⟩ := genuine_tupleViolations path (i + 1) vs ss hss he
        rw [Nat.add_right_comm] at hw
        exact ⟨j + 1, sub, w, hsub, hget, hw⟩
  termination_by structural ss

end

/-! ## Validators -/

/-- Every violation that a validator reports is about a value that is there, and this value breaks
the schema to which the same path leads in the way that the violation says, numbers being compared
with a least one exactly. -/
theorem genuine_of_mem_violations {s : Schema} {validator : Validator}
    (h : Validator.ofSchema s = .ok validator) (v : Value) {e : Violation}
    (he : e ∈ validator.violations v) : (∃ w, v.at? e.path = some w) ∧ Genuine s v e := by
  obtain ⟨rfl, hknown⟩ := allKnown_of_ofSchema h
  obtain ⟨rest, hpath, hgenuine⟩ := genuine_violationsAt [] v _ hknown he
  have heq : e = ⟨rest, e.breach⟩ := by rw [← List.nil_append rest, ← hpath]
  rw [← heq] at hgenuine
  exact ⟨at?_of_genuine hgenuine, hgenuine⟩

/-- An array of least numbers inside a closed object: the second element is too small. -/
theorem genuine_of_mem_violations_minimum :
    ∃ validator e, Validator.ofSchema ((any.property "a" ((ofType .array).withItems
        (.each ((ofType .integer).minimum default)))).closed) = .ok validator ∧
      e ∈ validator.violations (.object [("a", .array [.number (.int 7), .number (.int (-3))])]) ∧
      e.path = [.key "a", .index 1] ∧
      Genuine ((any.property "a" ((ofType .array).withItems
        (.each ((ofType .integer).minimum default)))).closed)
          (.object [("a", .array [.number (.int 7), .number (.int (-3))])]) e := by
  have hchecked : (Validator.ofSchema ((any.property "a" ((ofType .array).withItems
      (.each ((ofType .integer).minimum default)))).closed)).toOption.map
        (fun validator : Validator => (validator.violations
          (.object [("a", .array [.number (.int 7), .number (.int (-3))])])).map (·.path)) =
      some [[.key "a", .index 1]] := by decide +kernel
  obtain ⟨validator, hok, hpaths⟩ := Option.map_eq_some_iff.1 hchecked
  obtain ⟨e, he, hpath⟩ : ∃ e ∈ validator.violations
      (.object [("a", .array [.number (.int 7), .number (.int (-3))])]),
        e.path = [.key "a", .index 1] := by
    rw [← List.mem_map, hpaths]
    exact List.mem_singleton_self _
  have hvalidator := ok_of_toOption hok
  exact ⟨validator, e, hvalidator, he, hpath, (genuine_of_mem_violations hvalidator _ he).2⟩

end Schema

end LsxKit
