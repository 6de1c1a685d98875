import LsxKit.Proofs.Entries
import LsxKit.Proofs.Outcome
import LsxKit.Proofs.Schema.Satisfies

/-!
# What validation decides

* `readPatterns_ok`: the patterns that a validator has read.
* `constantBreach_eq_nil_iff` and its like: when a keyword is not broken.
* `violationsAt_eq_nil_iff`: a value has no violation exactly if it satisfies the schema.
* `violations_eq_nil_iff`: so does a validator decide, and no pattern on the way was left unread.
-/

namespace LsxKit.Schema

open Json Decimal

/-! ## Patterns -/

/-- Whether a pattern has been read. -/
def Known (patterns : Entries String Pattern) (source : String) : Prop :=
  ∃ p, Pattern.read? source = some p ∧ Entries.get? source patterns = some p

/-- Patterns that were read stay so, and the new ones are read. -/
theorem readPatterns_ok {known patterns : Entries String Pattern} {sources : List String}
    (h : readPatterns known sources = .ok patterns) :
    (∀ source, Known known source → Known patterns source) ∧
      ((∀ source, source ∈ Entries.keys known → Known known source) →
        ∀ source ∈ sources, Known patterns source) := by
  induction sources generalizing known with
  | nil =>
    obtain rfl : known = patterns := by simpa [readPatterns] using h
    exact ⟨fun _ hsource => hsource, by simp⟩
  | cons source sources ih =>
    rw [readPatterns] at h
    by_cases hcontains : Entries.contains source known = true
    · rw [if_pos hcontains] at h
      obtain ⟨hkeep, hnew⟩ := ih h
      refine ⟨hkeep, fun hknown => List.forall_mem_cons.2 ⟨?_, hnew hknown⟩⟩
      refine hkeep source (hknown source ?_)
      by_contra hnot
      rw [Entries.contains, (Entries.get?_eq_none_iff source known).2 hnot] at hcontains
      contradiction
    · rw [if_neg hcontains] at h
      cases hread : (Pattern.read? source).filter Pattern.fits with
      | none =>
        rw [hread] at h
        contradiction
      | some p =>
        rw [hread] at h
        obtain ⟨hkeep, hnew⟩ := ih h
        have hsource : Known (Entries.insert source p known) source := by
          refine ⟨p, (Option.filter_eq_some_iff.1 hread).1, ?_⟩
          rw [Entries.get?_insert, if_pos rfl]
        have hinsert : ∀ other, Known known other →
            Known (Entries.insert source p known) other := by
          rintro other ⟨q, hq, hget⟩
          by_cases he : source = other
          · exact he ▸ hsource
          · exact ⟨q, hq, by rw [Entries.get?_insert, if_neg he, hget]⟩
        refine ⟨fun other hother => hkeep other (hinsert other hother), fun hknown => ?_⟩
        refine List.forall_mem_cons.2 ⟨hkeep source hsource, hnew fun other hother => ?_⟩
        rcases Entries.mem_keys_insert.1 hother with rfl | hother
        · exact hsource
        · exact hinsert other (hknown other hother)

/-! ## Keywords -/

variable {own : Keywords} {v : Value} {patterns : Entries String Pattern}

theorem typeBreach?_eq_none_iff :
    typeBreach? own v = none ↔ ∀ ts, own.types = some ts → ∃ t ∈ ts.types, t.Holds v := by
  unfold typeBreach?
  cases own.types with
  | none => simp
  | some ts =>
    have hany : ts.accepts v = true ↔ ∃ t ∈ ts.types, t.Holds v := by
      simp [TypeSet.accepts, JsonType.accepts_iff]
    simp only [Option.some.injEq, forall_eq', ← hany]
    split_ifs with h <;> simp [h]

theorem constantBreach_eq_nil_iff :
    constantBreach own v = [] ↔ ∀ w, own.constant = some w → v.same w = true := by
  unfold constantBreach
  cases own.constant <;> simp

theorem optionsBreach_eq_nil_iff :
    optionsBreach own v = [] ↔ ∀ ws, own.options = some ws → ∃ w ∈ ws, w.same v = true := by
  unfold optionsBreach
  cases own.options <;> simp

/-- A pattern that was read is checked. -/
theorem patternBreach_eq_nil_iff (hknown : ∀ source, own.pattern = some source →
    Known patterns source) {s : String} :
    patternBreach patterns own s = [] ↔ ∀ source, own.pattern = some source → Matches source s := by
  unfold patternBreach
  cases hpattern : own.pattern with
  | none => simp
  | some source =>
    obtain ⟨p, hread, hget⟩ := hknown source hpattern
    simp [hget, Matches, hread]

theorem exceeds_eq_false_iff {b : Bound} {x : Binary64} :
    b.exceeds x = false ↔ b.Admits x.exact := by
  cases b with
  | finite least =>
    rw [Bound.exceeds, Bound.Admits, exact_le_exact_iff, ← Bool.not_eq_true, Binary64.isLess_iff,
      Int.not_lt]
  | infinite negative => simp [Bound.exceeds, Bound.Admits]
  | nan => simp [Bound.exceeds, Bound.Admits]

theorem minimumBreach_eq_nil_iff {n : Number} :
    minimumBreach own n = [] ↔ ∀ least, own.minimum = some least → NearestAtLeast least n := by
  unfold minimumBreach NearestAtLeast
  cases own.minimum with
  | none => simp
  | some least =>
    cases n.toBinary64 with
    | none => simp
    | some x => simp [← exceeds_eq_false_iff]

theorem requiredBreaches_eq_nil_iff {members : Entries String Value} :
    requiredBreaches own members = [] ↔ ∀ key ∈ own.required, key ∈ Entries.keys members := by
  have hcontains : ∀ key, Entries.contains key members = true ↔ key ∈ Entries.keys members := by
    intro key
    rw [Entries.contains, Option.isSome_iff_ne_none, ne_eq, Entries.get?_eq_none_iff, not_not]
  simp [requiredBreaches, hcontains]

theorem additionalKeys_eq_nil_iff {properties : List (String × Schema)}
    {members : Entries String Value} :
    additionalKeys own properties members = [] ↔ (own.additional = some false →
      ∀ key ∈ Entries.keys members, key ∈ properties.map Prod.fst) := by
  unfold additionalKeys
  split_ifs with h
  · simp [h]
  · simp [h]

theorem hasRepetition_eq_false_iff {elements : List Value} :
    hasRepetition elements = false ↔ elements.Pairwise fun v w => w.same v = false := by
  induction elements with
  | nil => simp [hasRepetition]
  | cons v vs ih => simp [hasRepetition, ih]

theorem uniqueBreach_eq_nil_iff {elements : List Value} :
    uniqueBreach own elements = [] ↔ (own.unique = some true →
      elements.Pairwise fun v w => w.same v = false) := by
  rw [← hasRepetition_eq_false_iff, uniqueBreach]
  split_ifs with h
  · simp_all
  · simp_all

/-! ## Values -/

/-- Whether all patterns of some schemas were read. -/
def AllKnown (patterns : Entries String Pattern) (ss : List Schema) : Prop :=
  ∀ s ∈ ss, ∀ source, s.own.pattern = some source → Known patterns source

theorem allKnown_append {ss ss' : List Schema} :
    AllKnown patterns (ss ++ ss') ↔ AllKnown patterns ss ∧ AllKnown patterns ss' :=
  List.forall_mem_append

theorem meets_iff {limit : Bound → Number → Prop} :
    own.Meets limit v ↔ (∀ ts, own.types = some ts → ∃ t ∈ ts.types, t.Holds v) ∧
      ((∀ w, own.constant = some w → v.same w = true) ∧
        ∀ ws, own.options = some ws → ∃ w ∈ ws, w.same v = true) ∧ own.MeetsKind limit v := by
  constructor
  · rintro ⟨types, constant, options, kind⟩
    exact ⟨types, ⟨constant, options⟩, kind⟩
  · rintro ⟨types, ⟨constant, options⟩, kind⟩
    exact ⟨types, constant, options, kind⟩

mutual

/-- A value has no violation exactly if it satisfies the schema. -/
theorem violationsAt_eq_nil_iff (path : List Step) (v : Value) (s : Schema)
    (h : AllKnown patterns s.nodes) :
    violationsAt patterns path v s = [] ↔ Satisfies NearestAtLeast s v := by
  match s with
  | .mk own properties items anyOf =>
    obtain ⟨hpatterns, hnested⟩ := List.forall_mem_cons.1 h
    rw [← AllKnown, allKnown_append, allKnown_append] at hnested
    obtain ⟨⟨hproperties, hitems⟩, hanyOf⟩ := hnested
    have hown : ∀ source, own.pattern = some source → Known patterns source := hpatterns
    have halternatives : (if anyOf.isEmpty || satisfiesOne patterns v anyOf then []
        else [(⟨path, .noneOf anyOf.length⟩ : Violation)]) = [] ↔
          (anyOf ≠ [] → SatisfiesSome NearestAtLeast anyOf v) := by
      rw [← satisfiesOne_iff v anyOf hanyOf]
      by_cases hnil : anyOf = [] <;> simp [hnil]
    cases htype : typeBreach? own v with
    | some breach =>
      have hnot : ¬ ∀ ts, own.types = some ts → ∃ t ∈ ts.types, t.Holds v := by
        rw [← typeBreach?_eq_none_iff, htype]
        simp
      simp only [violationsAt, htype]
      exact iff_of_false (by simp) fun hsatisfies => hnot (meets_of_satisfies hsatisfies).types
    | none =>
      have htypes := typeBreach?_eq_none_iff.1 htype
      cases v <;> simp only [violationsAt, htype, List.append_eq_nil_iff, List.map_eq_nil_iff,
        constantBreach_eq_nil_iff, optionsBreach_eq_nil_iff, halternatives, Satisfies, meets_iff,
        Keywords.MeetsKind]
      case string s =>
        rw [patternBreach_eq_nil_iff hown]
        tauto
      case number n =>
        rw [minimumBreach_eq_nil_iff]
        tauto
      case object members =>
        rw [requiredBreaches_eq_nil_iff, additionalKeys_eq_nil_iff,
          memberViolations_eq_nil_iff path members properties hproperties]
        tauto
      case array elements =>
        rw [uniqueBreach_eq_nil_iff, itemViolations_eq_nil_iff path elements items hitems]
        tauto
      all_goals tauto
  termination_by structural s

/-- So do the members with a sub-schema. -/
theorem memberViolations_eq_nil_iff (path : List Step) (members : Entries String Value)
    (properties : List (String × Schema)) (h : AllKnown patterns (nodesOfMembers properties)) :
    memberViolations patterns path members properties = [] ↔
      MembersSatisfy NearestAtLeast properties members := by
  match properties with
  | [] => simp [memberViolations, MembersSatisfy]
  | (key, s) :: properties =>
    obtain ⟨hs, hproperties⟩ := allKnown_append.1 h
    rw [memberViolations, MembersSatisfy, List.append_eq_nil_iff,
      memberViolations_eq_nil_iff path members properties hproperties]
    refine and_congr_left fun _ => ?_
    cases Entries.get? key members with
    | none => simp
    | some v => simpa using violationsAt_eq_nil_iff (path ++ [.key key]) v s hs
  termination_by structural properties

/-- So do elements. -/
theorem itemViolations_eq_nil_iff (path : List Step) (elements : List Value) (items : Items)
    (h : AllKnown patterns (nodesOfItems items)) :
    itemViolations patterns path elements items = [] ↔
      ElementsSatisfy NearestAtLeast items elements := by
  match items with
  | .free => simp [itemViolations, ElementsSatisfy]
  | .each s =>
    have heach := fun (i : Nat) (v : Value) =>
      violationsAt_eq_nil_iff (path ++ [Step.index i]) v s h
    rw [itemViolations, ElementsSatisfy, List.flatMap_eq_nil_iff]
    simp only [heach]
    constructor
    · intro hall v hv
      obtain ⟨i, hi⟩ := List.mem_iff_getElem?.1 hv
      exact hall (v, i) (List.mk_mem_zipIdx_iff_getElem?.2 hi)
    · rintro hall ⟨v, i⟩ hv
      exact hall v (List.mem_of_getElem? (List.mk_mem_zipIdx_iff_getElem?.1 hv))
  | .tuple ss => exact tupleViolations_eq_nil_iff path 0 elements ss h
  termination_by structural items

/-- So do elements with a schema each. -/
theorem tupleViolations_eq_nil_iff (path : List Step) (i : Nat) (elements : List Value)
    (ss : List Schema) (h : AllKnown patterns (nodesOfList ss)) :
    tupleViolations patterns path i elements ss = [] ↔
      TupleSatisfies NearestAtLeast ss elements := by
  match ss with
  | [] => simp [tupleViolations, TupleSatisfies]
  | s :: ss =>
    obtain ⟨hs, hss⟩ := allKnown_append.1 h
    cases elements with
    | nil => simp [tupleViolations, TupleSatisfies]
    | cons v vs =>
      rw [tupleViolations, TupleSatisfies, List.append_eq_nil_iff,
        violationsAt_eq_nil_iff (path ++ [Step.index i]) v s hs,
        tupleViolations_eq_nil_iff path (i + 1) vs ss hss]
  termination_by structural ss

/-- The nested run without paths finds an alternative exactly if one is satisfied. -/
theorem satisfiesOne_iff (v : Value) (ss : List Schema)
    (h : AllKnown patterns (nodesOfList ss)) :
    satisfiesOne patterns v ss = true ↔ SatisfiesSome NearestAtLeast ss v := by
  match ss with
  | [] => simp [satisfiesOne, SatisfiesSome]
  | s :: ss =>
    obtain ⟨hs, hss⟩ := allKnown_append.1 h
    rw [satisfiesOne, SatisfiesSome, Bool.or_eq_true, List.isEmpty_iff,
      violationsAt_eq_nil_iff [] v s hs, satisfiesOne_iff v ss hss]
  termination_by structural ss

end

/-! ## Validators -/

/-- A validator has its schema, and has read all patterns. -/
theorem allKnown_of_ofSchema {s : Schema} {validator : Validator}
    (h : Validator.ofSchema s = .ok validator) :
    validator.schema = s ∧ AllKnown validator.patterns s.nodes := by
  obtain ⟨patterns, hread, hpatterns⟩ := bind_eq_ok_iff.1 h
  obtain rfl := Except.ok.inj hpatterns
  exact ⟨rfl, fun t ht source hsource =>
    (readPatterns_ok hread).2 (by simp) source (List.mem_filterMap.2 ⟨t, ht, hsource⟩)⟩

/-- A validator has read every pattern that checking a value can reach, and finds no violation
exactly if the value satisfies the schema, numbers being compared with a least one after rounding
to the nearest binary64 value. -/
theorem violations_eq_nil_iff {s : Schema} {validator : Validator}
    (h : Validator.ofSchema s = .ok validator) :
    (∀ t, Nested s t → ∀ source, t.own.pattern = some source →
      Known validator.patterns source) ∧
    ∀ v, validator.violations v = [] ↔ Satisfies NearestAtLeast s v := by
  obtain ⟨patterns, hread, hpatterns⟩ := bind_eq_ok_iff.1 h
  obtain rfl := Except.ok.inj hpatterns
  have hknown : AllKnown patterns s.nodes := fun t ht source hsource =>
    (readPatterns_ok hread).2 (by simp) source (List.mem_filterMap.2 ⟨t, ht, hsource⟩)
  exact ⟨fun t ht => hknown t (mem_nodes_of_nested ht),
    fun v => violationsAt_eq_nil_iff [] v s hknown⟩

/-- An array of strings that begin with the letter c, or of numbers. -/
theorem violations_eq_nil_strings :
    ∃ validator, Validator.ofSchema ((ofType .array).withItems
        (.each (any.withAnyOf [(ofType .string).pattern "^c", ofType .number]))) = .ok validator ∧
      Satisfies NearestAtLeast ((ofType .array).withItems
        (.each (any.withAnyOf [(ofType .string).pattern "^c", ofType .number])))
          (.array [.string "cd", .number (.int 1)]) := by
  have hchecked : (Validator.ofSchema ((ofType .array).withItems
      (.each (any.withAnyOf [(ofType .string).pattern "^c", ofType .number])))).toOption.map
        (fun validator : Validator =>
          (validator.violations (.array [.string "cd", .number (.int 1)])).isEmpty) =
      some true := by decide +kernel
  obtain ⟨validator, hok, hempty⟩ := Option.map_eq_some_iff.1 hchecked
  have hvalidator := ok_of_toOption hok
  exact ⟨validator, hvalidator,
    ((violations_eq_nil_iff hvalidator).2 _).1 (List.isEmpty_iff.1 hempty)⟩

/-- With the least number `2 ^ 53 + 4`, the number below it by one is no violation: it is rounded
to the least number. -/
theorem violations_eq_nil_rounded :
    ¬ ∀ s validator, Validator.ofSchema s = .ok validator →
      ∀ v, (validator.violations v = [] ↔ Satisfies AtLeast s v) := by
  intro hall
  have hchecked : ((⟨any.minimum ⟨false, 0x4340000000000002, by decide⟩, []⟩ :
      Validator).violations (.number (.int 9007199254740995))).isEmpty = true := by decide +kernel
  have hsatisfies := (hall (any.minimum ⟨false, 0x4340000000000002, by decide⟩) _ rfl _).1
    (List.isEmpty_iff.1 hchecked)
  have hatLeast : AtLeast (.finite ⟨false, 0x4340000000000002, by decide⟩)
      (.int 9007199254740995) := (meets_of_satisfies hsatisfies).kind _ rfl
  have hvalue : (Binary64.mk false 0x4340000000000002 (by decide)).value =
      9007199254740996 * unitsPerOne := by decide +kernel
  have hpos : (0 : ℚ) < unitsPerOne := Nat.cast_pos.2 unitsPerOne_pos
  have hle : (9007199254740996 : ℚ) ≤ 9007199254740995 := by
    have hexact : Binary64.exact ⟨false, 0x4340000000000002, by decide⟩ = 9007199254740996 := by
      rw [Binary64.exact, hvalue, div_eq_iff hpos.ne']
      push_cast
      rfl
    exact hexact ▸ hatLeast
  exact absurd hle (by decide +kernel)

end LsxKit.Schema
