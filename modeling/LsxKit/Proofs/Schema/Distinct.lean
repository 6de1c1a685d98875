import LsxKit.Proofs.Schema.Genuine
import LsxKit.Proofs.Tree.Distinct

/-!
# Violations without repetitions

The violations of a value are those of the value itself, each about another keyword or another
missing key, and those inside it, which stand below different steps. So no two of them say the same
about the same place. A value of the wrong type has no other violation, neither here nor inside.

* `Violation.Compatible`: two violations that can be reported side by side.
* `breachesHere_apart`: what is said about one value itself is told apart by kind and message.
* `Separate`: violations that are compatible and stand in one part of a value; those below different
  steps can be put together (`Separate.append`, `Separate.cons`).
* `separate_violationsAt`: the violations of a value at a path are of this kind.
* `violations_distinct`: the violations that a validator reports.
-/

namespace LsxKit.Schema

open Json

/-! ## Two violations -/

/-- Whether two breaches of one value are told apart by kind and message. -/
def Breach.Differs (b c : Breach) : Prop := b.kind = c.kind → b.message ≠ c.message

namespace Violation

/-- What a violation says: its path, its kind and its message. -/
def content (e : Violation) : List Step × String × String :=
  (e.path, e.breach.kind, e.breach.message)

/-- Whether two violations can be reported side by side: they do not say the same, and neither is
about the type of a value that the other one is about or that is around it. -/
structure Compatible (e f : Violation) : Prop where
  content_ne : e.content ≠ f.content
  not_above : e.breach.kind = "type" → ¬ e.path <+: f.path
  not_below : f.breach.kind = "type" → ¬ f.path <+: e.path

theorem Compatible.symm {e f : Violation} (h : Compatible e f) : Compatible f e :=
  ⟨h.content_ne.symm, h.not_below, h.not_above⟩

/-- Violations of which neither stands below the other are compatible. -/
theorem compatible_of_apart {e f : Violation} (h : ¬ e.path <+: f.path) (h' : ¬ f.path <+: e.path) :
    Compatible e f := by
  refine ⟨fun hsame => h ?_, fun _ => h, fun _ => h'⟩
  have hpath : e.path = f.path := congrArg Prod.fst hsame
  exact hpath ▸ List.prefix_refl e.path

end Violation

open Violation

variable {path : List Step}

theorem compatible_here {b c : Breach} (hb : b.kind ≠ "type") (hc : c.kind ≠ "type")
    (h : b.Differs c) : Compatible ⟨path, b⟩ ⟨path, c⟩ := by
  refine ⟨fun hsame => ?_, fun htype => absurd htype hb, fun htype => absurd htype hc⟩
  obtain ⟨hkind, hmessage⟩ := Prod.mk.inj (Prod.mk.inj hsame).2
  exact h hkind hmessage

/-- A violation here that is not about the type is compatible with every one inside. -/
theorem compatible_inside {b : Breach} {f : Violation} {step : Step} (hb : b.kind ≠ "type")
    (hf : path ++ [step] <+: f.path) : Compatible ⟨path, b⟩ f := by
  have hlength : path.length < f.path.length := by
    have hle := hf.length_le
    rw [List.length_append] at hle
    exact hle
  refine ⟨fun hsame => ?_, fun htype => absurd htype hb, fun _ hprefix => ?_⟩
  · rw [show path = f.path from congrArg Prod.fst hsame] at hlength
    exact Nat.lt_irrefl _ hlength
  · exact Nat.not_lt.2 hprefix.length_le hlength

/-- Paths below different steps do not lead on from one another. -/
theorem not_isPrefix_of_ne {step step' : Step} {p q : List Step} (hne : step ≠ step')
    (hp : path ++ [step] <+: p) (hq : path ++ [step'] <+: q) : ¬ p <+: q := by
  intro hprefix
  have hsame : path ++ [step] = path ++ [step'] :=
    (List.prefix_of_prefix_length_le (hp.trans hprefix) hq (by simp)).eq_of_length (by simp)
  exact hne (by simpa using hsame)

/-! ## The breaches of one value -/

section Here

variable {patterns : Entries String Pattern} {own : Keywords} {anyOf : List Schema} {v : Value}

/-- The breaches of the keywords for the kind of a value, without those of sub-schemas. -/
def breachesOfKind (patterns : Entries String Pattern) (own : Keywords) : Value → List Breach
  | .string s => patternBreach patterns own s
  | .number n => minimumBreach own n
  | .object members => requiredBreaches own members
  | .array elements => uniqueBreach own elements
  | .bool _ | .null => []

/-- The breach of the alternatives. -/
def alternativesBreach (patterns : Entries String Pattern) (anyOf : List Schema) (v : Value) :
    List Breach :=
  if anyOf.isEmpty || satisfiesOne patterns v anyOf then [] else [.noneOf anyOf.length]

/-- The breaches of a value itself, if its type is right. -/
def breachesHere (patterns : Entries String Pattern) (own : Keywords) (anyOf : List Schema)
    (v : Value) : List Breach :=
  constantBreach own v ++ optionsBreach own v ++ breachesOfKind patterns own v ++
    alternativesBreach patterns anyOf v

theorem constantBreach_sublist (own : Keywords) (v : Value) :
    ∃ w, (constantBreach own v).Sublist [.constant w] := by
  unfold constantBreach
  cases own.constant with
  | none => exact ⟨.null, List.nil_sublist _⟩
  | some w => exact ⟨w, by dsimp only; split_ifs <;> simp⟩

theorem optionsBreach_sublist (own : Keywords) (v : Value) :
    ∃ ws, (optionsBreach own v).Sublist [.options ws] := by
  unfold optionsBreach
  cases own.options with
  | none => exact ⟨[], List.nil_sublist _⟩
  | some ws => exact ⟨ws, by dsimp only; split_ifs <;> simp⟩

theorem patternBreach_sublist (patterns : Entries String Pattern) (own : Keywords) (s : String) :
    ∃ source, (patternBreach patterns own s).Sublist [.pattern source] := by
  unfold patternBreach
  cases own.pattern with
  | none => exact ⟨"", List.nil_sublist _⟩
  | some source =>
    refine ⟨source, ?_⟩
    dsimp only
    cases Entries.get? source patterns with
    | none => exact List.nil_sublist _
    | some p => dsimp only; split_ifs <;> simp

theorem minimumBreach_sublist (own : Keywords) (n : Number) :
    ∃ least, (minimumBreach own n).Sublist [.minimum least] := by
  unfold minimumBreach
  cases own.minimum with
  | none => exact ⟨.nan, List.nil_sublist _⟩
  | some least =>
    refine ⟨least, ?_⟩
    cases n.toBinary64 with
    | none => exact List.nil_sublist _
    | some x => dsimp only; split_ifs <;> simp

theorem requiredBreaches_sublist (members : Entries String Value) :
    (requiredBreaches own members).Sublist (own.required.map .required) :=
  (List.filter_sublist).map _

theorem uniqueBreach_sublist (elements : List Value) :
    (uniqueBreach own elements).Sublist [.repeated] := by
  unfold uniqueBreach
  split_ifs <;> simp

/-- Two missing keys are told apart by their messages. -/
theorem message_required_inj {k k' : String}
    (h : (Breach.required k).message = (Breach.required k').message) : k = k' := by
  unfold Breach.message at h
  dsimp only at h
  rw [String.append_left_inj, String.append_right_inj] at h
  exact h

/-- Elements that are repeated and alternatives of which none holds are both of the kind `other`,
and are told apart by their messages. -/
theorem message_repeated_ne (n : Nat) : Breach.repeated.message ≠ (Breach.noneOf n).message := by
  intro h
  have hfirst := congrArg (fun s : String => s.toList.head?) h
  unfold Breach.message at hfirst
  dsimp only at hfirst
  rw [String.toList_append, List.head?_append,
    show "is not any of ".toList.head? = some 'i' by decide] at hfirst
  simp at hfirst

/-- Missing keys are told apart if no key is required twice. -/
theorem pairwise_required {keys : List String} (h : keys.Nodup) :
    (keys.map Breach.required).Pairwise Breach.Differs := by
  refine List.pairwise_map.2 (h.imp fun hne hkind hmessage => hne ?_)
  exact message_required_inj hmessage

/-- What the keywords for the kind of a value say is told apart, also from what the alternatives
say, and is of other kinds than what the keywords for all values say. -/
theorem breachesOfKind_sublist (patterns : Entries String Pattern) (v : Value)
    (hrequired : own.required.Nodup) (n : Nat) :
    ∃ bs, (breachesOfKind patterns own v).Sublist bs ∧
      (bs ++ [Breach.noneOf n]).Pairwise Breach.Differs ∧
        ∀ b ∈ bs, b.kind ∉ ["type", "const", "enum"] := by
  cases v with
  | string s =>
    obtain ⟨source, hpattern⟩ := patternBreach_sublist patterns own s
    exact ⟨_, hpattern, by simp [Breach.Differs, Breach.kind], by simp [Breach.kind]⟩
  | number number =>
    obtain ⟨least, hminimum⟩ := minimumBreach_sublist own number
    exact ⟨_, hminimum, by simp [Breach.Differs, Breach.kind], by simp [Breach.kind]⟩
  | object members =>
    refine ⟨_, requiredBreaches_sublist members, List.pairwise_append.2
      ⟨pairwise_required hrequired, List.pairwise_singleton _ _, ?_⟩, by simp [Breach.kind]⟩
    simp [Breach.Differs, Breach.kind]
  | array elements =>
    refine ⟨_, uniqueBreach_sublist elements, ?_, by simp [Breach.kind]⟩
    simp [Breach.Differs, message_repeated_ne]
  | bool b => exact ⟨[], List.nil_sublist _, by simp, by simp⟩
  | null => exact ⟨[], List.nil_sublist _, by simp, by simp⟩

/-- What is said about one value itself is told apart, and is nothing about its type. -/
theorem breachesHere_apart (patterns : Entries String Pattern) (anyOf : List Schema) (v : Value)
    (hrequired : own.required.Nodup) :
    (breachesHere patterns own anyOf v).Pairwise Breach.Differs ∧
      ∀ b ∈ breachesHere patterns own anyOf v, b.kind ≠ "type" := by
  obtain ⟨w, hconstant⟩ := constantBreach_sublist own v
  obtain ⟨ws, hoptions⟩ := optionsBreach_sublist own v
  obtain ⟨bs, hkind, hpairwise, hother⟩ :=
    breachesOfKind_sublist patterns v hrequired anyOf.length
  have halternatives : (alternativesBreach patterns anyOf v).Sublist [.noneOf anyOf.length] := by
    unfold alternativesBreach
    split_ifs <;> simp
  -- all that can be said, of which what is said is a part
  have hall : (breachesHere patterns own anyOf v).Sublist
      (.constant w :: .options ws :: (bs ++ [.noneOf anyOf.length])) := by
    simpa [breachesHere] using ((hconstant.append hoptions).append hkind).append halternatives
  have hrest : ∀ b ∈ bs ++ [Breach.noneOf anyOf.length], b.kind ∉ ["type", "const", "enum"] := by
    refine List.forall_mem_append.2 ⟨hother, ?_⟩
    simp [Breach.kind]
  simp only [List.mem_cons, List.not_mem_nil, or_false, not_or] at hrest
  have hconstant : ∀ b ∈ Breach.options ws :: (bs ++ [.noneOf anyOf.length]),
      (Breach.constant w).Differs b :=
    List.forall_mem_cons.2 ⟨by simp [Breach.Differs, Breach.kind],
      fun b hb hsame => absurd hsame.symm (hrest b hb).2.1⟩
  have hoptions : ∀ b ∈ bs ++ [Breach.noneOf anyOf.length], (Breach.options ws).Differs b :=
    fun b hb hsame => absurd hsame.symm (hrest b hb).2.2
  refine ⟨(List.pairwise_cons.2 ⟨hconstant, List.pairwise_cons.2 ⟨hoptions, hpairwise⟩⟩).sublist
    hall, fun b hb => ?_⟩
  have hb := hall.subset hb
  simp only [List.mem_cons] at hb
  rcases hb with rfl | rfl | hb
  · simp [Breach.kind]
  · simp [Breach.kind]
  · exact (hrest b hb).1

end Here

/-! ## The parts of a value -/

/-- Whether a path leads on below another one, by one of some steps. -/
def Under (path : List Step) (steps : Step → Prop) (p : List Step) : Prop :=
  ∃ step, steps step ∧ path ++ [step] <+: p

/-- Whether violations are compatible with one another and stand in one part of a value. -/
structure Separate (part : List Step → Prop) (es : List Violation) : Prop where
  compatible : es.Pairwise Compatible
  within : ∀ e ∈ es, part e.path

variable {part part' : List Step → Prop} {steps steps' : Step → Prop} {es fs : List Violation}

theorem separate_nil : Separate part [] := ⟨List.Pairwise.nil, by simp⟩

theorem Separate.mono (h : Separate part es) (hpart : ∀ p, part p → part' p) :
    Separate part' es :=
  ⟨h.compatible, fun e he => hpart e.path (h.within e he)⟩

/-- Violations below different steps can be put together. -/
theorem Separate.append (hes : Separate (Under path steps) es)
    (hfs : Separate (Under path steps') fs) (hne : ∀ step, steps step → ¬ steps' step) :
    Separate (Under path fun step => steps step ∨ steps' step) (es ++ fs) := by
  refine ⟨List.pairwise_append.2 ⟨hes.compatible, hfs.compatible, fun e he f hf => ?_⟩, ?_⟩
  · obtain ⟨step, hstep, hbelow⟩ := hes.within e he
    obtain ⟨step', hstep', hbelow'⟩ := hfs.within f hf
    have hsteps : step ≠ step' := fun hsame => hne step hstep (hsame ▸ hstep')
    exact compatible_of_apart (not_isPrefix_of_ne hsteps hbelow hbelow')
      (not_isPrefix_of_ne hsteps.symm hbelow' hbelow)
  · refine List.forall_mem_append.2 ⟨fun e he => ?_, fun f hf => ?_⟩
    · obtain ⟨step, hstep, hbelow⟩ := hes.within e he
      exact ⟨step, .inl hstep, hbelow⟩
    · obtain ⟨step, hstep, hbelow⟩ := hfs.within f hf
      exact ⟨step, .inr hstep, hbelow⟩

/-- Violations below one step, in front of those below others. -/
theorem Separate.cons {step : Step} (hes : Separate (path ++ [step] <+: ·) es)
    (hfs : Separate (Under path steps) fs) (hstep : ¬ steps step)
    (hsteps : ∀ step', step' = step ∨ steps step' → steps' step') :
    Separate (Under path steps') (es ++ fs) := by
  have hfirst : Separate (Under path (· = step)) es := hes.mono fun _ hp => ⟨step, rfl, hp⟩
  refine (hfirst.append hfs ?_).mono ?_
  · rintro _ rfl
    exact hstep
  · rintro p ⟨step', hstep', hbelow⟩
    exact ⟨step', hsteps step' hstep', hbelow⟩

/-- The steps to the elements from a position on. -/
def From (i : Nat) (step : Step) : Prop := ∃ j, i ≤ j ∧ step = .index j

/-- Violations below one element, in front of those below later ones. -/
theorem Separate.cons_index {i : Nat} (hes : Separate (path ++ [.index i] <+: ·) es)
    (hfs : Separate (Under path (From (i + 1))) fs) :
    Separate (Under path (From i)) (es ++ fs) := by
  refine hes.cons hfs ?_ ?_
  · rintro ⟨j, hj, hsame⟩
    have heq := Step.index.inj hsame
    omega
  · rintro step (rfl | ⟨j, hj, rfl⟩)
    · exact ⟨i, Nat.le_refl i, rfl⟩
    · exact ⟨j, Nat.le_of_succ_le hj, rfl⟩

/-- What is said about a value itself, and what is said below it. -/
theorem separate_of_perm {bs : List Breach} (hbs : bs.Pairwise Breach.Differs)
    (htype : ∀ b ∈ bs, b.kind ≠ "type") (hfs : Separate (Under path steps) fs)
    (hperm : es.Perm (bs.map (⟨path, ·⟩) ++ fs)) : Separate (path <+: ·) es := by
  have hhere : (bs.map (⟨path, ·⟩ : Breach → Violation)).Pairwise Compatible :=
    List.pairwise_map.2 (hbs.imp_of_mem fun hb hc => compatible_here (htype _ hb) (htype _ hc))
  refine ⟨(hperm.pairwise_iff Compatible.symm).2 (List.pairwise_append.2
    ⟨hhere, hfs.compatible, ?_⟩), fun e he => ?_⟩
  · intro e he f hf
    obtain ⟨b, hb, rfl⟩ := List.mem_map.1 he
    obtain ⟨step, -, hbelow⟩ := hfs.within f hf
    exact compatible_inside (htype b hb) hbelow
  · rcases List.mem_append.1 (hperm.subset he) with he | he
    · obtain ⟨b, -, rfl⟩ := List.mem_map.1 he
      exact List.prefix_refl path
    · obtain ⟨step, -, hbelow⟩ := hfs.within e he
      exact (List.prefix_append path [step]).trans hbelow

/-! ## Values -/

section Values

variable {patterns : Entries String Pattern} {own : Keywords} {properties : List (String × Schema)}
  {items : Items} {anyOf : List Schema} {v : Value}

/-- The violations that are not about a value itself. -/
def violationsInside (patterns : Entries String Pattern) (path : List Step) (own : Keywords)
    (properties : List (String × Schema)) (items : Items) : Value → List Violation
  | .object members => memberViolations patterns path members properties ++
      (additionalKeys own properties members).map
        fun key => ⟨path ++ [.key key], .additional key⟩
  | .array elements => itemViolations patterns path elements items
  | _ => []

/-- The violations of a value of the right type are about it, or about what is inside. -/
theorem violationsAt_perm (htype : typeBreach? own v = none) :
    (violationsAt patterns path v (.mk own properties items anyOf)).Perm
      ((breachesHere patterns own anyOf v).map (⟨path, ·⟩) ++
        violationsInside patterns path own properties items v) := by
  have halternatives : (if anyOf.isEmpty || satisfiesOne patterns v anyOf then []
      else [(⟨path, .noneOf anyOf.length⟩ : Violation)]) =
        (alternativesBreach patterns anyOf v).map (⟨path, ·⟩) := by
    unfold alternativesBreach
    split_ifs <;> rfl
  cases v <;> simp only [violationsAt, htype, halternatives, breachesHere, breachesOfKind,
    violationsInside, List.map_append, List.append_assoc, List.append_nil,
    List.perm_append_left_iff, List.Perm.refl]
  -- below an object or an array the violations come before the last ones of the value itself
  case object members =>
    rw [← List.append_assoc]
    exact List.perm_append_comm
  case array elements =>
    rw [← List.append_assoc (List.map _ (uniqueBreach own elements))]
    exact List.perm_append_comm

/-- Members that are not allowed, each with a violation of its own. -/
theorem separate_additional (path : List Step) (own : Keywords)
    (properties : List (String × Schema)) {members : Entries String Value}
    (hmembers : (Entries.keys members).Nodup) :
    Separate (Under path fun step => ∃ key, key ∉ properties.map Prod.fst ∧ step = .key key)
      ((additionalKeys own properties members).map
        fun key => ⟨path ++ [.key key], .additional key⟩) := by
  have hnodup : (additionalKeys own properties members).Nodup := by
    unfold additionalKeys
    split_ifs
    · exact hmembers.filter _
    · exact List.nodup_nil
  refine ⟨List.pairwise_map.2 (hnodup.imp fun hne => ?_), fun e he => ?_⟩
  · have hsteps : Step.key _ ≠ .key _ := fun hsame => hne (Step.key.inj hsame)
    exact compatible_of_apart (not_isPrefix_of_ne hsteps (List.prefix_refl _) (List.prefix_refl _))
      (not_isPrefix_of_ne hsteps.symm (List.prefix_refl _) (List.prefix_refl _))
  · obtain ⟨key, hkey, rfl⟩ := List.mem_map.1 he
    exact ⟨.key key, ⟨key, (mem_additionalKeys.1 hkey).2.2, rfl⟩, List.prefix_refl _⟩

/-- Elements from a position on, each with violations of its own. -/
theorem separate_elements {f : Value × Nat → List Violation} {elements : List Value} (i : Nat)
    (h : ∀ v ∈ elements, ∀ j, Separate (path ++ [.index j] <+: ·) (f (v, j))) :
    Separate (Under path (From i)) ((elements.zipIdx i).flatMap f) := by
  induction elements generalizing i with
  | nil => exact separate_nil
  | cons v vs ih =>
    obtain ⟨hv, hvs⟩ := List.forall_mem_cons.1 h
    rw [List.zipIdx_cons, List.flatMap_cons]
    exact (hv i).cons_index (ih (i + 1) hvs)

/-- Whether schemas require no key twice and have one sub-schema for each of their keys. -/
def Orderly (ss : List Schema) : Prop :=
  ∀ s ∈ ss, s.own.required.Nodup ∧ (s.properties.map Prod.fst).Nodup

theorem orderly_append {ss ss' : List Schema} : Orderly (ss ++ ss') ↔ Orderly ss ∧ Orderly ss' :=
  List.forall_mem_append

end Values

section Induction

variable {patterns : Entries String Pattern}

mutual

/-- The violations of a value at a path are compatible, and are about it or what is inside. -/
theorem separate_violationsAt (path : List Step) {v : Value} (hv : Tree.Distinct v) (s : Schema)
    (hs : Orderly s.nodes) : Separate (path <+: ·) (violationsAt patterns path v s) := by
  match s with
  | .mk own properties items anyOf =>
    obtain ⟨⟨hrequired, hkeys⟩, hnested⟩ := List.forall_mem_cons.1 hs
    rw [← Orderly, orderly_append, orderly_append] at hnested
    obtain ⟨⟨hproperties, hitems⟩, -⟩ := hnested
    cases htype : typeBreach? own v with
    | some breach =>
      simp only [violationsAt, htype]
      exact ⟨List.pairwise_singleton _ _, by simp⟩
    | none =>
      obtain ⟨hdiffers, hother⟩ := breachesHere_apart patterns anyOf v hrequired
      have hinside : Separate (Under path fun _ => True)
          (violationsInside patterns path own properties items v) := by
        cases v with
        | object members =>
          have hmembers := separate_memberViolations path hv.2 properties hproperties hkeys
          have hadditional := separate_additional path own properties hv.1
          refine (hmembers.append hadditional ?_).mono fun p ⟨step, _, hbelow⟩ =>
            ⟨step, trivial, hbelow⟩
          rintro _ ⟨key, hkey, rfl⟩ ⟨key', hkey', hsame⟩
          exact hkey' (Step.key.inj hsame ▸ hkey)
        | array elements =>
          exact (separate_itemViolations path hv items hitems).mono fun p ⟨step, _, hbelow⟩ =>
            ⟨step, trivial, hbelow⟩
        | _ => exact separate_nil
      exact separate_of_perm hdiffers hother hinside (violationsAt_perm htype)
  termination_by structural s

/-- The violations of members are compatible, and are about members with a sub-schema. -/
theorem separate_memberViolations (path : List Step) {members : Entries String Value}
    (hmembers : Tree.MembersDistinct members) (properties : List (String × Schema))
    (hproperties : Orderly (nodesOfMembers properties))
    (hkeys : (properties.map Prod.fst).Nodup) :
    Separate (Under path fun step => ∃ key, key ∈ properties.map Prod.fst ∧ step = .key key)
      (memberViolations patterns path members properties) := by
  match properties with
  | [] => exact separate_nil
  | (key, s) :: properties =>
    obtain ⟨hs, hrest⟩ := orderly_append.1 hproperties
    obtain ⟨hkey, hkeys⟩ := List.nodup_cons.1 hkeys
    have hfirst : Separate (path ++ [.key key] <+: ·) (match Entries.get? key members with
        | some v => violationsAt patterns (path ++ [.key key]) v s
        | none => []) := by
      cases hget : Entries.get? key members with
      | none => exact separate_nil
      | some v =>
        have hv := Tree.membersDistinct_iff.1 hmembers _ (Entries.mem_of_get? hget)
        exact separate_violationsAt (path ++ [.key key]) hv s hs
    refine hfirst.cons (separate_memberViolations path hmembers properties hrest hkeys) ?_ ?_
    · rintro ⟨key', hkey', hsame⟩
      exact hkey (Step.key.inj hsame ▸ hkey')
    · rintro step (rfl | ⟨key', hkey', rfl⟩)
      · exact ⟨key, List.mem_cons_self, rfl⟩
      · exact ⟨key', List.mem_cons_of_mem _ hkey', rfl⟩
  termination_by structural properties

/-- The violations of elements are compatible, and are about elements. -/
theorem separate_itemViolations (path : List Step) {elements : List Value}
    (helements : Tree.AllDistinct elements) (items : Items)
    (hitems : Orderly (nodesOfItems items)) :
    Separate (Under path (From 0))
      (itemViolations patterns path elements items) := by
  match items with
  | .free => exact separate_nil
  | .each s =>
    exact separate_elements 0 fun v hv j =>
      separate_violationsAt (path ++ [.index j]) (Tree.allDistinct_iff.1 helements v hv) s hitems
  | .tuple ss => exact separate_tupleViolations path 0 helements ss hitems
  termination_by structural items

/-- So are those of elements with a schema each, from a position on. -/
theorem separate_tupleViolations (path : List Step) (i : Nat) {elements : List Value}
    (helements : Tree.AllDistinct elements) (ss : List Schema) (hss : Orderly (nodesOfList ss)) :
    Separate (Under path (From i))
      (tupleViolations patterns path i elements ss) := by
  match ss with
  | [] => exact separate_nil
  | s :: ss =>
    obtain ⟨hs, hss⟩ := orderly_append.1 hss
    cases elements with
    | nil => exact separate_nil
    | cons v vs =>
      have hfirst := separate_violationsAt (path ++ [.index i]) helements.1 s hs
      exact hfirst.cons_index (separate_tupleViolations path (i + 1) helements.2 ss hss)
  termination_by structural ss

end

end Induction

/-! ## Validators -/

/-- Of all that a validator reports about a value with distinct keys, nothing is said twice: no two
violations have the same path, kind and message. And a value of the wrong type is reported alone:
no other violation is about it or about what is inside it. For this no schema may require a key
twice; that each has one sub-schema for a key is what makes its properties a table. -/
theorem violations_distinct (validator : Validator) {v : Value} (hv : Tree.Distinct v)
    (hkeys : ∀ t ∈ validator.schema.nodes, (t.properties.map Prod.fst).Nodup)
    (hrequired : ∀ t ∈ validator.schema.nodes, t.own.required.Nodup) :
    ((validator.violations v).map Violation.content).Nodup ∧
      ∀ before e after, validator.violations v = before ++ e :: after → e.breach.kind = "type" →
        ∀ f ∈ before ++ after, ¬ e.path <+: f.path := by
  have hcompatible : (validator.violations v).Pairwise Compatible :=
    (separate_violationsAt [] hv validator.schema
      fun t ht => ⟨hrequired t ht, hkeys t ht⟩).compatible
  refine ⟨List.pairwise_map.2 (hcompatible.imp fun h => h.content_ne), ?_⟩
  intro before e after hsplit htype f hf
  rw [hsplit, List.pairwise_append, List.pairwise_cons] at hcompatible
  obtain ⟨-, ⟨hafter, -⟩, hbefore⟩ := hcompatible
  rcases List.mem_append.1 hf with hf | hf
  · exact (hbefore f hf e List.mem_cons_self).not_below htype
  · exact (hafter f hf).not_above htype

/-- Two missing keys, a member of the wrong type and one that is not allowed. -/
theorem violations_distinct_object :
    let validator : Validator :=
      ⟨((any.require ["k", "m"]).property "n" (ofType .number)).closed, []⟩
    let v := Value.object [("x", .null), ("n", .object [("x", .null)])]
    (validator.violations v).map (fun e => (e.path, e.breach.kind)) =
        [([], "required"), ([], "required"), ([.key "n"], "type"),
          ([.key "x"], "additionalProperties")] ∧
      ((validator.violations v).map Violation.content).Nodup ∧
      ∀ before e after, validator.violations v = before ++ e :: after → e.breach.kind = "type" →
        ∀ f ∈ before ++ after, ¬ e.path <+: f.path := by
  intro validator v
  have hv : Tree.Distinct v := by simp [v, Tree.Distinct, Tree.MembersDistinct]
  have hkeys : ∀ t ∈ validator.schema.nodes, (t.properties.map Prod.fst).Nodup := by decide +kernel
  have hrequired : ∀ t ∈ validator.schema.nodes, t.own.required.Nodup := by decide +kernel
  exact ⟨by decide +kernel, violations_distinct validator hv hkeys hrequired⟩

end LsxKit.Schema
