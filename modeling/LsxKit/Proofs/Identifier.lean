import LsxKit.Identifier
import LsxKit.Proofs.Text.Trim

/-!
# UUIDs and their handles

A UUID is five groups of hexadecimal digits with hyphens between them, and its handle is the same
groups with other marks: `h` before them and `g` between them. The groups are what both texts have
in common, so each conversion only changes the marks, and takes back what the other one did.

* `DigitGroups`: groups of hexadecimal digits of given sizes.
* `isGrouped_iff`: which texts are groups with separators between them.
* `toHandle_eq_ok_iff`, `fromHandle_eq_ok_iff`: what either conversion accepts, and its result.
* `handle_inverse`: the conversions are inverse to each other.
-/

namespace LsxKit.Identifier

/-- Whether texts are groups of hexadecimal digits, of either case, of the given sizes. -/
structure DigitGroups (sizes : List Nat) (groups : List (List Char)) : Prop where
  lengths : groups.map List.length = sizes
  digits : ∀ group ∈ groups, ∀ c ∈ group, isHexDigit c = true

/-- The letter `G` in lower case, and any other character as it is. -/
def lowerG (c : Char) : Char := if c = 'G' then 'g' else c

variable {sizes : List Nat} {groups : List (List Char)} {s group : List Char} {c : Char}

/-! ## Hexadecimal digits -/

theorem isHexDigit_iff : isHexDigit c = true ↔
    (0x30 ≤ c.toNat ∧ c.toNat ≤ 0x39) ∨ (0x61 ≤ c.toNat ∧ c.toNat ≤ 0x66) ∨
      (0x41 ≤ c.toNat ∧ c.toNat ≤ 0x46) := by
  simp only [isHexDigit, Char.isDigit, Bool.or_eq_true, Bool.and_eq_true, decide_eq_true_eq,
    or_assoc]
  rfl

theorem isBlank_of_isHexDigit (h : isHexDigit c = true) : Text.isBlank c = false := by
  rw [isHexDigit_iff] at h
  simp [Text.isBlank]
  omega

/-- No mark of a UUID or of a handle is a hexadecimal digit. -/
theorem ne_of_isHexDigit (h : isHexDigit c = true) : c ≠ '-' ∧ c ≠ 'g' ∧ c ≠ 'G' := by
  refine ⟨?_, ?_, ?_⟩ <;> rintro rfl <;> exact absurd h (by decide)

/-- A change of characters that leaves hexadecimal digits leaves a group of them. -/
theorem map_group {f : Char → Char} (hf : ∀ c, isHexDigit c = true → f c = c)
    (hgroup : ∀ c ∈ group, isHexDigit c = true) : group.map f = group :=
  (List.map_congr_left fun c hc => hf c (hgroup c hc)).trans (List.map_id group)

/-! ## Groups with marks between them -/

theorem digitGroups_singleton {n : Nat} :
    DigitGroups [n] groups ↔
      ∃ group, groups = [group] ∧ group.length = n ∧ ∀ c ∈ group, isHexDigit c = true := by
  constructor
  · rintro ⟨hlengths, hdigits⟩
    obtain ⟨group, rfl, hlength⟩ := List.map_eq_singleton_iff.1 hlengths
    exact ⟨group, rfl, hlength, hdigits group List.mem_cons_self⟩
  · rintro ⟨group, rfl, rfl, hdigits⟩
    exact ⟨rfl, by simpa using hdigits⟩

theorem digitGroups_cons {n : Nat} :
    DigitGroups (n :: sizes) groups ↔
      ∃ group rest, groups = group :: rest ∧ group.length = n ∧
        (∀ c ∈ group, isHexDigit c = true) ∧ DigitGroups sizes rest := by
  constructor
  · rintro ⟨hlengths, hdigits⟩
    obtain ⟨group, rest, rfl, hlength, hrest⟩ := List.map_eq_cons_iff.1 hlengths
    rw [List.forall_mem_cons] at hdigits
    exact ⟨group, rest, rfl, hlength, hdigits.1, hrest, hdigits.2⟩
  · rintro ⟨group, rest, rfl, rfl, hdigits, hrest⟩
    exact ⟨by simp [hrest.lengths], List.forall_mem_cons.2 ⟨hdigits, hrest.digits⟩⟩

/-- A change of characters that leaves hexadecimal digits only changes the mark. -/
theorem map_intercalate {f : Char → Char} (hf : ∀ c, isHexDigit c = true → f c = c) (mark : Char)
    (hgroups : DigitGroups sizes groups) :
    ([mark].intercalate groups).map f = [f mark].intercalate groups := by
  have hdigits := hgroups.digits
  clear hgroups
  induction groups with
  | nil => rfl
  | cons group groups ih =>
    rw [List.forall_mem_cons] at hdigits
    cases groups with
    | nil => simpa using map_group hf hdigits.1
    | cons next groups => simp [List.intercalate_cons_cons, map_group hf hdigits.1, ih hdigits.2]

theorem isGrouped_cons_cons {p : Char → Bool} {n m : Nat} :
    isGrouped p (n :: m :: sizes) s = true ↔ ∃ group c rest, s = group ++ c :: rest ∧
      group.length = n ∧ (∀ c ∈ group, isHexDigit c = true) ∧ p c = true ∧
      isGrouped p (m :: sizes) rest = true := by
  rw [isGrouped.eq_3 p s n (m :: sizes) (by simp)]
  constructor
  · intro h
    cases hdrop : s.drop n with
    | nil => simp [hdrop] at h
    | cons c rest =>
      simp only [hdrop, Bool.and_eq_true, decide_eq_true_eq, List.all_eq_true] at h
      obtain ⟨⟨hlt, hdigits⟩, hc, hrest⟩ := h
      refine ⟨s.take n, c, rest, ?_, List.length_take_of_le hlt.le, hdigits, hc, hrest⟩
      rw [← hdrop, List.take_append_drop]
  · rintro ⟨group, c, rest, rfl, rfl, hdigits, hc, hrest⟩
    simpa [hc, hrest] using hdigits

/-- The texts that are groups with separators between them. The change of characters `f` makes
all separators one mark, and makes no character a digit. -/
theorem isGrouped_iff {p : Char → Bool} {f : Char → Char} {mark : Char}
    (hmark : ∀ c, p c = true ↔ f c = mark) (hf : ∀ c, isHexDigit c = true → f c = c)
    (hf' : ∀ c, isHexDigit (f c) = true → f c = c) (hsizes : sizes ≠ []) :
    isGrouped p sizes s = true ↔
      ∃ groups, DigitGroups sizes groups ∧ s.map f = [mark].intercalate groups := by
  have hright : ∀ s group : List Char, s.map f = group → (∀ c ∈ group, isHexDigit c = true) →
      s = group := by
    rintro s - rfl h
    exact ((List.map_congr_left fun c hc => hf' c (h _ (List.mem_map_of_mem hc))).trans
      (List.map_id s)).symm
  induction sizes generalizing s with
  | nil => contradiction
  | cons n sizes ih =>
    cases sizes with
    | nil =>
      simp only [isGrouped, Bool.and_eq_true, beq_iff_eq, List.all_eq_true, digitGroups_singleton]
      constructor
      · rintro ⟨hlength, hdigits⟩
        exact ⟨[s], ⟨s, rfl, hlength, hdigits⟩, by simp [map_group hf hdigits]⟩
      · rintro ⟨-, ⟨group, rfl, hlength, hdigits⟩, hs⟩
        rw [List.intercalate_singleton] at hs
        obtain rfl := hright s group hs hdigits
        exact ⟨hlength, hdigits⟩
    | cons m sizes =>
      rw [isGrouped_cons_cons]
      constructor
      · rintro ⟨group, c, rest, rfl, hlength, hdigits, hc, hrest⟩
        obtain ⟨groups, hgroups, hmap⟩ := (ih (by simp)).1 hrest
        refine ⟨group :: groups, digitGroups_cons.2 ⟨group, groups, rfl, hlength, hdigits,
          hgroups⟩, ?_⟩
        obtain ⟨next, groups, rfl, -⟩ := digitGroups_cons.1 hgroups
        simp [List.intercalate_cons_cons, map_group hf hdigits, (hmark c).1 hc, hmap]
      · rintro ⟨groups, hgroups, hs⟩
        obtain ⟨group, others, rfl, hlength, hdigits, hothers⟩ := digitGroups_cons.1 hgroups
        obtain ⟨next, others, rfl, -⟩ := digitGroups_cons.1 hothers
        rw [List.intercalate_cons_cons, List.append_assoc, List.singleton_append,
          List.map_eq_append_iff] at hs
        obtain ⟨first, rest, rfl, hfirst, hrest⟩ := hs
        obtain ⟨c, rest, rfl, hc, hrest⟩ := List.map_eq_cons_iff.1 hrest
        obtain rfl := hright first group hfirst hdigits
        exact ⟨first, c, rest, rfl, hlength, hdigits, (hmark c).2 hc,
          (ih (by simp)).2 ⟨next :: others, hothers, hrest⟩⟩

theorem isUuid_iff :
    isUuid s = true ↔ ∃ groups, DigitGroups groupSizes groups ∧ s = ['-'].intercalate groups := by
  have := @isGrouped_iff groupSizes s (· == '-') id '-' (by simp) (by simp) (by simp)
    (List.cons_ne_nil _ _)
  simpa [isUuid] using this

theorem isHandleTail_iff :
    isHandleTail s = true ↔
      ∃ groups, DigitGroups groupSizes groups ∧ s.map lowerG = ['g'].intercalate groups := by
  refine isGrouped_iff (fun c => ?_) (fun c hc => if_neg (ne_of_isHexDigit hc).2.2)
    (fun c hc => ?_) (List.cons_ne_nil _ _)
  · unfold lowerG
    split <;> simp_all
  · unfold lowerG at hc ⊢
    split at hc
    · exact absurd hc (by decide)
    · next h => exact if_neg h

/-! ## The conversions -/

/-- Only a UUID has a handle, and the handle is its groups with the marks of a handle. -/
theorem toHandle_eq_ok_iff {uuid handle : String} :
    toHandle uuid = .ok handle ↔ ∃ groups, DigitGroups groupSizes groups ∧
      Text.trimBy Text.isBlank uuid.toList = ['-'].intercalate groups ∧
      handle = String.ofList ('h' :: ['g'].intercalate groups) := by
  have hchange : ∀ {groups}, DigitGroups groupSizes groups →
      (['-'].intercalate groups).map (fun c => if c = '-' then 'g' else c) =
        ['g'].intercalate groups := fun hgroups =>
    map_intercalate (fun c hc => if_neg (ne_of_isHexDigit hc).1) '-' hgroups
  simp only [toHandle]
  constructor
  · intro h
    split at h
    · next hs =>
      obtain ⟨groups, hgroups, hs⟩ := isUuid_iff.1 hs
      rw [hs, hchange hgroups, Except.ok.injEq] at h
      exact ⟨groups, hgroups, hs, h.symm⟩
    · contradiction
  · rintro ⟨groups, hgroups, hs, rfl⟩
    rw [if_pos (isUuid_iff.2 ⟨groups, hgroups, hs⟩), hs, hchange hgroups]

/-- Only a handle has a UUID, and the UUID is its groups with the marks of a UUID. -/
theorem fromHandle_eq_ok_iff {handle uuid : String} :
    fromHandle handle = .ok uuid ↔ ∃ first tail groups, DigitGroups groupSizes groups ∧
      Text.trimBy Text.isBlank handle.toList = first :: tail ∧ (first = 'h' ∨ first = 'H') ∧
      tail.map lowerG = ['g'].intercalate groups ∧
      uuid = String.ofList (['-'].intercalate groups) := by
  -- the separators become hyphens as if they had been put in lower case first
  have hchange : ∀ {tail : List Char} {groups}, DigitGroups groupSizes groups →
      tail.map lowerG = ['g'].intercalate groups →
      tail.map (fun c => if c = 'g' ∨ c = 'G' then '-' else c) = ['-'].intercalate groups := by
    intro tail groups hgroups htail
    have hlower : ∀ c, (if c = 'g' ∨ c = 'G' then '-' else c) =
        if lowerG c = 'g' then '-' else lowerG c := by
      intro c
      unfold lowerG
      by_cases hG : c = 'G' <;> simp [hG]
    simp only [hlower]
    rw [← Function.comp_def (fun c => if c = 'g' then '-' else c) lowerG, ← List.map_map, htail]
    exact map_intercalate (fun c hc => if_neg (ne_of_isHexDigit hc).2.1) 'g' hgroups
  unfold fromHandle
  constructor
  · intro h
    cases hs : Text.trimBy Text.isBlank handle.toList with
    | nil => simp [hs] at h
    | cons first tail =>
      simp only [hs] at h
      split at h
      · next hhandle =>
        obtain ⟨groups, hgroups, htail⟩ := isHandleTail_iff.1 hhandle.2
        rw [hchange hgroups htail, Except.ok.injEq] at h
        exact ⟨first, tail, groups, hgroups, rfl, hhandle.1, htail, h.symm⟩
      · contradiction
  · rintro ⟨first, tail, groups, hgroups, hs, hfirst, htail, rfl⟩
    simp only [hs]
    rw [if_pos ⟨hfirst, isHandleTail_iff.2 ⟨groups, hgroups, htail⟩⟩, hchange hgroups htail]

/-- No blank is among groups with a mark between them. -/
theorem isBlank_of_mem_intercalate {mark : Char} (hmark : Text.isBlank mark = false)
    (hgroups : DigitGroups sizes groups) :
    ∀ c ∈ [mark].intercalate groups, Text.isBlank c = false :=
  Text.forall_mem_intercalate hmark fun group hgroup c hc =>
    isBlank_of_isHexDigit (hgroups.digits group hgroup c hc)

/-- The conversions are inverse to each other. A text has a handle exactly if, without the blanks
around it, it is groups of 8, 4, 4, 4 and 12 hexadecimal digits with hyphens between them, and then
its handle has this text as its UUID. The UUID of a handle has as its handle the same text, without
the blanks around it, with its first letter and its separators in lower case. -/
theorem handle_inverse :
    (∀ uuid : String,
      ((∃ handle, toHandle uuid = .ok handle) ↔
        ∃ groups, DigitGroups groupSizes groups ∧
          Text.trimBy Text.isBlank uuid.toList = ['-'].intercalate groups) ∧
      ∀ handle, toHandle uuid = .ok handle →
        fromHandle handle = .ok (String.ofList (Text.trimBy Text.isBlank uuid.toList))) ∧
      ∀ handle uuid, fromHandle handle = .ok uuid →
        ∃ first tail, Text.trimBy Text.isBlank handle.toList = first :: tail ∧
          (first = 'h' ∨ first = 'H') ∧
          toHandle uuid = .ok (String.ofList ('h' :: tail.map lowerG)) := by
  refine ⟨fun uuid => ⟨?_, fun handle h => ?_⟩, fun handle uuid h => ?_⟩
  · constructor
    · rintro ⟨handle, h⟩
      obtain ⟨groups, hgroups, hs, -⟩ := toHandle_eq_ok_iff.1 h
      exact ⟨groups, hgroups, hs⟩
    · rintro ⟨groups, hgroups, hs⟩
      exact ⟨_, toHandle_eq_ok_iff.2 ⟨groups, hgroups, hs, rfl⟩⟩
  · obtain ⟨groups, hgroups, hs, rfl⟩ := toHandle_eq_ok_iff.1 h
    have hlower : (['g'].intercalate groups).map lowerG = ['g'].intercalate groups :=
      map_intercalate (fun c hc => if_neg (ne_of_isHexDigit hc).2.2) 'g' hgroups
    refine fromHandle_eq_ok_iff.2 ⟨'h', ['g'].intercalate groups, groups, hgroups, ?_, .inl rfl,
      hlower, by rw [hs]⟩
    rw [String.toList_ofList]
    apply Text.trimBy_of_forall
    exact List.forall_mem_cons.2 ⟨by decide, isBlank_of_mem_intercalate (by decide) hgroups⟩
  · obtain ⟨first, tail, groups, hgroups, hs, hfirst, htail, rfl⟩ := fromHandle_eq_ok_iff.1 h
    refine ⟨first, tail, hs, hfirst, toHandle_eq_ok_iff.2 ⟨groups, hgroups, ?_, by rw [htail]⟩⟩
    rw [String.toList_ofList]
    exact Text.trimBy_of_forall (isBlank_of_mem_intercalate (by decide) hgroups)

/-- Digits of both cases stay as they are, and marks of both cases are read. -/
theorem handle_inverse_mixed :
    fromHandle "h853CaddAg9fB3g4690ga2CFg56bb76F8543d" =
        .ok "853CaddA-9fB3-4690-a2CF-56bb76F8543d" ∧
      ∃ first tail, Text.trimBy Text.isBlank
          "\u3000H853CaddAg9fB3G4690Ga2CFg56bb76F8543d\n".toList = first :: tail ∧
        (first = 'h' ∨ first = 'H') ∧
        toHandle "853CaddA-9fB3-4690-a2CF-56bb76F8543d" =
          .ok (String.ofList ('h' :: tail.map lowerG)) := by
  refine ⟨?_, handle_inverse.2 _ _ (by decide +kernel)⟩
  have huuid : String.ofList (Text.trimBy Text.isBlank
      " 853CaddA-9fB3-4690-a2CF-56bb76F8543d\u2003".toList) =
        "853CaddA-9fB3-4690-a2CF-56bb76F8543d" := by decide +kernel
  exact huuid ▸ (handle_inverse.1 " 853CaddA-9fB3-4690-a2CF-56bb76F8543d\u2003").2 _
    (by decide +kernel)

end LsxKit.Identifier
