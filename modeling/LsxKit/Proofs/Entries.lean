import LsxKit.Entries
import Mathlib.Data.List.Nodup

/-!
# Entries with distinct keys

* `insert_of_not_mem`, `extend_of_nodup`: new keys go to the end.
* `insert_eq_map`: a present key takes the new value in place.
* `nodup_keys_extend`, `mem_extend`: what is known of a table after several writes.
* `get?_of_mem`, `ext_get?`: a table with distinct keys is known from its look-ups.
* `filter_key`, `nodup_keys_filter_append`: parts of a table with distinct keys.
* `get?_extend`, `get?_reverse_insert`: the last entry under a repeated key.
-/

namespace LsxKit.Entries

variable {κ ν : Type}

@[simp] theorem keys_nil : keys ([] : Entries κ ν) = [] := rfl

@[simp] theorem keys_cons (e : κ × ν) (es : Entries κ ν) : keys (e :: es) = e.1 :: keys es := rfl

@[simp] theorem keys_append (es es' : Entries κ ν) : keys (es ++ es') = keys es ++ keys es' :=
  List.map_append

variable [DecidableEq κ]

theorem extend_cons (es : Entries κ ν) (e : κ × ν) (new : Entries κ ν) :
    extend es (e :: new) = extend (insert e.1 e.2 es) new := rfl

/-! ## New keys -/

theorem insert_of_not_mem {k : κ} {es : Entries κ ν} (h : k ∉ keys es) (v : ν) :
    insert k v es = es ++ [(k, v)] := by
  induction es with
  | nil => rfl
  | cons e es ih =>
    rw [keys_cons, List.mem_cons, not_or] at h
    rw [insert, if_neg fun he => h.1 he.symm, ih h.2, List.cons_append]

/-- A write changes the first entry with the key. -/
theorem insert_append_cons {k : κ} {es : Entries κ ν} (h : k ∉ keys es) (v w : ν)
    (es' : Entries κ ν) : insert k v (es ++ (k, w) :: es') = es ++ (k, v) :: es' := by
  induction es with
  | nil => simp [insert]
  | cons e es ih =>
    rw [keys_cons, List.mem_cons, not_or] at h
    rw [List.cons_append, insert, if_neg fun he => h.1 he.symm, ih h.2, List.cons_append]

/-- With distinct keys, a write changes the value under one key. -/
theorem insert_eq_map {k : κ} {es : Entries κ ν} (hn : (keys es).Nodup) (hk : k ∈ keys es)
    (v : ν) : insert k v es = es.map fun e => if e.1 = k then (k, v) else e := by
  induction es with
  | nil => contradiction
  | cons e es ih =>
    rw [keys_cons, List.nodup_cons] at hn
    rw [insert, List.map_cons]
    split_ifs with he
    · have hrest : es.map (fun e => if e.1 = k then (k, v) else e) = es := by
        refine (List.map_congr_left fun e' he' => if_neg ?_).trans (List.map_id es)
        rintro rfl
        exact hn.1 (he ▸ List.mem_map_of_mem he')
      rw [hrest, he]
    · have hmem : k ∈ keys es := (List.mem_cons.1 hk).resolve_left fun h => he h.symm
      rw [ih hn.2 hmem]

theorem extend_of_nodup (es : Entries κ ν) {new : Entries κ ν} (h : (keys (es ++ new)).Nodup) :
    extend es new = es ++ new := by
  induction new generalizing es with
  | nil => simp [extend]
  | cons e new ih =>
    have hnew : e.1 ∉ keys es := by
      intro he
      rw [keys_append, List.nodup_append] at h
      exact h.2.2 e.1 he e.1 List.mem_cons_self rfl
    rw [extend_cons, insert_of_not_mem hnew, ih _ (by simpa using h)]
    simp

/-! ## Several writes -/

theorem mem_insert {e : κ × ν} {k : κ} {v : ν} {es : Entries κ ν} (h : e ∈ insert k v es) :
    e = (k, v) ∨ e ∈ es := by
  induction es with
  | nil => exact .inl (by simpa [insert] using h)
  | cons e' es ih =>
    unfold insert at h
    split at h
    · next hk =>
      rcases List.mem_cons.1 h with rfl | h
      · exact .inl (by rw [hk])
      · exact .inr (List.mem_cons_of_mem _ h)
    · rcases List.mem_cons.1 h with rfl | h
      · exact .inr List.mem_cons_self
      · exact (ih h).imp id (List.mem_cons_of_mem _)

theorem mem_extend {e : κ × ν} {es new : Entries κ ν} (h : e ∈ extend es new) :
    e ∈ es ∨ e ∈ new := by
  induction new generalizing es with
  | nil => exact .inl h
  | cons e' new ih =>
    rw [extend_cons] at h
    rcases ih h with h | h
    · rcases mem_insert h with rfl | h
      · exact .inr List.mem_cons_self
      · exact .inl h
    · exact .inr (List.mem_cons_of_mem _ h)

theorem mem_keys_insert {k k' : κ} {v : ν} {es : Entries κ ν} :
    k' ∈ keys (insert k v es) ↔ k' = k ∨ k' ∈ keys es := by
  rw [keys_insert]
  split_ifs with h
  · constructor
    · exact .inr
    · rintro (rfl | h')
      · exact h
      · exact h'
  · rw [List.mem_append, List.mem_singleton, or_comm]

theorem mem_keys_extend {k : κ} {es new : Entries κ ν} :
    k ∈ keys (extend es new) ↔ k ∈ keys es ∨ k ∈ keys new := by
  induction new generalizing es with
  | nil => simp [extend]
  | cons e new ih =>
    rw [extend_cons, ih, mem_keys_insert, keys_cons, List.mem_cons]
    constructor
    · rintro ((h | h) | h)
      · exact .inr (.inl h)
      · exact .inl h
      · exact .inr (.inr h)
    · rintro (h | h | h)
      · exact .inl (.inr h)
      · exact .inl (.inl h)
      · exact .inr h

theorem nodup_keys_extend {es : Entries κ ν} (h : (keys es).Nodup) (new : Entries κ ν) :
    (keys (extend es new)).Nodup := by
  induction new generalizing es with
  | nil => exact h
  | cons e new ih => exact ih (nodup_keys_insert e.1 e.2 h)

/-! ## Look-ups -/

theorem mem_of_get? {k : κ} {v : ν} {es : Entries κ ν} (h : get? k es = some v) :
    (k, v) ∈ es := by
  induction es with
  | nil => contradiction
  | cons e es ih =>
    unfold get? at h
    split at h
    · next hk =>
      obtain rfl : _ = v := by simpa using h
      rw [← hk]
      exact List.mem_cons_self
    · exact List.mem_cons_of_mem _ (ih h)

theorem get?_of_mem {k : κ} {v : ν} {es : Entries κ ν} (hn : (keys es).Nodup)
    (h : (k, v) ∈ es) : get? k es = some v := by
  induction es with
  | nil => contradiction
  | cons e es ih =>
    rw [keys_cons, List.nodup_cons] at hn
    rcases List.mem_cons.1 h with rfl | h
    · simp [get?]
    · have hk : e.1 ≠ k := by
        rintro rfl
        exact hn.1 (List.mem_map.2 ⟨_, h, rfl⟩)
      rw [get?, if_neg hk]
      exact ih hn.2 h

/-- Two tables with the same distinct keys in the same order and the same values are equal. -/
theorem ext_get? {es es' : Entries κ ν} (hk : keys es = keys es') (hn : (keys es).Nodup)
    (h : ∀ k, get? k es = get? k es') : es = es' := by
  induction es generalizing es' with
  | nil =>
    cases es' with
    | nil => rfl
    | cons e' es' => contradiction
  | cons e es ih =>
    cases es' with
    | nil => contradiction
    | cons e' es' =>
      obtain ⟨k, v⟩ := e
      obtain ⟨k', v'⟩ := e'
      simp only [keys_cons, List.cons.injEq] at hk
      obtain ⟨rfl, hk⟩ := hk
      obtain rfl : v = v' := by simpa [get?] using h k
      rw [keys_cons, List.nodup_cons] at hn
      rw [ih hk hn.2]
      intro k'
      by_cases he : k' = k
      · subst he
        rw [(get?_eq_none_iff k' es).2 hn.1, (get?_eq_none_iff k' es').2 (hk ▸ hn.1)]
      · have hne : k ≠ k' := fun e => he e.symm
        simpa [get?, hne] using h k'

/-! ## Parts of a table -/

/-- With distinct keys, what stands under one key is what a look-up finds. -/
theorem filter_key {es : Entries κ ν} (hn : (keys es).Nodup) (k : κ) :
    es.filter (fun e => e.1 = k) = ((get? k es).map fun v => (k, v)).toList := by
  induction es with
  | nil => rfl
  | cons e es ih =>
    rw [keys_cons, List.nodup_cons] at hn
    obtain ⟨k', v⟩ := e
    by_cases hk : k' = k
    · subst hk
      have hnone : get? k' es = none := (get?_eq_none_iff k' es).2 hn.1
      simp [get?, ih hn.2, hnone]
    · simp [get?, hk, ih hn.2]

/-- Two parts of a table without a common entry have no common key. -/
theorem nodup_keys_filter_append {es : Entries κ ν} (hn : (keys es).Nodup) {p q : κ × ν → Bool}
    (hpq : ∀ e, p e = true → q e = false) : (keys (es.filter p ++ es.filter q)).Nodup := by
  have hsub : ∀ r : κ × ν → Bool, (keys (es.filter r)).Nodup :=
    fun r => hn.sublist (List.filter_sublist.map _)
  rw [keys_append, List.nodup_append]
  refine ⟨hsub p, hsub q, ?_⟩
  rintro k hp k' hq rfl
  obtain ⟨⟨k, v⟩, he, rfl⟩ := List.mem_map.1 hp
  obtain ⟨⟨k', v'⟩, he', hk⟩ := List.mem_map.1 hq
  obtain rfl : k' = k := hk
  obtain ⟨hmem, hpe⟩ := List.mem_filter.1 he
  obtain ⟨hmem', hqe⟩ := List.mem_filter.1 he'
  have hv := get?_of_mem hn hmem
  rw [get?_of_mem hn hmem'] at hv
  obtain rfl : v' = v := by simpa using hv
  rw [hpq _ hpe] at hqe
  contradiction

theorem erase_insert (k : κ) (v : ν) (es : Entries κ ν) : erase k (insert k v es) = erase k es := by
  induction es with
  | nil => simp [insert, erase]
  | cons e es ih =>
    simp only [erase] at ih ⊢
    rw [insert]
    split_ifs with hk
    · simp [hk]
    · rw [List.filter_cons, List.filter_cons, ih]

/-- The last entry is changed if its key is not present before. -/
theorem alter_append {k : κ} {es : Entries κ ν} (h : k ∉ keys es) (f : Option ν → ν) (v : ν) :
    alter k f (es ++ [(k, v)]) = es ++ [(k, f (some v))] := by
  induction es with
  | nil => simp [alter]
  | cons e es ih =>
    rw [keys_cons, List.mem_cons, not_or] at h
    rw [List.cons_append, alter, if_neg fun he => h.1 he.symm, ih h.2, List.cons_append]

/-! ## Tables in which keys are repeated -/

theorem get?_append (k : κ) (es es' : Entries κ ν) :
    get? k (es ++ es') = (get? k es).or (get? k es') := by
  induction es with
  | nil => rfl
  | cons e es ih =>
    rw [List.cons_append, get?, get?, ih]
    split_ifs <;> rfl

/-- After several writes, the last one under a key counts. -/
theorem get?_extend (k : κ) (es new : Entries κ ν) :
    get? k (extend es new) = (get? k new.reverse).or (get? k es) := by
  induction new generalizing es with
  | nil => rfl
  | cons e new ih =>
    rw [extend_cons, ih, get?_insert, List.reverse_cons, get?_append, Option.or_assoc]
    obtain ⟨k', v⟩ := e
    rw [get?]
    split_ifs <;> rfl

theorem get?_extend_nil (k : κ) (new : Entries κ ν) :
    get? k (extend [] new) = get? k new.reverse := by
  rw [get?_extend, get?, Option.or_none]

/-- Entries that are chosen from a list are found under the keys that are chosen. -/
theorem get?_filterMap {α : Type} (k : κ) (g : α → Option (κ × ν)) (as : List α) :
    get? k (as.filterMap g) =
      (as.find? fun a => (g a).map Prod.fst = some k).bind fun a => (g a).map Prod.snd := by
  induction as with
  | nil => rfl
  | cons a as ih =>
    cases hg : g a with
    | none => rw [List.filterMap_cons_none hg, ih, List.find?_cons_of_neg (by simp [hg])]
    | some e =>
      obtain ⟨k', v⟩ := e
      rw [List.filterMap_cons_some hg, get?]
      by_cases hk : k' = k
      · rw [if_pos hk, List.find?_cons_of_pos (by simp [hg, hk]), Option.bind_some, hg,
          Option.map_some]
      · rw [if_neg hk, List.find?_cons_of_neg (by simp [hg, hk]), ih]

/-- The keys of a table after several writes depend only on the keys that are written. -/
theorem keys_extend_congr {es es' new new' : Entries κ ν} (h : keys es = keys es')
    (hnew : keys new = keys new') : keys (extend es new) = keys (extend es' new') := by
  induction new generalizing es es' new' with
  | nil =>
    cases new' with
    | nil => exact h
    | cons e new' => contradiction
  | cons e new ih =>
    cases new' with
    | nil => contradiction
    | cons e' new' =>
      rw [keys_cons, keys_cons, List.cons.injEq] at hnew
      rw [extend_cons, extend_cons]
      refine ih ?_ hnew.2
      rw [keys_insert, keys_insert, h, hnew.1]

theorem exists_split_of_mem_keys {k : κ} {es : Entries κ ν} (h : k ∈ keys es) :
    ∃ before w after, es = before ++ (k, w) :: after ∧ k ∉ keys before := by
  induction es with
  | nil => contradiction
  | cons e es ih =>
    obtain ⟨k', v⟩ := e
    by_cases hk : k' = k
    · exact ⟨[], v, es, by rw [hk]; rfl, by simp⟩
    · have hmem : k ∈ keys es := by
        rcases List.mem_cons.1 h with he | he
        · exact absurd he.symm hk
        · exact he
      obtain ⟨before, w, after, rfl, hbefore⟩ := ih hmem
      refine ⟨(k', v) :: before, w, after, rfl, ?_⟩
      rw [keys_cons, List.mem_cons, not_or]
      exact ⟨fun he => hk he.symm, hbefore⟩

/-- Writing the first entry of a key shows at its last one only if they are the same. -/
theorem get?_reverse_insert {k : κ} {es : Entries κ ν} (h : k ∈ keys es) (v : ν) (k' : κ) :
    get? k' (insert k v es).reverse =
      if k = k' ∧ (keys es).count k ≤ 1 then some v else get? k' es.reverse := by
  obtain ⟨before, w, after, rfl, hbefore⟩ := exists_split_of_mem_keys h
  have hcount : (keys (before ++ (k, w) :: after)).count k = 1 + (keys after).count k := by
    rw [keys_append, keys_cons, List.count_append, List.count_cons_self,
      List.count_eq_zero.2 hbefore]
    omega
  have hreverse : ∀ u : ν, get? k' (before ++ (k, u) :: after).reverse =
      (get? k' after.reverse).or (if k = k' then some u else get? k' before.reverse) := by
    intro u
    rw [List.reverse_append, List.reverse_cons, List.append_assoc, get?_append]
    rfl
  rw [insert_append_cons hbefore, hreverse, hreverse, hcount]
  by_cases hk : k = k'
  · subst hk
    by_cases hafter : k ∈ keys after
    · have hpos : 0 < (keys after).count k := List.count_pos_iff.2 hafter
      have hsome : get? k after.reverse ≠ none := by
        rw [ne_eq, get?_eq_none_iff, not_not]
        simpa [keys] using hafter
      obtain ⟨u, hu⟩ := Option.ne_none_iff_exists'.1 hsome
      have hnot : ¬ (k = k ∧ 1 + (keys after).count k ≤ 1) := by
        rintro ⟨-, hle⟩
        omega
      rw [if_neg hnot, hu, Option.some_or, Option.some_or]
    · have hzero : (keys after).count k = 0 := List.count_eq_zero.2 hafter
      have hnone : get? k after.reverse = none := by
        rw [get?_eq_none_iff]
        simpa [keys] using hafter
      rw [if_pos rfl, if_pos ⟨rfl, by omega⟩, hnone]
      rfl
  · rw [if_neg hk, if_neg fun he => hk he.1, if_neg hk]

end LsxKit.Entries
