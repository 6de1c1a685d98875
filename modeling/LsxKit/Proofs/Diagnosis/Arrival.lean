import LsxKit.Diagnosis.Store
import Mathlib.Data.List.Nodup

/-!
# Problems that arrive in any order

Problems are published for versions of documents, and a slow check of an old version may end after
a quick one of a new version. What is stored for a document is decided by the versions alone.

* `Call.report?`: the report that a call brings for a document, if it brings one.
* `get?_call`, `get?_run`: what is stored for a document after a call, and after several.
* `foldl_replace_newest`: of reports that arrive one after the other, the newest is left.
* `run_perm`: reports of different versions leave the newest one, whatever the order of the calls.
-/

namespace LsxKit

/-- What is stored when a report arrives: a stored one is kept only if it is newer. -/
def Report.replace (stored : Option Report) (r : Report) : Option Report :=
  match stored with
  | some old => if old.version ≤ r.version then some r else some old
  | none => some r

namespace Store

/-- A call that may bring the problems of a document. -/
inductive Call where
  | publish (uri : String) (version : Int) (problems : List Problem)
  | update (engines : List Engine) (d : TextDocument)

/-- The report that a call brings for the document `uri`. Checking a document brings one if some
engine applies to it. -/
def Call.report? (uri : String) : Call → Option Report
  | .publish uri' version problems => if uri' = uri then some ⟨version, problems⟩ else none
  | .update engines d =>
    if d.uri = uri ∧ ∃ e ∈ engines, e.applies d = true then
      some ⟨d.version, (engines.filter (·.applies d)).flatMap (·.problems d)⟩
    else none

/-- The store after a call. -/
def call (s : Store) : Call → Store
  | .publish uri version problems => (s.publish uri version problems).1
  | .update engines d => (s.update engines d).1

/-- The store after calls, one after the other. -/
def run (s : Store) (calls : List Call) : Store := calls.foldl call s

/-- The reports that calls bring for a document, in order of arrival. -/
def arrivals (uri : String) (calls : List Call) : List Report := calls.filterMap (·.report? uri)

variable {s : Store} {uri : String} {calls : List Call} {r : Report} {stored : Option Report}

/-! ## What is stored after calls -/

theorem accepts_iff {version : Int} :
    s.accepts uri version = true ↔ ∀ old ∈ s.reports.get? uri, old.version ≤ version := by
  unfold accepts
  cases s.reports.get? uri <;> simp

theorem replace_of_accepts (h : s.accepts uri r.version = true) :
    r.replace (s.reports.get? uri) = some r := by
  rw [accepts_iff] at h
  cases hstored : s.reports.get? uri with
  | none => rfl
  | some old => rw [Report.replace, if_pos (h old hstored)]

theorem replace_of_not_accepts (h : ¬ s.accepts uri r.version = true) :
    r.replace (s.reports.get? uri) = s.reports.get? uri := by
  simp only [accepts_iff, not_forall] at h
  obtain ⟨old, hstored, hnewer⟩ := h
  rw [Option.mem_def.1 hstored, Report.replace, if_neg hnewer]

/-- Publishing replaces the report of one document, unless a newer one is stored. -/
theorem get?_publish (s : Store) (uri' uri : String) (r : Report) :
    (s.publish uri' r.version r.problems).1.reports.get? uri =
      if uri' = uri then r.replace (s.reports.get? uri) else s.reports.get? uri := by
  unfold publish
  split_ifs with haccepts huri huri
  · subst huri
    rw [Entries.get?_insert, if_pos rfl, replace_of_accepts haccepts]
  · rw [Entries.get?_insert, if_neg huri]
  · subst huri
    rw [replace_of_not_accepts haccepts]
  · rfl

/-- A call replaces the report of a document by the one that it brings, unless a newer one is
stored. -/
theorem get?_call (s : Store) (c : Call) (uri : String) :
    (s.call c).reports.get? uri =
      (c.report? uri).elim (s.reports.get? uri) (Report.replace (s.reports.get? uri)) := by
  cases c with
  | publish uri' version problems =>
    have h := get?_publish s uri' uri ⟨version, problems⟩
    rw [call, h, Call.report?]
    split_ifs <;> rfl
  | update engines d =>
    rw [call, update, Call.report?]
    split
    · next hnone =>
      have hnot : ¬ (d.uri = uri ∧ ∃ e ∈ engines, e.applies d = true) := by
        rintro ⟨-, e, he, happlies⟩
        exact absurd (List.mem_filter.2 ⟨he, happlies⟩) (hnone ▸ List.not_mem_nil)
      rw [if_neg hnot]
      rfl
    · next applicable hsome =>
      obtain ⟨e, he⟩ := List.exists_mem_of_ne_nil _ hsome
      have hexists : ∃ e ∈ engines, e.applies d = true := ⟨e, List.mem_filter.1 he⟩
      have h := get?_publish s d.uri uri
        ⟨d.version, (engines.filter (·.applies d)).flatMap (·.problems d)⟩
      rw [h]
      by_cases huri : d.uri = uri
      · rw [if_pos huri, if_pos ⟨huri, hexists⟩]
        rfl
      · rw [if_neg huri, if_neg fun hboth => huri hboth.1]
        rfl

/-- After several calls, every report that they brought for a document has replaced the one before,
unless that was newer. -/
theorem get?_run (s : Store) (calls : List Call) (uri : String) :
    (s.run calls).reports.get? uri =
      (arrivals uri calls).foldl (fun stored r => r.replace stored) (s.reports.get? uri) := by
  induction calls generalizing s with
  | nil => rfl
  | cons c calls ih =>
    have hrun : s.run (c :: calls) = (s.call c).run calls := rfl
    rw [hrun, ih, get?_call]
    cases hreport : c.report? uri with
    | none => simp [arrivals, hreport]
    | some r => simp [arrivals, hreport]

/-! ## Which report is left -/

/-- What is stored after a report arrived is that report or was stored before. -/
theorem mem_replace {old : Report} (h : old ∈ r.replace stored) : old = r ∨ old ∈ stored := by
  cases stored with
  | none => exact .inl (Option.some.inj h).symm
  | some old' =>
    rw [Report.replace] at h
    split_ifs at h
    · exact .inl (Option.some.inj h).symm
    · exact .inr h

/-- The newest report stays when older ones arrive. -/
theorem foldl_replace_older {rs : List Report}
    (holder : ∀ r' ∈ rs, r' = r ∨ r'.version < r.version) :
    rs.foldl (fun stored r => r.replace stored) (some r) = some r := by
  induction rs with
  | nil => rfl
  | cons r' rs ih =>
    rw [List.forall_mem_cons] at holder
    have hkept : r'.replace (some r) = some r := by
      rcases holder.1 with rfl | hlt
      · rw [Report.replace, if_pos (Int.le_refl _)]
      · rw [Report.replace, if_neg (Int.not_le.2 hlt)]
    rw [List.foldl_cons, hkept, ih holder.2]

/-- Of reports that arrive one after the other, the newest is left. -/
theorem foldl_replace_newest {rs : List Report} (hr : r ∈ rs)
    (holder : ∀ r' ∈ rs, r' = r ∨ r'.version < r.version)
    (hstored : ∀ old ∈ stored, old.version ≤ r.version) :
    rs.foldl (fun stored r => r.replace stored) stored = some r := by
  induction rs generalizing stored with
  | nil => contradiction
  | cons r' rs ih =>
    rw [List.forall_mem_cons] at holder
    rw [List.foldl_cons]
    rcases holder.1 with rfl | hlt
    · have harrived : r'.replace stored = some r' := by
        cases stored with
        | none => rfl
        | some old => rw [Report.replace, if_pos (hstored old rfl)]
      rw [harrived, foldl_replace_older holder.2]
    · have hmem : r ∈ rs :=
        (List.mem_cons.1 hr).resolve_left fun he => Int.lt_irrefl _ (he ▸ hlt)
      refine ih hmem holder.2 fun old hold => ?_
      rcases mem_replace hold with rfl | hold
      · exact Int.le_of_lt hlt
      · exact hstored old hold

/-- Of reports of different versions, the one of the greatest version is newer than all others. -/
theorem eq_or_lt_of_greatest {rs : List Report} (hdistinct : (rs.map Report.version).Nodup)
    (hr : r ∈ rs) (hgreatest : ∀ r' ∈ rs, r'.version ≤ r.version) :
    ∀ r' ∈ rs, r' = r ∨ r'.version < r.version := by
  intro r' hr'
  rcases Int.lt_or_eq_of_le (hgreatest r' hr') with hlt | heq
  · exact .inr hlt
  · exact .inl (List.inj_on_of_nodup_map hdistinct hr' hr heq)

/-- A list of reports has one of the greatest version. -/
theorem exists_greatest {rs : List Report} (h : rs ≠ []) :
    ∃ r ∈ rs, ∀ r' ∈ rs, r'.version ≤ r.version := by
  induction rs with
  | nil => contradiction
  | cons r rs ih =>
    by_cases hrs : rs = []
    · subst hrs
      exact ⟨r, List.mem_singleton_self r, by simp⟩
    · obtain ⟨r', hr', hgreatest⟩ := ih hrs
      by_cases hle : r.version ≤ r'.version
      · exact ⟨r', List.mem_cons_of_mem r hr', List.forall_mem_cons.2 ⟨hle, hgreatest⟩⟩
      · refine ⟨r, List.mem_cons_self, List.forall_mem_cons.2 ⟨Int.le_refl _, fun r'' hr'' => ?_⟩⟩
        have := hgreatest r'' hr''
        omega

/-- Reports of different versions, all newer than what is stored, leave the one of the greatest
version. -/
theorem get?_run_greatest (hdistinct : ((arrivals uri calls).map Report.version).Nodup)
    (hnewer : ∀ stored ∈ s.version? uri, ∀ r ∈ arrivals uri calls, stored < r.version)
    (hr : r ∈ arrivals uri calls)
    (hgreatest : ∀ r' ∈ arrivals uri calls, r'.version ≤ r.version) :
    (s.run calls).reports.get? uri = some r := by
  rw [get?_run]
  refine foldl_replace_newest hr (eq_or_lt_of_greatest hdistinct hr hgreatest) fun old hold => ?_
  have hversion : old.version ∈ s.version? uri := by
    rw [version?, Option.mem_def.1 hold]
    rfl
  exact Int.le_of_lt (hnewer old.version hversion r hr)

/-- Calls that bring reports of different versions of a document, all newer than the stored one,
leave the report of the greatest version, whatever their order. -/
theorem run_perm {calls' : List Call} (hperm : calls'.Perm calls)
    (hdistinct : ((arrivals uri calls).map Report.version).Nodup)
    (hnewer : ∀ stored ∈ s.version? uri, ∀ r ∈ arrivals uri calls, stored < r.version) :
    ((s.run calls').get? uri = (s.run calls).get? uri ∧
      (s.run calls').version? uri = (s.run calls).version? uri) ∧
    (∀ r ∈ arrivals uri calls, (∀ r' ∈ arrivals uri calls, r'.version ≤ r.version) →
      (s.run calls').get? uri = some r.problems ∧ (s.run calls').version? uri = some r.version) ∧
    (arrivals uri calls = [] →
      (s.run calls').get? uri = s.get? uri ∧ (s.run calls').version? uri = s.version? uri) := by
  have harrivals : (arrivals uri calls').Perm (arrivals uri calls) := hperm.filterMap _
  have hgreatest : ∀ r ∈ arrivals uri calls, (∀ r' ∈ arrivals uri calls, r'.version ≤ r.version) →
      (s.run calls').reports.get? uri = some r := by
    intro r hr hgreatest
    refine get?_run_greatest ((harrivals.map _).nodup_iff.2 hdistinct) ?_
      (harrivals.mem_iff.2 hr) ?_
    · exact fun stored hstored r' hr' => hnewer stored hstored r' (harrivals.mem_iff.1 hr')
    · exact fun r' hr' => hgreatest r' (harrivals.mem_iff.1 hr')
  have hnone : arrivals uri calls = [] →
      (s.run calls').reports.get? uri = s.reports.get? uri := by
    intro hnil
    rw [hnil] at harrivals
    rw [get?_run, harrivals.eq_nil]
    rfl
  have hsame : (s.run calls').reports.get? uri = (s.run calls).reports.get? uri := by
    by_cases hnil : arrivals uri calls = []
    · rw [hnone hnil, get?_run, hnil]
      rfl
    · obtain ⟨r, hr, hmax⟩ := exists_greatest hnil
      rw [hgreatest r hr hmax, get?_run_greatest hdistinct hnewer hr hmax]
  simp only [get?, version?]
  refine ⟨⟨by rw [hsame], by rw [hsame]⟩, fun r hr hmax => ?_, fun hnil => ?_⟩
  · rw [hgreatest r hr hmax]
    exact ⟨rfl, rfl⟩
  · rw [hnone hnil]
    exact ⟨rfl, rfl⟩

/-- Calls for one document in the order of their versions; the last one checks the document with an
engine for all documents. -/
def threeCalls : List Call :=
  [.publish "a" 2 [], .publish "a" 3 [⟨.error, "S", none, "late", ⟨⟨0, 0⟩, ⟨0, 1⟩⟩⟩],
    .update [⟨"S", ⟨Schema.any, []⟩, fun _ => true, .standard⟩] ⟨"a", "xml", 4, "<a/>"⟩]

/-- The check of the newest version ends first, and its result stays. -/
theorem run_perm_late :
    ((Store.mk [("a", ⟨1, []⟩)]).run threeCalls.reverse).version? "a" = some 4 ∧
      ((Store.mk [("a", ⟨1, []⟩)]).run threeCalls.reverse).get? "a" =
        ((Store.mk [("a", ⟨1, []⟩)]).run threeCalls).get? "a" := by
  have hdistinct : ((arrivals "a" threeCalls).map Report.version).Nodup := by decide +kernel
  have hnewer : ∀ stored ∈ (Store.mk [("a", ⟨1, []⟩)]).version? "a",
      ∀ r ∈ arrivals "a" threeCalls, stored < r.version := by decide +kernel
  obtain ⟨⟨hget, -⟩, hgreatest, -⟩ := run_perm (List.reverse_perm threeCalls) hdistinct hnewer
  obtain ⟨r, hr, hmax, hversion⟩ : ∃ r ∈ arrivals "a" threeCalls,
      (∀ r' ∈ arrivals "a" threeCalls, r'.version ≤ r.version) ∧ r.version = 4 := by
    decide +kernel
  exact ⟨hversion ▸ (hgreatest r hr hmax).2, hget⟩

end Store

end LsxKit
