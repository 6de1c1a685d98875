import LsxKit.Proofs.Diagnosis.Arrival
import LsxKit.Proofs.Entries
import Mathlib.Data.List.Induction
import Mathlib.Data.Nat.Find

/-!
# Documents that come and go

Documents are published, checked and closed in any order. What is stored for one of them is decided
by the operations on it, and the order of the documents by when each of them came.

* `Operation`: what may happen to the stored problems; `after`: what is stored then.
* `get?_after_filter`: operations on other documents change nothing for a document.
* `version_le_of_not_removed`: a stored version is only replaced by a later one.
* `TrackedFrom`: the first accepted publish of a document since it was last removed.
* `uris_perform`: what one operation does to the order of the documents.
* `inOrder_after`: the documents stand in the order in which they were first published.
* `after_tracked`: all that is known of the store after any operations.
-/

namespace LsxKit.Store

/-- The documents, in order. -/
def uris (s : Store) : List String := s.toList.map Prod.fst

/-- The document that a call is for. -/
def Call.uri : Call → String
  | .publish uri _ _ => uri
  | .update _ d => d.uri

/-- Whether a call tells that it stored problems. -/
def Call.accepted (s : Store) : Call → Bool
  | .publish uri version problems => (s.publish uri version problems).2
  | .update engines d => (s.update engines d).2

/-- What may happen to the stored problems. -/
inductive Operation where
  | call (c : Call)
  | close (uri : String)
  | clear

/-- Whether an operation is for a document or for all documents. -/
def Operation.concerns (uri : String) : Operation → Bool
  | .call c => c.uri = uri
  | .close uri' => uri' = uri
  | .clear => true

/-- Whether an operation removes a document. -/
def Operation.removes (uri : String) : Operation → Bool
  | .call _ => false
  | .close uri' => uri' = uri
  | .clear => true

/-- Whether an operation stores problems of a document. -/
def Operation.stores (s : Store) (uri : String) : Operation → Bool
  | .call c => c.uri = uri && c.accepted s
  | .close _ => false
  | .clear => false

/-- The store after an operation. -/
def perform (s : Store) : Operation → Store
  | .call c => s.call c
  | .close uri => (s.close uri).1
  | .clear => s.clear

/-- The store after operations, one after the other. -/
def performAll (s : Store) (ops : List Operation) : Store := ops.foldl perform s

/-- What is stored after operations that begin with no documents. -/
def after (ops : List Operation) : Store := empty.performAll ops

/-- The operation at an index does something, given the store that it finds. -/
def HappensAt (p : Store → Operation → Bool) (ops : List Operation) (i : Nat) : Prop :=
  ∃ o, ops[i]? = some o ∧ p (after (ops.take i)) o = true

/-- The operation at an index stores problems of a document. -/
def StoredAt (ops : List Operation) (uri : String) (i : Nat) : Prop :=
  HappensAt (fun s o => o.stores s uri) ops i

/-- The operation at an index removes a document. -/
def RemovedAt (ops : List Operation) (uri : String) (i : Nat) : Prop :=
  HappensAt (fun _ o => o.removes uri) ops i

/-- The operation at an index is the first accepted publish of a document since it was last
removed. -/
structure TrackedFrom (ops : List Operation) (uri : String) (i : Nat) : Prop where
  /-- It stores problems of the document. -/
  stored : StoredAt ops uri i
  /-- The document is not removed later. -/
  kept : ∀ j, i < j → ¬ RemovedAt ops uri j
  /-- Whatever was stored for the document before has been removed. -/
  first : ∀ j, j < i → StoredAt ops uri j → ∃ k, j < k ∧ k < i ∧ RemovedAt ops uri k

variable {s s' : Store} {o : Operation} {ops later : List Operation} {uri : String} {i : Nat}

/-! ## One document -/

theorem performAll_append (s : Store) (ops later : List Operation) :
    s.performAll (ops ++ later) = (s.performAll ops).performAll later :=
  List.foldl_append

theorem after_append (ops later : List Operation) :
    after (ops ++ later) = (after ops).performAll later :=
  performAll_append empty ops later

theorem after_concat (ops : List Operation) (o : Operation) :
    after (ops ++ [o]) = (after ops).perform o :=
  after_append ops [o]

/-- A call for another document brings no report. -/
theorem report?_eq_none {c : Call} (h : c.uri ≠ uri) : c.report? uri = none := by
  cases c with
  | publish uri' version problems => exact if_neg h
  | update engines d => exact if_neg fun hboth => h hboth.1

theorem get?_close (s : Store) (uri' uri : String) :
    (s.close uri').1.reports.get? uri = if uri' = uri then none else s.reports.get? uri :=
  Entries.get?_erase uri' uri s.reports

/-- What is stored for a document after an operation is decided by what was stored for it. -/
theorem get?_perform_congr (h : s.reports.get? uri = s'.reports.get? uri) (o : Operation) :
    (s.perform o).reports.get? uri = (s'.perform o).reports.get? uri := by
  cases o with
  | call c =>
    rw [perform, perform, get?_call, get?_call, h]
  | close uri' =>
    rw [perform, perform, get?_close, get?_close, h]
  | clear => rfl

/-- An operation on another document changes nothing for a document. -/
theorem get?_perform_of_not_concerns (s : Store) (h : o.concerns uri = false) :
    (s.perform o).reports.get? uri = s.reports.get? uri := by
  cases o with
  | call c =>
    rw [perform, get?_call, report?_eq_none (of_decide_eq_false h)]
    rfl
  | close uri' =>
    rw [perform, get?_close, if_neg (of_decide_eq_false h)]
  | clear => contradiction

/-- What is stored for a document depends only on the operations that concern it. -/
theorem get?_performAll_filter (h : s.reports.get? uri = s'.reports.get? uri)
    (ops : List Operation) :
    (s.performAll ops).reports.get? uri =
      (s'.performAll (ops.filter (·.concerns uri))).reports.get? uri := by
  induction ops generalizing s s' with
  | nil => exact h
  | cons o ops ih =>
    by_cases ho : o.concerns uri = true
    · rw [List.filter_cons_of_pos ho]
      exact ih (get?_perform_congr h o)
    · rw [List.filter_cons_of_neg ho]
      exact ih ((get?_perform_of_not_concerns s (eq_false_of_ne_true ho)).trans h)

theorem get?_after_filter (ops : List Operation) (uri : String) :
    (after ops).reports.get? uri =
      (after (ops.filter (·.concerns uri))).reports.get? uri :=
  get?_performAll_filter rfl ops

/-- A report that arrives leaves one whose version is not smaller. -/
theorem version_le_replace (r : Report) {old : Report} :
    ∃ new ∈ r.replace (some old), old.version ≤ new.version := by
  rw [Report.replace]
  split_ifs with hle
  · exact ⟨r, rfl, hle⟩
  · exact ⟨old, rfl, Int.le_refl _⟩

/-- An operation that does not remove a document leaves a report of it whose version is not
smaller. -/
theorem version_le_perform (h : o.removes uri = false) {old : Report}
    (hold : s.reports.get? uri = some old) :
    ∃ new ∈ (s.perform o).reports.get? uri, old.version ≤ new.version := by
  cases o with
  | call c =>
    rw [perform, get?_call, hold]
    cases c.report? uri with
    | none => exact ⟨old, rfl, Int.le_refl _⟩
    | some r => exact version_le_replace r
  | close uri' =>
    rw [perform, get?_close, if_neg (of_decide_eq_false h)]
    exact ⟨old, hold, Int.le_refl _⟩
  | clear => contradiction

/-- As long as a document is not removed, its stored version never decreases. -/
theorem version_le_of_not_removed (h : ∀ o ∈ later, o.removes uri = false) {v : Int}
    (hv : v ∈ s.version? uri) : ∃ w ∈ (s.performAll later).version? uri, v ≤ w := by
  induction later generalizing s v with
  | nil => exact ⟨v, hv, Int.le_refl v⟩
  | cons o later ih =>
    rw [List.forall_mem_cons] at h
    obtain ⟨old, hold, rfl⟩ := Option.map_eq_some_iff.1 hv
    obtain ⟨new, hnew, hle⟩ := version_le_perform h.1 hold
    obtain ⟨w, hw, hle'⟩ := ih h.2 (Option.mem_map_of_mem Report.version hnew)
    exact ⟨w, hw, Int.le_trans hle hle'⟩

/-! ## Rejected calls -/

theorem accepted_publish (s : Store) (uri : String) (version : Int) (problems : List Problem) :
    (s.publish uri version problems).2 = s.accepts uri version := by
  rw [publish]
  split_ifs with h
  · exact h.symm
  · exact (eq_false_of_ne_true h).symm

/-- Problems are rejected exactly if those of a newer version are stored. -/
theorem rejected_iff (s : Store) (uri : String) (version : Int) (problems : List Problem) :
    (s.publish uri version problems).2 = false ↔ ∃ newer ∈ s.version? uri, version < newer := by
  rw [accepted_publish, ← Bool.not_eq_true, accepts_iff, version?]
  cases s.reports.get? uri <;> simp

/-- Publishing changes nothing, or it writes a report of its document. -/
theorem publish_cases (s : Store) (uri : String) (version : Int) (problems : List Problem) :
    s.publish uri version problems = (s, false) ∨
      s.publish uri version problems = (⟨s.reports.insert uri ⟨version, problems⟩⟩, true) := by
  rw [publish]
  split_ifs with h
  · exact .inr rfl
  · exact .inl rfl

/-- A call is rejected and changes nothing, or it is accepted and writes a report of its
document. -/
theorem call_cases (s : Store) (c : Call) :
    (c.accepted s = false ∧ s.call c = s) ∨
      (c.accepted s = true ∧ ∃ r, s.call c = ⟨s.reports.insert c.uri r⟩) := by
  cases c with
  | publish uri version problems =>
    rw [Call.accepted, call]
    rcases publish_cases s uri version problems with h | h
    · rw [h]
      exact .inl ⟨rfl, rfl⟩
    · rw [h]
      exact .inr ⟨rfl, _, rfl⟩
  | update engines d =>
    rw [Call.accepted, call, update]
    split
    · exact .inl ⟨rfl, rfl⟩
    · rcases publish_cases s d.uri d.version
        ((engines.filter (·.applies d)).flatMap (·.problems d)) with h | h
      · rw [h]
        exact .inl ⟨rfl, rfl⟩
      · rw [h]
        exact .inr ⟨rfl, _, rfl⟩

theorem call_eq_self {c : Call} (h : c.accepted s = false) : s.call c = s := by
  rcases call_cases s c with ⟨-, heq⟩ | ⟨haccepted, -⟩
  · exact heq
  · exact absurd haccepted (ne_true_of_eq_false h)

/-! ## The order of the documents -/

theorem uris_eq_keys (s : Store) : s.uris = s.reports.keys := by
  rw [uris, toList, List.map_map]
  rfl

/-- What an operation does to the order of the documents: it puts a new one at the end, or it takes
those away that it removes. -/
theorem uris_perform (s : Store) (o : Operation) :
    (∃ uri ∉ s.uris, o.stores s uri = true ∧ (s.perform o).uris = s.uris ++ [uri]) ∨
      ((∀ uri, o.stores s uri = true → uri ∈ s.uris) ∧
        (s.perform o).uris = s.uris.filter fun uri => o.removes uri = false) := by
  cases o with
  | call c =>
    have hall : s.uris.filter (fun uri => (Operation.call c).removes uri = false) = s.uris :=
      List.filter_eq_self.2 fun _ _ => rfl
    rw [hall]
    simp only [Operation.stores, Bool.and_eq_true, decide_eq_true_eq, uris_eq_keys, perform]
    rcases call_cases s c with ⟨hrejected, hcall⟩ | ⟨haccepted, r, hcall⟩
    · rw [hcall]
      exact .inr ⟨fun uri h => absurd h.2 (ne_true_of_eq_false hrejected), rfl⟩
    · rw [hcall, Entries.keys_insert]
      split_ifs with hmem
      · exact .inr ⟨fun uri h => h.1 ▸ hmem, rfl⟩
      · exact .inl ⟨c.uri, hmem, ⟨rfl, haccepted⟩, rfl⟩
  | close uri' =>
    refine .inr ⟨fun _ h => by contradiction, ?_⟩
    rw [uris_eq_keys, uris_eq_keys, perform, close, Entries.erase, Entries.keys, Entries.keys,
      List.filter_map]
    simp [Operation.removes, Function.comp_def, eq_comm]
  | clear =>
    refine .inr ⟨fun _ h => by contradiction, ?_⟩
    simp [Operation.removes, perform, clear, empty, uris, toList]

/-! ## Since when a document is tracked -/

theorem HappensAt.lt {p : Store → Operation → Bool} (h : HappensAt p ops i) : i < ops.length := by
  obtain ⟨o, ho, -⟩ := h
  exact (List.getElem?_eq_some_iff.1 ho).1

theorem happensAt_concat_iff {p : Store → Operation → Bool} :
    HappensAt p (ops ++ [o]) i ↔
      HappensAt p ops i ∨ (i = ops.length ∧ p (after ops) o = true) := by
  rcases Nat.lt_trichotomy i ops.length with hlt | rfl | hgt
  · rw [HappensAt, HappensAt, List.getElem?_append_left hlt,
      List.take_append_of_le_length (Nat.le_of_lt hlt)]
    simp [Nat.ne_of_lt hlt]
  · have hnot : ¬ HappensAt p ops ops.length := fun h => Nat.lt_irrefl _ h.lt
    rw [or_iff_right hnot, HappensAt]
    simp
  · have hnot : ¬ HappensAt p (ops ++ [o]) i := by
      intro h
      have hlt := h.lt
      rw [List.length_append, List.length_singleton] at hlt
      omega
    refine iff_of_false hnot ?_
    rintro (h | ⟨rfl, -⟩)
    · exact Nat.lt_asymm hgt h.lt
    · exact Nat.lt_irrefl _ hgt

/-- An operation that stores problems removes nothing. -/
theorem not_removes_of_stores {uri' : String} (h : o.stores s uri = true) :
    o.removes uri' = false := by
  cases o with
  | call c => rfl
  | close uri' => contradiction
  | clear => contradiction

/-- An operation stores problems of one document at most. -/
theorem eq_of_stores {uri' : String} (h : o.stores s uri = true) (h' : o.stores s uri' = true) :
    uri' = uri := by
  cases o with
  | call c =>
    simp only [Operation.stores, Bool.and_eq_true, decide_eq_true_eq] at h h'
    exact h'.1.symm.trans h.1
  | close uri' => contradiction
  | clear => contradiction

theorem StoredAt.not_removedAt (h : StoredAt ops uri i) : ¬ RemovedAt ops uri i := by
  rintro ⟨o', ho', hremoves⟩
  obtain ⟨o, ho, hstores⟩ := h
  obtain rfl : o = o' := Option.some.inj (ho.symm.trans ho')
  exact ne_true_of_eq_false (not_removes_of_stores hstores) hremoves

/-- A document that was stored and not removed since is tracked from some operation on. -/
theorem exists_trackedFrom (hstored : StoredAt ops uri i)
    (hkept : ∀ j, i < j → ¬ RemovedAt ops uri j) : ∃ j, TrackedFrom ops uri j := by
  have hexists : ∃ i, StoredAt ops uri i ∧ ∀ j, i < j → ¬ RemovedAt ops uri j :=
    ⟨i, hstored, hkept⟩
  classical
  obtain ⟨hstored', hkept'⟩ := Nat.find_spec hexists
  refine ⟨Nat.find hexists, hstored', hkept', fun j hj hstoredj => ?_⟩
  have hremoved : ∃ k, j < k ∧ RemovedAt ops uri k := by
    by_contra hnone
    exact Nat.find_min hexists hj ⟨hstoredj, fun k hk hremoved => hnone ⟨k, hk, hremoved⟩⟩
  obtain ⟨k, hk, hremoved⟩ := hremoved
  refine ⟨k, hk, ?_, hremoved⟩
  rcases Nat.lt_trichotomy k (Nat.find hexists) with hlt | heq | hgt
  · exact hlt
  · exact absurd (heq ▸ hremoved) hstored'.not_removedAt
  · exact absurd hremoved (hkept' k hgt)

/-- A document that is not removed stays tracked. -/
theorem TrackedFrom.concat (h : TrackedFrom ops uri i) (hremoves : o.removes uri = false) :
    TrackedFrom (ops ++ [o]) uri i := by
  refine ⟨happensAt_concat_iff.2 (.inl h.stored), fun j hj hremoved => ?_,
    fun j hj hstoredj => ?_⟩
  · rcases happensAt_concat_iff.1 hremoved with hremoved | ⟨-, hremoves'⟩
    · exact h.kept j hj hremoved
    · rw [hremoves] at hremoves'
      contradiction
  · have hne : j ≠ ops.length := Nat.ne_of_lt (Nat.lt_trans hj h.stored.lt)
    obtain ⟨k, hjk, hki, hremoved⟩ :=
      h.first j hj ((happensAt_concat_iff.1 hstoredj).resolve_right fun h => hne h.1)
    exact ⟨k, hjk, hki, happensAt_concat_iff.2 (.inl hremoved)⟩

/-- A document that was not tracked is tracked from the operation that stores problems of it. -/
theorem trackedFrom_length (hstores : o.stores (after ops) uri = true)
    (hnone : ¬ ∃ j, TrackedFrom ops uri j) : TrackedFrom (ops ++ [o]) uri ops.length := by
  refine ⟨happensAt_concat_iff.2 (.inr ⟨rfl, hstores⟩), fun j hj hremoved => ?_,
    fun j hj hstoredj => ?_⟩
  · have hlt := hremoved.lt
    rw [List.length_append, List.length_singleton] at hlt
    omega
  · -- an earlier one that is not removed would be tracked already
    have hstored : StoredAt ops uri j :=
      (happensAt_concat_iff.1 hstoredj).resolve_right fun h => Nat.ne_of_lt hj h.1
    by_contra hkept
    refine hnone (exists_trackedFrom hstored fun k hk hremoved => hkept ⟨k, hk, ?_⟩)
    exact ⟨hremoved.lt, happensAt_concat_iff.2 (.inl hremoved)⟩

/-- A further operation removes a document, leaves it tracked as it was, or is the first to store
problems of it. -/
theorem trackedFrom_concat_iff :
    TrackedFrom (ops ++ [o]) uri i ↔
      (TrackedFrom ops uri i ∧ o.removes uri = false) ∨
        (i = ops.length ∧ o.stores (after ops) uri = true ∧ ¬ ∃ j, TrackedFrom ops uri j) := by
  constructor
  · intro h
    rcases happensAt_concat_iff.1 h.stored with hstored | ⟨rfl, hstores⟩
    · refine .inl ⟨⟨hstored, fun j hj hremoved => ?_, fun j hj hstoredj => ?_⟩, ?_⟩
      · exact h.kept j hj (happensAt_concat_iff.2 (.inl hremoved))
      · obtain ⟨k, hjk, hki, hremoved⟩ := h.first j hj (happensAt_concat_iff.2 (.inl hstoredj))
        have hne : k ≠ ops.length := Nat.ne_of_lt (Nat.lt_trans hki hstored.lt)
        exact ⟨k, hjk, hki, (happensAt_concat_iff.1 hremoved).resolve_right fun h => hne h.1⟩
      · exact eq_false_of_ne_true fun hremoves =>
          h.kept ops.length hstored.lt (happensAt_concat_iff.2 (.inr ⟨rfl, hremoves⟩))
    · refine .inr ⟨rfl, hstores, ?_⟩
      rintro ⟨j, htracked⟩
      have hj : j < ops.length := htracked.stored.lt
      obtain ⟨k, hjk, hk, hremoved⟩ :=
        h.first j hj (happensAt_concat_iff.2 (.inl htracked.stored))
      refine htracked.kept k hjk ((happensAt_concat_iff.1 hremoved).resolve_right ?_)
      exact fun h => Nat.ne_of_lt hk h.1
  · rintro (⟨h, hremoves⟩ | ⟨rfl, hstores, hnone⟩)
    · exact h.concat hremoves
    · exact trackedFrom_length hstores hnone

/-- The documents stand in the order in which they came. -/
structure InOrder (ops : List Operation) : Prop where
  /-- No document stands there twice. -/
  nodup : (after ops).uris.Nodup
  /-- The tracked documents stand there. -/
  mem_iff : ∀ uri, uri ∈ (after ops).uris ↔ ∃ i, TrackedFrom ops uri i
  /-- One that stands before another is tracked for longer. -/
  ordered : (after ops).uris.Pairwise fun uri uri' =>
    ∀ i i', TrackedFrom ops uri i → TrackedFrom ops uri' i' → i < i'

/-- A new document is tracked from now on, and the others as before. -/
theorem InOrder.trackedFrom_concat_new (h : InOrder ops) (hnew : uri ∉ (after ops).uris)
    (hstores : o.stores (after ops) uri = true) (uri' : String) (i : Nat) :
    TrackedFrom (ops ++ [o]) uri' i ↔
      TrackedFrom ops uri' i ∨ (uri' = uri ∧ i = ops.length) := by
  have honly : o.stores (after ops) uri' = true ↔ uri' = uri :=
    ⟨eq_of_stores hstores, fun he => he ▸ hstores⟩
  rw [trackedFrom_concat_iff, not_removes_of_stores hstores, honly, ← h.mem_iff]
  constructor
  · rintro (⟨h', -⟩ | ⟨hi, hu, -⟩)
    · exact .inl h'
    · exact .inr ⟨hu, hi⟩
  · rintro (h' | ⟨rfl, hi⟩)
    · exact .inl ⟨h', rfl⟩
    · exact .inr ⟨hi, rfl, hnew⟩

/-- A new document comes after all others. -/
theorem InOrder.concat_new (h : InOrder ops) (hnew : uri ∉ (after ops).uris)
    (hstores : o.stores (after ops) uri = true)
    (huris : (after (ops ++ [o])).uris = (after ops).uris ++ [uri]) : InOrder (ops ++ [o]) := by
  have htracked := h.trackedFrom_concat_new hnew hstores
  have hold : ∀ uri' ∈ (after ops).uris, ∀ i, TrackedFrom (ops ++ [o]) uri' i →
      TrackedFrom ops uri' i := by
    intro uri' hmem i h'
    refine ((htracked uri' i).1 h').resolve_right ?_
    rintro ⟨rfl, -⟩
    exact hnew hmem
  refine ⟨?_, fun uri' => ?_, ?_⟩
  · rw [huris, List.nodup_append]
    refine ⟨h.nodup, List.nodup_singleton uri, ?_⟩
    rintro uri' hmem uri'' huri' rfl
    exact hnew (List.mem_singleton.1 huri' ▸ hmem)
  · rw [huris, List.mem_append, List.mem_singleton, h.mem_iff]
    simp only [htracked]
    constructor
    · rintro (⟨i, hi⟩ | rfl)
      · exact ⟨i, .inl hi⟩
      · exact ⟨ops.length, .inr ⟨rfl, rfl⟩⟩
    · rintro ⟨i, hi | ⟨rfl, -⟩⟩
      · exact .inl ⟨i, hi⟩
      · exact .inr rfl
  · rw [huris, List.pairwise_append]
    refine ⟨?_, List.pairwise_singleton _ _, fun uri' hmem uri'' huri'' i i' hi hi' => ?_⟩
    · refine h.ordered.imp_of_mem fun hmem hmem' hlt i i' hi hi' => ?_
      exact hlt i i' (hold _ hmem i hi) (hold _ hmem' i' hi')
    · obtain rfl := List.mem_singleton.1 huri''
      have hlt : i < ops.length := (hold uri' hmem i hi).stored.lt
      rcases (htracked uri'' i').1 hi' with h' | ⟨-, rfl⟩
      · exact absurd ((h.mem_iff uri'').2 ⟨i', h'⟩) hnew
      · exact hlt

/-- When documents are removed, the others keep their order. -/
theorem InOrder.concat_filter (h : InOrder ops)
    (hstores : ∀ uri, o.stores (after ops) uri = true → uri ∈ (after ops).uris)
    (huris : (after (ops ++ [o])).uris =
      (after ops).uris.filter fun uri => o.removes uri = false) : InOrder (ops ++ [o]) := by
  have htracked : ∀ uri i, TrackedFrom (ops ++ [o]) uri i ↔
      TrackedFrom ops uri i ∧ o.removes uri = false := by
    intro uri i
    rw [trackedFrom_concat_iff, ← h.mem_iff]
    exact or_iff_left fun h => h.2.2 (hstores uri h.2.1)
  refine ⟨?_, fun uri => ?_, ?_⟩
  · rw [huris]
    exact h.nodup.filter _
  · rw [huris, List.mem_filter, h.mem_iff, decide_eq_true_eq]
    simp only [htracked, exists_and_right]
  · rw [huris]
    refine (h.ordered.imp fun hlt i i' hi hi' => ?_).filter _
    exact hlt i i' ((htracked _ i).1 hi).1 ((htracked _ i').1 hi').1

theorem inOrder_after (ops : List Operation) : InOrder ops := by
  induction ops using List.reverseRecOn with
  | nil =>
    refine ⟨List.nodup_nil, fun uri => ?_, .nil⟩
    refine iff_of_false List.not_mem_nil ?_
    rintro ⟨i, h⟩
    exact absurd h.stored.lt (Nat.not_lt_zero i)
  | append_singleton ops o ih =>
    have hafter := after_concat ops o
    rcases uris_perform (after ops) o with ⟨uri, hnew, hstores, huris⟩ | ⟨hstores, huris⟩
    · exact ih.concat_new hnew hstores (hafter ▸ huris)
    · exact ih.concat_filter hstores (hafter ▸ huris)

/-! ## All documents -/

/-- Every document stands in the list with what is stored for it. -/
theorem mem_toList_iff (hnodup : s.uris.Nodup) {problems : List Problem} :
    (uri, problems) ∈ s.toList ↔ s.get? uri = some problems := by
  rw [uris_eq_keys] at hnodup
  rw [toList, List.mem_map, get?, Option.map_eq_some_iff]
  constructor
  · rintro ⟨⟨uri', r⟩, hmem, he⟩
    obtain ⟨rfl, rfl⟩ := Prod.mk.inj he
    exact ⟨r, Entries.get?_of_mem hnodup hmem, rfl⟩
  · rintro ⟨r, hr, rfl⟩
    exact ⟨(uri, r), Entries.mem_of_get? hr, rfl⟩

theorem size_eq_length_uris (s : Store) : s.size = s.uris.length := by
  rw [size, uris, toList, List.length_map, List.length_map]

/-- The problems of all documents are counted one document after the other. -/
theorem problemCount_eq_foldr (s : Store) :
    s.problemCount = s.toList.foldr (fun e n => e.2.length + n) 0 := by
  rw [problemCount]
  induction s.toList with
  | nil => rfl
  | cons e es ih => rw [List.flatMap_cons, List.length_append, ih, List.foldr_cons]

/-- The documents are independent of each other, and they are listed by when they came. -/
theorem after_tracked (ops : List Operation) :
    (∀ uri, (after ops).get? uri = (after (ops.filter (·.concerns uri))).get? uri ∧
      (after ops).version? uri = (after (ops.filter (·.concerns uri))).version? uri) ∧
    (∀ uri later, (∀ o ∈ later, o.removes uri = false) → ∀ v ∈ (after ops).version? uri,
      ∃ w ∈ (after (ops ++ later)).version? uri, v ≤ w) ∧
    (∀ uri version problems, ((after ops).publish uri version problems).2 = false ↔
      ∃ newer ∈ (after ops).version? uri, version < newer) ∧
    (∀ c : Call, c.accepted (after ops) = false → (after ops).call c = after ops) ∧
    InOrder ops ∧
    (∀ uri problems, (uri, problems) ∈ (after ops).toList ↔
      (after ops).get? uri = some problems) ∧
    (after ops).size = (after ops).uris.length ∧
    (after ops).problemCount = (after ops).toList.foldr (fun e n => e.2.length + n) 0 := by
  have hinOrder := inOrder_after ops
  refine ⟨fun uri => ?_, fun uri later h v hv => ?_, rejected_iff _, fun c => call_eq_self,
    hinOrder, fun uri problems => mem_toList_iff hinOrder.nodup, size_eq_length_uris _,
    problemCount_eq_foldr _⟩
  · rw [get?, get?, version?, version?, get?_after_filter]
    exact ⟨rfl, rfl⟩
  · rw [after_append]
    exact version_le_of_not_removed h hv

/-- Two documents, the first of which is closed and published again. -/
def reopened : List Operation :=
  [.call (.publish "a" 1 []), .call (.publish "b" 1 []), .close "a", .call (.publish "a" 3 [])]

/-- A document that was closed goes to the end, and what comes late for it does not count. -/
theorem after_tracked_reopened :
    (∃ w ∈ (after (reopened ++ [.call (.publish "a" 2 [])])).version? "a", 3 ≤ w) ∧
      (Call.publish "a" 2 []).accepted (after reopened) = false ∧
      (after reopened).call (.publish "a" 2 []) = after reopened ∧
      (after reopened).uris = ["b", "a"] ∧
      ∀ i i', TrackedFrom reopened "b" i → TrackedFrom reopened "a" i' → i < i' := by
  obtain ⟨-, hversion, -, hrejected, hinOrder, -⟩ := after_tracked reopened
  have hlater : ∀ o ∈ [Operation.call (.publish "a" 2 [])], o.removes "a" = false := by decide
  have hstored : (3 : Int) ∈ (after reopened).version? "a" := by decide +kernel
  have hnot : (Call.publish "a" 2 []).accepted (after reopened) = false := by decide +kernel
  have huris : (after reopened).uris = ["b", "a"] := by decide +kernel
  have hordered := hinOrder.ordered
  rw [huris] at hordered
  refine ⟨hversion "a" _ hlater 3 hstored, hnot, hrejected _ hnot, huris, ?_⟩
  exact (List.pairwise_cons.1 hordered).1 "a" (List.mem_singleton_self "a")

end LsxKit.Store
