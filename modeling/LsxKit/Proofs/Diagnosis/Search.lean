import LsxKit.Diagnosis.Locate
import LsxKit.Proofs.Diagnosis.Outline
import LsxKit.Proofs.Xml.Occurrence

/-!
# Searching an outline

The search for an element follows a flat list of tags by their names and depths. The list has the
nesting of the elements, which says what the search finds.

* `outlines_occurrences`: the tags of the events of a text are those of its elements.
* `exists_findOpening`: the first tag of a name begins the first element of that name inside, if
  no other element of the name comes before.
* `Passed`, `Deeper`: what counting at a depth passes over; `deeper_inside`: what is inside an
  element is deeper.
* `exists_findSibling`: counting tags of a name at a depth finds the elements of that name.
-/

namespace LsxKit.Outline

open Locator Xml Occurrence

/-! ## The tags of elements -/

/-- The tag that begins an element inside `depth` others. -/
def beginTag (text : List Char) (depth : Nat) (e : Occurrence) : OutlineTag :=
  ⟨(position text e.offset).line, (position text e.offset).column, .opening, e.tag.name, depth⟩

/-- Whether tags are those of elements inside `depth` others, one after the other: each begins
with its tag, then come the tags of what is inside, and then its end tag, if it has one; without
one nothing is inside. Declarations may stand anywhere between them. -/
inductive Outlines (text : List Char) : Nat → List Occurrence → List OutlineTag → Prop
  | nil {d : Nat} : Outlines text d [] []
  | declaration {d : Nat} {es : List Occurrence} {t : OutlineTag} {ts : List OutlineTag}
      (hkind : t.kind = .other) (hname : t.name = ['?', 'x', 'm', 'l'])
      (h : Outlines text d es ts) : Outlines text d es (t :: ts)
  | element {d : Nat} {e : Occurrence} {es : List Occurrence} {inner ts : List OutlineTag}
      {ending : Option OutlineTag} (hinside : Outlines text (d + 1) e.inside inner)
      (hending : ∀ t ∈ ending, t.kind = .closing ∧ t.depth = d + 1)
      (hended : ending = none → e.inside = []) (h : Outlines text d es ts) :
      Outlines text d (e :: es) (beginTag text d e :: (inner ++ (ending.toList ++ ts)))

variable {text : List Char} {d : Nat} {es es' : List Occurrence} {ts ts' : List OutlineTag}
  {e : Occurrence} {k : String}

theorem Outlines.append (h : Outlines text d es ts) (h' : Outlines text d es' ts') :
    Outlines text d (es ++ es') (ts ++ ts') := by
  induction h with
  | nil => exact h'
  | declaration hkind hname _ ih => exact .declaration hkind hname (ih h')
  | element hinside hending hended _ _ ih =>
    have hall := Outlines.element hinside hending hended (ih h')
    simpa using hall

/-- Whether tags are those of elements that are put together: those of the complete roots, then
for each element that has not ended, the outermost first, its tag and those of what is inside. -/
def Stacked (text : List Char) : List Occurrence → List Occurrence → List OutlineTag → Prop
  | [], roots, ts => Outlines text 0 roots.reverse ts
  | b :: bs, roots, ts =>
    ∃ before inner, ts = before ++ beginTag text bs.length b :: inner ∧
      Stacked text bs roots before ∧ Outlines text (bs.length + 1) b.inside.reverse inner

variable {q : Occurring}

/-- A tag that is no element's changes nothing. -/
theorem stacked_declaration {opened roots : List Occurrence} {t : OutlineTag}
    (h : Stacked text opened roots ts) (hkind : t.kind = .other)
    (hname : t.name = ['?', 'x', 'm', 'l']) : Stacked text opened roots (ts ++ [t]) := by
  have hone : ∀ {d es ts}, Outlines text d es ts → Outlines text d es (ts ++ [t]) := by
    intro d es ts h
    simpa using h.append (.declaration hkind hname .nil)
  cases opened with
  | nil => exact hone h
  | cons b bs =>
    obtain ⟨before, inner, rfl, hbefore, hinner⟩ := h
    exact ⟨before, inner ++ [t], by simp, hbefore, hone hinner⟩

/-- A complete element is added with its tags. -/
theorem stacked_put (h : Stacked text q.opened q.roots ts)
    (he : Outlines text q.opened.length [e] ts') :
    Stacked text (q.put e).opened (q.put e).roots (ts ++ ts') := by
  obtain ⟨opened, roots⟩ := q
  cases opened with
  | nil =>
    have hall := Outlines.append h he
    simpa [Occurring.put, Stacked] using hall
  | cons b bs =>
    obtain ⟨before, inner, rfl, hbefore, hinner⟩ := h
    refine ⟨before, inner ++ ts', List.append_assoc _ _ _, hbefore, ?_⟩
    simpa using hinner.append he

/-- An event is added with its tag. -/
theorem stacked_add (offset : Nat) {e : Event} (h : Stacked text q.opened q.roots ts)
    (hplain : e.IsPlain) (hclose : ∀ name, e = .close name → q.opened ≠ []) :
    Stacked text (q.add offset e).opened (q.add offset e).roots
        (ts ++ (e.outlineTag? (position text offset) q.opened.length).toList) ∧
      (q.add offset e).opened.length = e.depthAfter q.opened.length := by
  cases e with
  | start tag => exact ⟨⟨ts, [], rfl, h, .nil⟩, rfl⟩
  | empty tag =>
    have hone : Outlines text q.opened.length [⟨offset, tag, []⟩]
        (beginTag text q.opened.length ⟨offset, tag, []⟩ :: ([] ++ (none.toList ++ []))) :=
      .element .nil nofun (fun _ => rfl) .nil
    exact ⟨stacked_put h hone, q.length_opened_put _⟩
  | close name =>
    obtain ⟨opened, roots⟩ := q
    cases opened with
    | nil => exact absurd rfl (hclose name rfl)
    | cons b bs =>
      obtain ⟨before, inner, rfl, hbefore, hinner⟩ := h
      let ending : OutlineTag := ⟨(position text offset).line, (position text offset).column,
        .closing, name, bs.length + 1⟩
      have hending : ∀ t ∈ some ending, t.kind = .closing ∧ t.depth = bs.length + 1 := by
        intro t ht
        rw [← Option.mem_some_iff.1 ht]
        exact ⟨rfl, rfl⟩
      have hone := Outlines.element (e := { b with inside := b.inside.reverse }) hinner hending
        nofun .nil
      refine ⟨?_, Occurring.length_opened_put _ _⟩
      rw [List.append_assoc]
      exact stacked_put (q := ⟨bs, roots⟩) hbefore hone
  | text raw => exact ⟨by simpa [Event.outlineTag?, Occurring.add] using h, rfl⟩
  | declaration content => exact ⟨stacked_declaration h rfl rfl, rfl⟩
  | characterData raw => exact hplain.elim
  | other => exact hplain.elim

theorem ne_nil_of_ofToken? {opened : List (List Char)} {t : Token} {name : List Char}
    (h : Event.ofToken? opened t = .ok (.close name)) : opened ≠ [] := by
  rintro rfl
  cases t with
  | tag content =>
    have htag : Event.ofTag content = .close name := Except.ok.inj h
    unfold Event.ofTag at htag
    split_ifs at htag
  | instruction content =>
    have hinstruction : Event.ofInstruction content = .close name := Except.ok.inj h
    unfold Event.ofInstruction at hinstruction
    split at hinstruction
    · split_ifs at hinstruction
    · contradiction
  | close content => contradiction
  | _ => cases Except.ok.inj h

theorem stacked_readingFrom (text : List Char) (opened : List (List Char)) (offset : Nat)
    (cs : List Char) (hlength : q.opened.length = opened.length)
    (h : Stacked text q.opened q.roots ts)
    (hplain : ∀ e ∈ (Event.readingFrom opened offset cs).events, e.2.IsPlain) :
    Stacked text (q.run (Event.readingFrom opened offset cs).events).opened
      (q.run (Event.readingFrom opened offset cs).events).roots
      (ts ++ tags text opened.length (Event.readingFrom opened offset cs).events) := by
  fun_induction Event.readingFrom opened offset cs generalizing q ts with
  | case1 opened offset cs hstep => simpa [tags, Occurring.run] using h
  | case2 opened offset cs fault hstep => simpa [tags, Occurring.run] using h
  | case3 opened offset cs t source rest hstep fault he => simpa [tags, Occurring.run] using h
  | case4 opened offset cs t source rest hstep e he r =>
    rename_i ih
    obtain ⟨hadd, hdepth⟩ := stacked_add offset h (hplain _ List.mem_cons_self) (by
      rintro name rfl hnil
      rw [hnil, List.length_nil, eq_comm, List.length_eq_zero_iff] at hlength
      exact ne_nil_of_ofToken? he hlength)
    rw [hlength] at hadd hdepth
    rw [Occurring.run_cons, tags, ← List.append_assoc, ← Event.length_nextOpened]
    exact ih (by rw [hdepth, Event.length_nextOpened]) hadd
      fun e he => hplain e (List.mem_cons_of_mem _ he)

/-- The tags of the events of a text are those of its elements. -/
theorem outlines_occurrences {text : List Char} (hopened : (Occurring.ofText text).opened = [])
    (hplain : ∀ e ∈ (Event.reading text).events, e.2.IsPlain) :
    Outlines text 0 (occurrences text) (tags text 0 (Event.reading text).events) := by
  have hempty : Stacked text [] [] [] := Outlines.nil
  have h := stacked_readingFrom (q := ⟨[], []⟩) text [] 0 (Event.dropMark text) rfl hempty hplain
  have hstacked : Stacked text (Occurring.ofText text).opened (Occurring.ofText text).roots
      (tags text 0 (Event.reading text).events) := h
  rwa [hopened] at hstacked

/-! ## Tags of a name -/

theorem name_eq_iff : e.name = k ↔ e.tag.name = k.toList := by
  rw [name, ← String.toList_inj, String.toList_ofList]

theorem opens_beginTag (text : List Char) (d : Nat) (e : Occurrence) (k : String) :
    (beginTag text d e).opens k.toList = true ↔ e.name = k := by
  rw [name_eq_iff, OutlineTag.opens, Bool.and_eq_true, decide_eq_true_iff, decide_eq_true_iff]
  exact and_iff_right nofun

theorem not_opens_beginTag (h : e.name ≠ k) : (beginTag text d e).opens k.toList = false :=
  Bool.eq_false_iff.2 fun hopens => h ((opens_beginTag text d e k).1 hopens)

theorem not_opens_closing {t : OutlineTag} (hkind : t.kind = .closing) (name : List Char) :
    t.opens name = false := by
  simp [OutlineTag.opens, hkind]

theorem not_opens_declaration {t : OutlineTag} (hname : t.name = ['?', 'x', 'm', 'l'])
    (hk : k ≠ Tree.declarationKey) : t.opens k.toList = false := by
  have hne : t.name ≠ k.toList := by
    rw [hname]
    intro h
    exact hk (String.toList_inj.1 h.symm)
  simp [OutlineTag.opens, hne]

variable {ending : Option OutlineTag}
  (hending : ∀ t ∈ ending, t.kind = .closing ∧ t.depth = d + 1) (hk : k ≠ Tree.declarationKey)

/-! ## The first tag of a name -/

theorem findOpening_cons {t : OutlineTag} {name : List Char} (h : t.opens name = false)
    (ts : List OutlineTag) : findOpening name (t :: ts) = findOpening name ts := by
  simp [findOpening, h]

/-- What is found is the first tag that begins an element of the name. -/
theorem exists_skipped_of_findOpening {name : List Char} {a : Anchor}
    (h : findOpening name ts = some a) :
    ∃ skipped, ts = skipped ++ a.1 :: a.2 ∧ (∀ t ∈ skipped, t.opens name = false) ∧
      a.1.opens name = true := by
  induction ts with
  | nil => contradiction
  | cons t ts ih =>
    rw [findOpening] at h
    split_ifs at h with hopens
    · obtain rfl := Option.some.inj h
      exact ⟨[], rfl, nofun, hopens⟩
    · obtain ⟨skipped, rfl, hskipped, hfound⟩ := ih h
      refine ⟨t :: skipped, rfl, List.forall_mem_cons.2 ⟨?_, hskipped⟩, hfound⟩
      exact Bool.eq_false_iff.2 hopens

theorem findOpening_beginTag (h : e.name = k) (ts : List OutlineTag) :
    findOpening k.toList (beginTag text d e :: ts) = some (beginTag text d e, ts) := by
  rw [findOpening, if_pos ((opens_beginTag text d e k).2 h)]

include hending in
/-- An end tag is passed over. -/
theorem findOpening_ending (name : List Char) (ts : List OutlineTag) :
    findOpening name (ending.toList ++ ts) = findOpening name ts := by
  cases ending with
  | none => rfl
  | some t => exact findOpening_cons (not_opens_closing (hending t rfl).1 name) ts

include hk in
/-- Elements none of which has the name are passed over. -/
theorem findOpening_append (h : Outlines text d es ts) (hnone : ∀ e ∈ preorderAll es, e.name ≠ k)
    (tail : List OutlineTag) :
    findOpening k.toList (ts ++ tail) = findOpening k.toList tail := by
  induction h generalizing tail with
  | nil => rfl
  | declaration _ hname _ ih =>
    exact (findOpening_cons (not_opens_declaration hname hk) _).trans (ih hnone tail)
  | element hinside hending _ _ ihinside ih =>
    rw [preorderAll_cons, List.forall_mem_cons, List.forall_mem_append] at hnone
    rw [List.cons_append, findOpening_cons (not_opens_beginTag hnone.1), List.append_assoc,
      List.append_assoc, ihinside hnone.2.1, findOpening_ending hending, ih hnone.2.2]

/-- Whether no element with the name comes before the first of `es` that has it: none is inside
the elements before that one. -/
def FirstDirect (k : String) (es : List Occurrence) : Prop :=
  ∀ e ∈ preorderAll (es.takeWhile (·.name ≠ k)), e.name ≠ k

theorem firstDirect_cons (hname : e.name ≠ k) (h : FirstDirect k (e :: es)) :
    (∀ e' ∈ preorderAll e.inside, e'.name ≠ k) ∧ FirstDirect k es := by
  rw [FirstDirect, List.takeWhile_cons_of_pos (by simpa using hname), preorderAll_cons,
    List.forall_mem_cons, List.forall_mem_append] at h
  exact h.2

theorem named_cons_of_ne (hname : e.name ≠ k) : named k (e :: es) = named k es :=
  List.filter_cons_of_neg (by simpa using hname)

theorem named_cons_of_eq (hname : e.name = k) : named k (e :: es) = e :: named k es :=
  List.filter_cons_of_pos (by simpa using hname)

include hk in
/-- The first tag of a name begins the first element of that name, if none comes before. -/
theorem exists_findOpening (h : Outlines text d es ts) (hfirst : FirstDirect k es)
    (hne : named k es ≠ []) (tail : List OutlineTag) :
    ∃ t rest es' ts', findOpening k.toList (ts ++ tail) = some (t, rest) ∧
      t :: rest = ts' ++ tail ∧ Outlines text d es' ts' ∧ named k es' = named k es ∧
      t.kind = .opening ∧ t.name = k.toList ∧ t.depth = d := by
  induction h with
  | nil => contradiction
  | declaration _ hname _ ih =>
    rw [List.cons_append, findOpening_cons (not_opens_declaration hname hk)]
    exact ih hfirst hne
  | @element d e es _ _ _ hinside hending hended h _ ih =>
    by_cases hname : e.name = k
    · exact ⟨_, _, e :: es, _, findOpening_beginTag hname _, rfl,
        .element hinside hending hended h, rfl, rfl, name_eq_iff.1 hname, rfl⟩
    · -- nothing inside the element has the name, so the search goes on behind its end tag
      obtain ⟨hnone, hfirst⟩ := firstDirect_cons hname hfirst
      rw [named_cons_of_ne hname] at hne ⊢
      rw [List.cons_append, findOpening_cons (not_opens_beginTag hname), List.append_assoc,
        List.append_assoc, findOpening_append hk hinside hnone, findOpening_ending hending]
      exact ih hfirst hne

/-! ## Counting tags of a name -/

/-- An end tag deeper inside is passed over. -/
theorem findSibling_closing {t : OutlineTag} (hkind : t.kind = .closing) (hdepth : d < t.depth)
    (name : List Char) (i : Nat) (ts : List OutlineTag) :
    findSibling name d i (t :: ts) = findSibling name d i ts := by
  rw [findSibling.eq_def]
  simp [hkind, Nat.not_le.2 hdepth]

/-- A tag that begins no element of the name at the depth is passed over. -/
theorem findSibling_other {t : OutlineTag} {name : List Char} (hkind : t.kind ≠ .closing)
    (h : t.depth = d → t.opens name = false) (i : Nat) (ts : List OutlineTag) :
    findSibling name d i (t :: ts) = findSibling name d i ts := by
  have hnot : ¬(t.depth = d ∧ t.opens name = true) := by
    rintro ⟨hdepth, hopens⟩
    rw [h hdepth] at hopens
    exact Bool.false_ne_true hopens
  rw [findSibling.eq_def]
  simp only [hkind, hnot, if_false]

theorem findSibling_zero {t : OutlineTag} {name : List Char} (hkind : t.kind = .opening)
    (hname : t.name = name) (ts : List OutlineTag) :
    findSibling name t.depth 0 (t :: ts) = some (t, ts) := by
  have hopens : t.opens name = true := by simp [OutlineTag.opens, hkind, hname]
  rw [findSibling.eq_def]
  simp [hkind, hopens]

/-- A tag that begins an element of the name at the depth is counted. -/
theorem findSibling_succ {t : OutlineTag} {name : List Char} (hkind : t.kind = .opening)
    (hname : t.name = name) (i : Nat) (ts : List OutlineTag) :
    findSibling name t.depth (i + 1) (t :: ts) = findSibling name t.depth i ts := by
  have hopens : t.opens name = true := by simp [OutlineTag.opens, hkind, hname]
  rw [findSibling.eq_def]
  simp [hkind, hopens]

/-- What counting at a depth passes over: it ends nothing there, and begins no element of the name
there. -/
def Passed (name : List Char) (d : Nat) (t : OutlineTag) : Prop :=
  (t.kind = .closing → d < t.depth) ∧ (t.depth = d → t.opens name = false)

theorem findSibling_passed {name : List Char} {skipped : List OutlineTag}
    (h : ∀ t ∈ skipped, Passed name d t) (i : Nat) (tail : List OutlineTag) :
    findSibling name d i (skipped ++ tail) = findSibling name d i tail := by
  induction skipped with
  | nil => rfl
  | cons t skipped ih =>
    rw [List.forall_mem_cons] at h
    rw [List.cons_append]
    by_cases hkind : t.kind = .closing
    · rw [findSibling_closing hkind (h.1.1 hkind), ih h.2]
    · rw [findSibling_other hkind h.1.2, ih h.2]

/-- Whether a tag is passed over at a depth whatever the name: it ends nothing there, and begins
nothing there but a declaration. -/
def Deeper (d : Nat) (t : OutlineTag) : Prop :=
  (t.kind = .closing → d < t.depth) ∧
    (t.depth = d → t.kind = .closing ∨ t.name = ['?', 'x', 'm', 'l'])

include hk in
theorem Deeper.passed {t : OutlineTag} (h : Deeper d t) : Passed k.toList d t := by
  refine ⟨h.1, fun hdepth => ?_⟩
  rcases h.2 hdepth with hkind | hname
  · exact not_opens_closing hkind k.toList
  · exact not_opens_declaration hname hk

/-- The end tags among those of elements are deeper than the elements. -/
theorem lt_depth_of_closing {t : OutlineTag} (h : Outlines text d es ts) (ht : t ∈ ts)
    (hkind : t.kind = .closing) : d < t.depth := by
  induction h with
  | nil => contradiction
  | declaration hother _ _ ih =>
    rcases List.mem_cons.1 ht with rfl | ht
    · rw [hother] at hkind
      contradiction
    · exact ih ht
  | element _ hending _ _ ihinside ih =>
    rcases List.mem_cons.1 ht with rfl | ht
    · contradiction
    · rcases List.mem_append.1 ht with ht | ht
      · exact Nat.lt_of_succ_lt (ihinside ht)
      · rcases List.mem_append.1 ht with ht | ht
        · rw [(hending t (Option.mem_toList.1 ht)).2]
          exact Nat.lt_succ_self _
        · exact ih ht

/-- The tags of deeper elements are deeper. -/
theorem deeper_of_mem {d' : Nat} {t : OutlineTag} (h : Outlines text d' es ts) (hd : d < d')
    (ht : t ∈ ts) : Deeper d t := by
  refine ⟨fun hkind => Nat.lt_trans hd (lt_depth_of_closing h ht hkind), ?_⟩
  induction h with
  | nil => contradiction
  | declaration _ hname _ ih =>
    rcases List.mem_cons.1 ht with rfl | ht
    · exact fun _ => .inr hname
    · exact ih hd ht
  | element _ hending _ _ ihinside ih =>
    rcases List.mem_cons.1 ht with rfl | ht
    · exact fun hdepth => absurd hdepth (Nat.ne_of_gt hd)
    · rcases List.mem_append.1 ht with ht | ht
      · exact ihinside (Nat.lt_succ_of_lt hd) ht
      · rcases List.mem_append.1 ht with ht | ht
        · exact fun _ => .inl (hending t (Option.mem_toList.1 ht)).1
        · exact ih hd ht

include hending in
/-- What is inside an element is deeper, and so is its end tag. -/
theorem deeper_inside {inner : List OutlineTag} (h : Outlines text (d + 1) es inner) :
    ∀ t ∈ inner ++ ending.toList, Deeper d t := by
  intro t ht
  rcases List.mem_append.1 ht with ht | ht
  · exact deeper_of_mem h (Nat.lt_succ_self d) ht
  · obtain ⟨hkind, hdepth⟩ := hending t (Option.mem_toList.1 ht)
    exact ⟨fun _ => hdepth ▸ Nat.lt_succ_self d, fun _ => .inl hkind⟩

include hk in
/-- Counting tags of a name finds the elements of that name. -/
theorem exists_findSibling (h : Outlines text d es ts) {i : Nat} {e : Occurrence}
    (he : (named k es)[i]? = some e) (tail : List OutlineTag) :
    ∃ inner after, findSibling k.toList d i (ts ++ tail) =
        some (beginTag text d e, inner ++ after) ∧ Outlines text (d + 1) e.inside inner := by
  induction h generalizing i with
  | nil => contradiction
  | declaration hkind hname _ ih =>
    have hnot := not_opens_declaration hname hk
    rw [List.cons_append, findSibling_other (by simp [hkind]) fun _ => hnot]
    exact ih he
  | @element d e' es inner ts ending hinside hending _ _ _ ih =>
    -- what is inside the element is deeper: the search goes on behind its end tag
    have hend : ∀ i, findSibling k.toList d i (inner ++ (ending.toList ++ (ts ++ tail))) =
        findSibling k.toList d i (ts ++ tail) := by
      intro i
      rw [← List.append_assoc]
      exact findSibling_passed (fun t ht => (deeper_inside hending hinside t ht).passed hk) i _
    rw [List.cons_append, List.append_assoc, List.append_assoc]
    by_cases hname : e'.name = k
    · rw [named_cons_of_eq hname] at he
      cases i with
      | zero =>
        obtain rfl : e' = e := Option.some.inj he
        exact ⟨inner, _, findSibling_zero rfl (name_eq_iff.1 hname) _, hinside⟩
      | succ i =>
        have hcount : ∀ ts, findSibling k.toList d (i + 1) (beginTag text d e' :: ts) =
            findSibling k.toList d i ts := findSibling_succ rfl (name_eq_iff.1 hname) i
        rw [hcount, hend]
        exact ih he
    · rw [named_cons_of_ne hname] at he
      rw [findSibling_other (by simp [beginTag]) fun _ => not_opens_beginTag hname, hend]
      exact ih he

end LsxKit.Outline
